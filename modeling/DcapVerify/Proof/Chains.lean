import DcapVerify.Lib.Path
import DcapVerify.Lib.Window
import DcapVerify.Pki
import Mathlib.Data.Int.ConditionallyCompleteOrder
import Mathlib.Data.List.DropRight

/-!
# What chain validation establishes

`ParsedChain.validate` is three loops over the certificates. Its outcome splits in
two: `ValidPath`, which says that the chain is a rooted path of CA-issued P-256
certificates and does not mention time, and the validity windows of the
certificates, which mention nothing else.
-/

namespace DcapVerify

open Path

/-! ## Decoding a chain -/

/-- What `trimTrailingJunk` drops. -/
def isTrailingJunk (b : UInt8) : Bool := b == 0 || isAsciiWhitespace b

/-- The loop stays inside `data` and stops at the last byte that is not junk. -/
theorem trimEnd_eq {data : Bytes} : ∀ {n : Nat}, n ≤ data.length →
    trimEnd data n = .ok ((data.take n).rdropWhile isTrailingJunk).length
  | 0, _ => by simp [trimEnd]
  | n + 1, h => by
      have hget : data[n]? = some data[n] := List.getElem?_eq_getElem h
      rw [trimEnd, index_eq_ok.mpr hget, Checks.ok_bind, List.take_add_one, hget,
        Option.toList_some, List.rdropWhile_concat, ← isTrailingJunk]
      split
      · exact trimEnd_eq (Nat.le_of_succ_le h)
      · rw [List.length_append, List.length_take_of_le (Nat.le_of_succ_le h)]; rfl

/-- **Trimming drops the longest junk suffix**, and never indexes out of bounds. -/
theorem trimTrailingJunk_eq (data : Bytes) :
    trimTrailingJunk data = .ok (data.rdropWhile isTrailingJunk) := by
  have hpre : data.rdropWhile isTrailingJunk <+: data := List.rdropWhile_prefix _ _
  rw [trimTrailingJunk, trimEnd_eq le_rfl, List.take_length, Checks.ok_bind,
    sliceTo_of_le hpre.length_le, ← List.prefix_iff_eq_take.mp hpre]

/-- The category a slot's parse errors carry. -/
def ChainKind.parseCategory : ChainKind → ErrorCategory
  | .quotePck => .quoteParse
  | _ => .collateralParse

@[simp] theorem ChainKind.parseError_category (kind : ChainKind) (detail : String) :
    (kind.parseError detail).category = kind.parseCategory := by
  cases kind <;> rfl

variable (C : Crates)

theorem CertChain.fromPem_rejectsIn (kind : ChainKind) (data : Bytes) :
    RejectsIn [kind.parseCategory] (CertChain.fromPem C kind data) := by
  rw [fromPem, trimTrailingJunk_eq]
  exact .bind (.rejectIf (by simp)) fun _ _ => .bind (.ok _) fun _ _ =>
    .bind (.orReject fun _ => by simp) fun _ _ => .bind (.rejectIf (by simp)) fun _ _ =>
    .bind (.rejectIf (by simp)) fun _ _ => .ok _

theorem CertChain.parse_rejectsIn (chain : CertChain) :
    RejectsIn [chain.kind.parseCategory] (chain.parse C) :=
  .bind (.mapM fun _ _ => .orReject fun _ => by simp) fun _ _ => .ok _

variable {C}

/-- A chain that came out of `fromPem` keeps its slot and has one to ten certificates. -/
theorem CertChain.fromPem_eq_ok {kind : ChainKind} {data : Bytes} {chain : CertChain}
    (h : CertChain.fromPem C kind data = .ok chain) :
    chain.kind = kind ∧ chain.ders ≠ [] ∧ chain.ders.length ≤ maxChainLen := by
  simp only [fromPem, trimTrailingJunk_eq, Checks.bind_eq_ok, rejectIf_eq_ok,
    Checks.pure_eq_ok] at h
  obtain ⟨_, _, _, _, _, _, _, hne, _, hlen, rfl⟩ := h
  exact ⟨rfl, hne, not_lt.mp hlen⟩

theorem CertChain.parse_eq_ok {chain : CertChain} {parsed : ParsedChain}
    (h : chain.parse C = .ok parsed) :
    parsed.kind = chain.kind ∧
      List.Forall₂ (fun der cert => C.certificateFromDer der = .ok cert) chain.ders
        parsed.certs := by
  obtain ⟨certs, hm, h⟩ := Checks.bind_eq_ok.mp h
  rw [Checks.pure_eq_ok] at h
  subst h
  have hz : List.Forall₂ (fun x cert => C.certificateFromDer (Prod.fst x) = .ok cert)
      chain.ders.zipIdx certs := (Checks.mapM_eq_ok.mp hm).imp fun _ _ hx => orReject_eq_ok.mp hx
  have hders := (List.forall₂_map_left_iff (f := Prod.fst)
    (R := fun der cert => C.certificateFromDer der = .ok cert)).mpr hz
  rw [List.zipIdx_map_fst] at hders
  exact ⟨rfl, hders⟩

/-! ## One certificate -/

/-- `cert` may issue certificates. -/
structure IsCa (cert : X509Certificate) : Prop where
  basicConstraints : ∃ bc, cert.basicConstraints = .ok (some bc) ∧ bc.ca = true
  keyUsage : ∃ ku, cert.keyUsage = .ok ku ∧ ∀ u ∈ ku, u.keyCertSign = true

theorem requireCa_eq_ok {label : String} {i : Nat} {cert : X509Certificate} :
    requireCa label i cert = .ok () ↔ IsCa cert := by
  simp only [requireCa, Checks.bind_eq_ok, orReject_eq_ok, okOrReject_eq_ok, rejectIf_eq_ok]
  refine ⟨fun h => ?_, fun h => ?_⟩
  · obtain ⟨_, hb, bc, rfl, _, hca, ku, hk, hsign⟩ := h
    refine ⟨⟨bc, hb, by simpa using hca⟩, ku, hk, fun u hu => ?_⟩
    by_contra hne
    exact hsign ⟨u, hu, by simpa using hne⟩
  · obtain ⟨⟨bc, hb, hca⟩, ku, hk, hsign⟩ := h
    refine ⟨some bc, hb, bc, rfl, (), by simp [hca], ku, hk, ?_⟩
    rintro ⟨u, hu, hne⟩
    rw [hsign u hu] at hne
    cases hne

theorem requireCa_rejectsIn (label : String) (i : Nat) (cert : X509Certificate) :
    RejectsIn [.rootCaUntrusted] (requireCa label i cert) :=
  .bind (.orReject fun _ => by simp) fun _ _ => .bind (.okOrReject (by simp)) fun _ _ =>
    .bind (.rejectIf (by simp)) fun _ _ => .bind (.orReject fun _ => by simp) fun _ _ =>
      .rejectIf (by simp)

variable (C)

/-- Signed with ECDSA-SHA256 as its signed part says, and holding a P-256 key. -/
structure P256Sha256 (cert : X509Certificate) : Prop where
  signed : cert.signatureAlgorithm = cert.tbsSignature
  ecdsaSha256 : cert.signatureAlgorithm.algorithm = oidSigEcdsaWithSha256
  ecKey : cert.publicKey.algorithm.algorithm = oidKeyTypeEcPublicKey
  curve : cert.publicKey.algorithm.parameters.bind C.anyAsOid = some oidEcP256

theorem checkP256Sha256Algs_eq_ok {label : String} {cert : X509Certificate} :
    checkP256Sha256Algs C label cert = .ok () ↔ P256Sha256 C cert := by
  simp only [checkP256Sha256Algs, Checks.bind_eq_ok, okOrReject_eq_ok, rejectIf_eq_ok, not_not]
  refine ⟨fun h => ?_, fun h => ?_⟩
  · obtain ⟨_, h1, _, h2, _, h3, curve, h4, rfl⟩ := h
    exact ⟨h1, h2, h3, h4⟩
  · obtain ⟨h1, h2, h3, h4⟩ := h
    exact ⟨(), h1, (), h2, (), h3, _, h4, rfl⟩

theorem checkP256Sha256Algs_rejectsIn (label : String) (cert : X509Certificate) :
    RejectsIn [.rootCaUntrusted] (checkP256Sha256Algs C label cert) :=
  .bind (.rejectIf (by simp)) fun _ _ => .bind (.rejectIf (by simp)) fun _ _ =>
    .bind (.rejectIf (by simp)) fun _ _ => .bind (.okOrReject (by simp)) fun _ _ =>
      .rejectIf (by simp)

/-- `[notBefore, notAfter)`. -/
def X509Certificate.window (cert : X509Certificate) : Window Int :=
  ⟨cert.validity.notBefore, some cert.validity.notAfter⟩

theorem checkCert_eq_ok {label : String} {now : Int} {cert : X509Certificate} :
    ParsedChain.checkCert C label now cert = .ok () ↔
      cert.window.Contains now ∧ P256Sha256 C cert := by
  rw [ParsedChain.checkCert, Checks.seq_eq_ok, checkP256Sha256Algs_eq_ok, rejectIf_eq_ok,
    X509Certificate.window, Window.contains_some, not_or, not_lt, not_le]

theorem checkCert_rejectsIn (label : String) (now : Int) (cert : X509Certificate) :
    RejectsIn [.rootCaUntrusted, .certOrCrlTimeInvalid] (ParsedChain.checkCert C label now cert) :=
  .bind (.rejectIf (by simp)) fun _ _ => (checkP256Sha256Algs_rejectsIn C label cert).mono (by simp)

theorem spkiVerifyingKey_rejectsIn (label : String) (cert : X509Certificate) :
    RejectsIn [.rootCaUntrusted] (spkiVerifyingKey C label cert) :=
  .orReject fun _ => by simp

/-! ## One link -/

/-- The signature on `child` verifies under the key of `parent`. -/
def SignedBy (child parent : X509Certificate) : Prop :=
  ∃ key sig, C.fromSec1Bytes parent.publicKey.subjectPublicKey = .ok key ∧
    C.signatureFromDer child.signatureValue = .ok sig ∧
    C.verify key child.tbsCertificate sig = true

/-- `parent` issued `child`: the names meet and the signature verifies. -/
structure IssuedBy (child parent : X509Certificate) : Prop where
  name : child.issuer.asRaw = parent.subject.asRaw
  signature : SignedBy C child parent

namespace ParsedChain

/-- The checks of `checkLink` on the two certificates it has picked. -/
theorem checkLink_of_getElem? {chain : ParsedChain} {i : Nat} {child : X509Certificate}
    (h : chain.certs[i]? = some child) :
    chain.checkLink C i = .ok () ↔ IssuedBy C child (parentOf chain.certs i child) := by
  have hidx : index chain.certs i = .ok child := index_eq_ok.mpr h
  simp only [checkLink, hidx, Checks.ok_bind, spkiVerifyingKey, Checks.bind_eq_ok, orReject_eq_ok,
    rejectIf_eq_ok, not_not, Bool.not_eq_false]
  refine ⟨fun h => ?_, fun h => ?_⟩
  · obtain ⟨_, hname, key, hkey, sig, hsig, hver⟩ := h
    exact ⟨hname, key, sig, hkey, hsig, hver⟩
  · obtain ⟨hname, key, sig, hkey, hsig, hver⟩ := h
    exact ⟨(), hname, key, hkey, sig, hsig, hver⟩

theorem checkLink_rejectsIn {chain : ParsedChain} {i : Nat} (h : i < chain.certs.length) :
    RejectsIn [.rootCaUntrusted] (chain.checkLink C i) := by
  have hidx : index chain.certs i = .ok chain.certs[i] :=
    index_eq_ok.mpr (List.getElem?_eq_getElem h)
  rw [checkLink, hidx, Checks.ok_bind]
  exact .bind (.rejectIf (by simp)) fun _ _ => .bind (spkiVerifyingKey_rejectsIn C _ _) fun _ _ =>
    .bind (.orReject fun _ => by simp) fun _ _ => .rejectIf (by simp)

end ParsedChain

/-! ## The whole chain -/

/-- The certificate holds the pinned Intel SGX Root CA key. -/
def HoldsPinnedKey (cert : X509Certificate) : Prop :=
  cert.publicKey.subjectPublicKey = intelSgxRootCaPublicKeySec1

/-- Everything `validate` requires of a chain apart from the time. -/
structure ValidPath (certs : List X509Certificate) : Prop where
  rooted : Rooted (IssuedBy C) HoldsPinnedKey certs
  cas : ∀ i cert, 1 ≤ i → certs[i]? = some cert → IsCa cert
  algorithms : ∀ cert ∈ certs, P256Sha256 C cert

namespace ParsedChain

variable {C}

/-- The terminal certificate, where there is one. -/
theorem root_eq_ok {chain : ParsedChain} {r : X509Certificate} :
    chain.root = .ok r ↔ chain.certs.getLast? = some r := by
  rw [root, index_eq_ok, List.getLast?_eq_getElem?]

theorem leaf_eq_ok {chain : ParsedChain} {l : X509Certificate} :
    chain.leaf = .ok l ↔ chain.certs.head? = some l := by
  rw [leaf, index_eq_ok, List.head?_eq_getElem?]

/-- **Path validation.** A chain validates exactly when it is a valid path and every certificate
is inside its window. -/
theorem validate_eq_ok {chain : ParsedChain} {now : Int} :
    chain.validate C now = .ok () ↔
      ValidPath C chain.certs ∧ ∀ cert ∈ chain.certs, cert.window.Contains now := by
  -- the loop over indices, as a statement about consecutive certificates
  have hlinks {u : Unit} : forM (List.range chain.certs.length) (chain.checkLink C) = .ok u ↔
      ∀ i c, chain.certs[i]? = some c → IssuedBy C c (parentOf chain.certs i c) := by
    simp only [Checks.forM_eq_ok, List.mem_range]
    refine ⟨fun h i c hc => ?_, fun h i hi => ?_⟩
    · exact (checkLink_of_getElem? C hc).mp (h i (List.getElem?_eq_some_iff.mp hc).1)
    · have hc := List.getElem?_eq_getElem hi
      exact (checkLink_of_getElem? C hc).mpr (h i _ hc)
  simp only [validate, Checks.bind_eq_ok, root_eq_ok, rejectIf_eq_ok, not_not, hlinks,
    Checks.forM_eq_ok, checkCert_eq_ok, requireCa_eq_ok,
    forall_mem_drop_zipIdx (P := fun cert _ => IsCa cert)]
  refine ⟨fun h => ?_, fun h => ?_⟩
  · obtain ⟨r, hr, _, hpin, _, hcert, _, hca, hlink⟩ := h
    exact ⟨⟨rooted_iff_index.mpr ⟨⟨r, hr, hpin⟩, hlink⟩, hca, fun c hc => (hcert c hc).2⟩,
      fun c hc => (hcert c hc).1⟩
  · obtain ⟨⟨hroot, hca, halg⟩, hwin⟩ := h
    obtain ⟨⟨r, hr, hpin⟩, hlink⟩ := rooted_iff_index.mp hroot
    exact ⟨r, hr, (), hpin, (), fun c hc => ⟨hwin c hc, halg c hc⟩, (), hca, hlink⟩

theorem validate_rejectsIn {chain : ParsedChain} {now : Int} (h : chain.certs ≠ []) :
    RejectsIn [.rootCaUntrusted, .certOrCrlTimeInvalid] (chain.validate C now) := by
  have hroot : chain.root = .ok (chain.certs.getLast h) :=
    root_eq_ok.mpr (List.getLast?_eq_some_getLast h)
  rw [validate, hroot, Checks.ok_bind]
  refine .bind (.rejectIf (by simp)) fun _ _ => .bind (.forM fun c _ => checkCert_rejectsIn C _ _ _)
    fun _ _ => .bind (.forM fun x _ => (requireCa_rejectsIn _ _ _).mono (by simp)) fun _ _ =>
    .forM fun i hi => ?_
  exact (checkLink_rejectsIn C (List.mem_range.mp hi)).mono (by simp)

end ParsedChain

/-! ## Trust -/

/--
`cert` is vouched for by the pinned root key.

Either it holds that key, or a vouched-for certificate that is a CA issued it.
-/
inductive Vouched : X509Certificate → Prop where
  | pinned {cert : X509Certificate} : HoldsPinnedKey cert → Vouched cert
  | issued {child parent : X509Certificate} : Vouched parent → IsCa parent →
      IssuedBy C child parent → Vouched child

/-- **Every certificate of a valid path is vouched for.** -/
theorem ValidPath.vouched {C : Crates} : ∀ {certs : List X509Certificate}, ValidPath C certs →
    ∀ cert ∈ certs, Vouched C cert
  | [], _, cert, hm => by cases hm
  | [r], h, cert, hm => by
      obtain rfl := List.mem_singleton.mp hm
      obtain ⟨_, hr, hpin, _⟩ := h.rooted.exists_anchor
      cases hr
      exact .pinned hpin
  | c :: p :: rest, h, cert, hm => by
      obtain ⟨hcp, hrest⟩ := rooted_cons_cons.mp h.rooted
      have hpath : ValidPath C (p :: rest) :=
        ⟨hrest, fun i x _ hx => h.cas (i + 1) x (by omega) hx,
          fun x hx => h.algorithms x (List.mem_cons_of_mem _ hx)⟩
      have ih := ValidPath.vouched hpath
      rcases List.mem_cons.mp hm with rfl | hm
      · exact .issued (ih p (List.mem_cons_self ..)) (h.cas 1 p le_rfl rfl) hcp
      · exact ih cert hm

end DcapVerify
