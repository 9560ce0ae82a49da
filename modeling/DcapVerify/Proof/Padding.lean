import DcapVerify.Proof.Acceptance
import DcapVerify.Synthetic

/-!
# Chain validation at every length

`validate` walks a chain four times, and its passes index the chain in three ways: the
last certificate, all but the first, and each with its successor or itself. Read
together they are a condition on the list, at every length from one.

A terminal certificate that is its own parent can be repeated. From two certificates
on, the copies are checked for nothing that the original was not, so neither the
outcome of `validate` nor the verdict of a run depends on how often the chain ends.
-/

namespace DcapVerify

variable {C : Crates}

/-! ## Exactness -/

/-- What `validate` demands, certificate by certificate. -/
structure ChainDemands (C : Crates) (certs : List X509Certificate) (now : Int) : Prop where
  anchor : ∃ root, certs.getLast? = some root ∧
    root.publicKey.subjectPublicKey = intelSgxRootCaPublicKeySec1
  each : ∀ cert ∈ certs, (cert.validity.notBefore ≤ now ∧ now < cert.validity.notAfter) ∧
    P256Sha256 C cert
  issuers : ∀ i cert, 1 ≤ i → certs[i]? = some cert → IsCa cert
  inner : ∀ i child parent, certs[i]? = some child → certs[i + 1]? = some parent →
    IssuedBy C child parent
  terminal : ∀ root, certs.getLast? = some root → IssuedBy C root root

/-- Each certificate and its parent, the terminal one being its own. -/
theorem forall_parentOf_iff {certs : List X509Certificate} :
    (∀ i child, certs[i]? = some child → IssuedBy C child (Path.parentOf certs i child)) ↔
      (∀ i child parent, certs[i]? = some child → certs[i + 1]? = some parent →
        IssuedBy C child parent) ∧
      ∀ root, certs.getLast? = some root → IssuedBy C root root := by
  refine ⟨fun h => ⟨fun i child parent hc hp => ?_, fun root hr => ?_⟩, fun h => ?_⟩
  · have hlink := h i child hc
    rwa [Path.parentOf, hp, Option.getD_some] at hlink
  · rw [List.getLast?_eq_getElem?] at hr
    have hlink := h _ root hr
    have hpast : certs[certs.length - 1 + 1]? = none := List.getElem?_eq_none (by omega)
    rwa [Path.parentOf, hpast, Option.getD_none] at hlink
  · obtain ⟨hinner, hlast⟩ := h
    intro i child hc
    cases hp : certs[i + 1]? with
    | some parent =>
        rw [Path.parentOf, hp, Option.getD_some]
        exact hinner i child parent hc hp
    | none =>
        have hi : i < certs.length := (List.getElem?_eq_some_iff.mp hc).1
        have hend : certs.length ≤ i + 1 := List.getElem?_eq_none_iff.mp hp
        have hidx : i = certs.length - 1 := by omega
        rw [Path.parentOf, hp, Option.getD_none]
        refine hlast child ?_
        rw [List.getLast?_eq_getElem?, ← hidx]
        exact hc

/-- **Validation is exact**, from a single certificate on. -/
theorem validate_exact {chain : ParsedChain} {now : Int} :
    chain.validate C now = .ok () ↔ ChainDemands C chain.certs now := by
  rw [ParsedChain.validate_eq_ok]
  refine ⟨fun h => ?_, fun h => ?_⟩
  · obtain ⟨hpath, hwin⟩ := h
    obtain ⟨hanchor, hlinks⟩ := Path.rooted_iff_index.mp hpath.rooted
    obtain ⟨hinner, hterminal⟩ := forall_parentOf_iff.mp hlinks
    have heach := fun cert hc =>
      And.intro (Window.contains_some.mp (hwin cert hc)) (hpath.algorithms cert hc)
    exact ⟨hanchor, heach, hpath.cas, hinner, hterminal⟩
  · have hlinks := forall_parentOf_iff.mpr ⟨h.inner, h.terminal⟩
    exact ⟨⟨Path.rooted_iff_index.mpr ⟨h.anchor, hlinks⟩, h.issuers, fun c hc => (h.each c hc).2⟩,
      fun c hc => Window.contains_some.mpr (h.each c hc).1⟩

/-! ## Repeating the terminal certificate -/

namespace ParsedChain

/-- The chain with `k` more copies of `r` at its end. -/
def padded (chain : ParsedChain) (r : X509Certificate) (k : Nat) : ParsedChain :=
  { chain with certs := chain.certs ++ List.replicate k r }

variable {chain : ParsedChain} {r : X509Certificate}

theorem leaf_padded (hne : chain.certs ≠ []) (k : Nat) :
    (chain.padded r k).leaf = chain.leaf := by
  have hpos : 0 < chain.certs.length := List.length_pos_iff.mpr hne
  rw [leaf, leaf, index, index, padded, List.getElem?_append_left hpos]

theorem root_padded (hlast : chain.certs.getLast? = some r) (k : Nat) :
    (chain.padded r k).root = chain.root := by
  rw [root_eq_ok.mpr hlast, root_eq_ok, padded, List.getLast?_append, hlast]
  cases k with
  | zero => rfl
  | succ k => simp [List.replicate_succ']

/-- A copy's parent is another copy, or itself. -/
theorem parentOf_padded (hlast : chain.certs.getLast? = some r) {k i : Nat} {c : X509Certificate}
    (hc : chain.certs[i]? = some c) :
    Path.parentOf (chain.padded r k).certs i c = Path.parentOf chain.certs i c := by
  have hi : i < chain.certs.length := (List.getElem?_eq_some_iff.mp hc).1
  rw [Path.parentOf, Path.parentOf, padded]
  by_cases hnext : i + 1 < chain.certs.length
  · rw [List.getElem?_append_left hnext]
  · have hidx : i = chain.certs.length - 1 := by omega
    rw [List.getLast?_eq_getElem?, ← hidx, hc, Option.some.injEq] at hlast
    rw [List.getElem?_append_right (by omega), List.getElem?_replicate,
      List.getElem?_eq_none (by omega), hlast]
    split <;> rfl

theorem parentOf_copy {k i : Nat} (hi : chain.certs.length ≤ i) :
    Path.parentOf (chain.padded r k).certs i r = r := by
  rw [Path.parentOf, padded, List.getElem?_append_right (by omega), List.getElem?_replicate]
  split <;> rfl

/-- The rounds of the link loop on the original certificates are unchanged. -/
theorem checkLink_padded (hlast : chain.certs.getLast? = some r) {k i : Nat}
    (hi : i < chain.certs.length) : (chain.padded r k).checkLink C i = chain.checkLink C i := by
  have hc : chain.certs[i]? = some chain.certs[i] := List.getElem?_eq_getElem hi
  have hidx : index (chain.padded r k).certs i = index chain.certs i := by
    rw [index, index, padded, List.getElem?_append_left hi]
  have hparent := parentOf_padded hlast (k := k) hc
  rw [Path.parentOf, Path.parentOf] at hparent
  rw [checkLink, checkLink, hidx, index_eq_ok.mpr hc, Checks.ok_bind, Checks.ok_bind, hparent]
  rfl

/-- The rounds on the copies ask again for the terminal certificate's own signature. -/
theorem checkLink_copy (hlast : chain.certs.getLast? = some r) {k i : Nat}
    (hlo : chain.certs.length ≤ i) (hhi : i < chain.certs.length + k)
    (hself : chain.checkLink C (chain.certs.length - 1) = .ok ()) :
    (chain.padded r k).checkLink C i = .ok () := by
  have hcopy : (chain.padded r k).certs[i]? = some r := by
    rw [padded, List.getElem?_append_right hlo, List.getElem?_replicate, if_pos (by omega)]
  rw [List.getLast?_eq_getElem?] at hlast
  have hown := (checkLink_of_getElem? C hlast).mp hself
  have hpast : chain.certs[chain.certs.length - 1 + 1]? = none :=
    List.getElem?_eq_none (by omega)
  rw [Path.parentOf, hpast, Option.getD_none] at hown
  rw [checkLink_of_getElem? C hcopy, parentOf_copy hlo]
  exact hown

/-- **The outcome of `validate` does not depend on the copies**, error and all. -/
theorem validate_padded (hlast : chain.certs.getLast? = some r) (htwo : 2 ≤ chain.certs.length)
    (k : Nat) (now : Int) : (chain.padded r k).validate C now = chain.validate C now := by
  have hmem : r ∈ chain.certs := List.mem_of_getLast? hlast
  have hcerts : (chain.padded r k).certs = chain.certs ++ List.replicate k r := rfl
  have hkind : (chain.padded r k).kind = chain.kind := rfl
  -- each certificate on its own
  have heach : forM (chain.padded r k).certs (checkCert C chain.kind.label now) =
      forM chain.certs (checkCert C chain.kind.label now) := by
    refine Checks.forM_append_of_implied fun h y hy => ?_
    rw [List.eq_of_mem_replicate hy]
    exact h r hmem
  -- the issuers: the terminal certificate is one already
  have hissuers : (forM ((chain.padded r k).certs.zipIdx.drop 1) fun x =>
        requireCa chain.kind.label x.2 x.1) =
      forM (chain.certs.zipIdx.drop 1) fun x => requireCa chain.kind.label x.2 x.1 := by
    rw [hcerts, List.zipIdx_append, List.drop_append_of_le_length (by simp; omega)]
    refine Checks.forM_append_of_implied fun h y hy => ?_
    have hca := (Path.forall_mem_drop_zipIdx (P := fun cert i =>
      requireCa chain.kind.label i cert = .ok ())).mp h (chain.certs.length - 1) r (by omega)
      (by rw [← List.getLast?_eq_getElem?]; exact hlast)
    have hy1 : y.1 = r := List.eq_of_mem_replicate (List.fst_mem_of_mem_zipIdx hy)
    rw [hy1]
    exact requireCa_eq_ok.mpr (requireCa_eq_ok.mp hca)
  -- the links
  have hlinks : forM (List.range (chain.padded r k).certs.length)
        ((chain.padded r k).checkLink C) =
      forM (List.range chain.certs.length) (chain.checkLink C) := by
    rw [hcerts, List.length_append, List.length_replicate, List.range_add]
    have hold : forM (List.range chain.certs.length) ((chain.padded r k).checkLink C) =
        forM (List.range chain.certs.length) (chain.checkLink C) :=
      Checks.forM_congr fun i hi => checkLink_padded hlast (List.mem_range.mp hi)
    rw [← hold]
    refine Checks.forM_append_of_implied fun h y hy => ?_
    obtain ⟨j, hj, rfl⟩ := List.mem_map.mp hy
    have hlt : chain.certs.length - 1 < chain.certs.length := by omega
    have hself := h _ (List.mem_range.mpr hlt)
    rw [checkLink_padded hlast hlt] at hself
    exact checkLink_copy hlast (Nat.le_add_right _ _)
      (Nat.add_lt_add_left (List.mem_range.mp hj) _) hself
  rw [validate, validate, root_padded hlast, hkind, heach, hissuers, hlinks]

end ParsedChain

/-- `chain'` is `chain`, or a chain of two or more whose terminal certificate is repeated. -/
def Repeats (chain chain' : ParsedChain) : Prop :=
  chain' = chain ∨ ∃ r k, chain.certs.getLast? = some r ∧ 2 ≤ chain.certs.length ∧
    chain' = chain.padded r k

namespace Repeats

variable {chain chain' : ParsedChain}

theorem kind_eq (h : Repeats chain chain') : chain'.kind = chain.kind := by
  rcases h with rfl | ⟨r, k, _, _, rfl⟩ <;> rfl

theorem leaf_eq (h : Repeats chain chain') : chain'.leaf = chain.leaf := by
  rcases h with rfl | ⟨r, k, _, htwo, rfl⟩
  · rfl
  · exact ParsedChain.leaf_padded (List.length_pos_iff.mp (by omega)) k

theorem root_eq (h : Repeats chain chain') : chain'.root = chain.root := by
  rcases h with rfl | ⟨r, k, hlast, _, rfl⟩
  · rfl
  · exact ParsedChain.root_padded hlast k

theorem validate_eq (h : Repeats chain chain') (now : Int) :
    chain'.validate C now = chain.validate C now := by
  rcases h with rfl | ⟨r, k, hlast, htwo, rfl⟩
  · rfl
  · exact ParsedChain.validate_padded hlast htwo k now

/-- A check made on every certificate is not made in vain on the copies. -/
theorem forM_eq (h : Repeats chain chain') (g : X509Certificate → Outcome Unit) :
    forM chain'.certs g = forM chain.certs g := by
  rcases h with rfl | ⟨r, k, hlast, _, rfl⟩
  · rfl
  · refine Checks.forM_append_of_implied fun hall y hy => ?_
    rw [List.eq_of_mem_replicate hy]
    exact hall r (List.mem_of_getLast? hlast)

theorem leafVerifyingKey_eq (h : Repeats chain chain') :
    chain'.leafVerifyingKey C = chain.leafVerifyingKey C := by
  rw [ParsedChain.leafVerifyingKey, ParsedChain.leafVerifyingKey, h.leaf_eq, h.kind_eq]

theorem leafSubjectRaw_eq (h : Repeats chain chain') :
    chain'.leafSubjectRaw = chain.leafSubjectRaw := by
  rw [ParsedChain.leafSubjectRaw, ParsedChain.leafSubjectRaw, h.leaf_eq]

theorem leafIssuerRaw_eq (h : Repeats chain chain') :
    chain'.leafIssuerRaw = chain.leafIssuerRaw := by
  rw [ParsedChain.leafIssuerRaw, ParsedChain.leafIssuerRaw, h.leaf_eq]

theorem rootSubjectRaw_eq (h : Repeats chain chain') :
    chain'.rootSubjectRaw = chain.rootSubjectRaw := by
  rw [ParsedChain.rootSubjectRaw, ParsedChain.rootSubjectRaw, h.root_eq]

theorem leafCommonName_eq (h : Repeats chain chain') :
    chain'.leafCommonName = chain.leafCommonName := by
  rw [ParsedChain.leafCommonName, ParsedChain.leafCommonName, h.leaf_eq, h.kind_eq]

theorem extractPckPlatformTcb_eq (h : Repeats chain chain') :
    extractPckPlatformTcb C chain' = extractPckPlatformTcb C chain := by
  rw [extractPckPlatformTcb, extractPckPlatformTcb, h.leaf_eq]

end Repeats

/-! ## Repeating it in the PEM text -/

variable (C)

/-- The DER of the certificates a PEM text holds. -/
def pemCertificates (data : Bytes) : Except String (List Bytes) :=
  (C.pemParseMany (data.rdropWhile isTrailingJunk)).map fun blocks =>
    (blocks.filter fun b => b.tag == "CERTIFICATE").map Pem.contents

/-- `data'` holds the certificates of `data`, of which there are at least two, and more copies of
the last. Both texts stay within the limits on chains. -/
def RepeatsLast (data data' : Bytes) : Prop :=
  ∃ ders last k, pemCertificates C data = .ok ders ∧ 2 ≤ ders.length ∧
    ders.getLast? = some last ∧ pemCertificates C data' = .ok (ders ++ List.replicate k last) ∧
    data.length ≤ maxChainPemLen ∧ data'.length ≤ maxChainPemLen ∧
    ders.length + k ≤ maxChainLen

variable {C}

theorem fromPem_of_pemCertificates {kind : ChainKind} {data : Bytes} {ders : List Bytes}
    (hders : pemCertificates C data = .ok ders) (hfits : data.length ≤ maxChainPemLen)
    (hne : ders ≠ []) (hcount : ders.length ≤ maxChainLen) :
    CertChain.fromPem C kind data = .ok ⟨kind, ders⟩ := by
  obtain ⟨blocks, hblocks, hd⟩ := Checks.map_eq_ok.mp hders
  rw [CertChain.fromPem, rejectIf, if_neg (not_lt.mpr hfits), Checks.ok_bind, trimTrailingJunk_eq,
    Checks.ok_bind, orReject_eq_ok.mpr hblocks, Checks.ok_bind]
  dsimp only
  rw [hd, rejectIf, if_neg hne, Checks.ok_bind, rejectIf, if_neg (not_lt.mpr hcount)]
  rfl

/-- Decoding goes certificate by certificate, whatever the positions. -/
theorem parse_of_forall₂ {kind : ChainKind} {ders : List Bytes} {certs : List X509Certificate}
    (h : List.Forall₂ (fun der cert => C.certificateFromDer der = .ok cert) ders certs) :
    CertChain.parse C ⟨kind, ders⟩ = .ok ⟨kind, certs⟩ := by
  have hz : List.Forall₂ (fun x cert => C.certificateFromDer (Prod.fst x) = .ok cert)
      ders.zipIdx certs := by
    rw [← List.forall₂_map_left_iff (f := Prod.fst)
      (R := fun der cert => C.certificateFromDer der = .ok cert), List.zipIdx_map_fst]
    exact h
  refine Checks.bind_eq_ok.mpr ⟨certs, ?_, rfl⟩
  exact Checks.mapM_eq_ok.mpr (hz.imp fun _ _ hx => orReject_eq_ok.mpr hx)

theorem forall₂_getLast? {α β : Type} {R : α → β → Prop} {xs : List α} {ys : List β}
    (h : List.Forall₂ R xs ys) {x : α} (hx : xs.getLast? = some x) :
    ∃ y, ys.getLast? = some y ∧ R x y := by
  induction h with
  | nil => cases hx
  | @cons a b as bs hab htail ih =>
      cases htail with
      | nil =>
          cases hx
          exact ⟨b, rfl, hab⟩
      | cons _ _ =>
          rw [List.getLast?_cons_cons] at hx ⊢
          exact ih hx

/-- The copies decode to copies, and nothing new can fail to decode. -/
theorem parse_repeated {kind : ChainKind} {ders : List Bytes} {last : Bytes} {k : Nat}
    (htwo : 2 ≤ ders.length) (hlast : ders.getLast? = some last) :
    (∃ f, CertChain.parse C ⟨kind, ders⟩ = .error f ∧
      CertChain.parse C ⟨kind, ders ++ List.replicate k last⟩ = .error f) ∨
    ∃ chain chain', CertChain.parse C ⟨kind, ders⟩ = .ok chain ∧
      CertChain.parse C ⟨kind, ders ++ List.replicate k last⟩ = .ok chain' ∧
      Repeats chain chain' := by
  cases hparse : CertChain.parse C ⟨kind, ders⟩ with
  | error f =>
      refine .inl ⟨f, rfl, ?_⟩
      rw [CertChain.parse, Checks.bind_eq_error] at hparse ⊢
      rcases hparse with hm | ⟨_, _, hm⟩
      · refine .inl ?_
        dsimp only at hm ⊢
        rw [List.zipIdx_append, List.mapM_append, hm]
        rfl
      · cases hm
  | ok chain =>
      obtain ⟨hkind, hall⟩ := CertChain.parse_eq_ok hparse
      obtain ⟨r, hr, hdecode⟩ := forall₂_getLast? hall hlast
      have hcopies : List.Forall₂ (fun der cert => C.certificateFromDer der = .ok cert)
          (List.replicate k last) (List.replicate k r) := by
        induction k with
        | zero => exact .nil
        | succ k ih => exact .cons hdecode ih
      have hlen : ders.length = chain.certs.length := hall.length_eq
      refine .inr ⟨chain, chain.padded r k, rfl, ?_, .inr ⟨r, k, hr, by omega, rfl⟩⟩
      rw [parse_of_forall₂ (List.rel_append hall hcopies), ParsedChain.padded, hkind]

theorem loadChain_repeated {kind : ChainKind} {data data' : Bytes}
    (h : data' = data ∨ RepeatsLast C data data') :
    (∃ f, loadChain C kind data = .error f ∧ loadChain C kind data' = .error f) ∨
    ∃ chain chain', loadChain C kind data = .ok chain ∧ loadChain C kind data' = .ok chain' ∧
      Repeats chain chain' := by
  rcases h with rfl | ⟨ders, last, k, hders, htwo, hlast, hders', hfits, hfits', hcount⟩
  · cases hload : loadChain C kind data' with
    | error f => exact .inl ⟨f, rfl, rfl⟩
    | ok chain => exact .inr ⟨chain, chain, rfl, rfl, .inl rfl⟩
  · have hne : ders ≠ [] := List.length_pos_iff.mp (by omega)
    have hcount' : (ders ++ List.replicate k last).length ≤ maxChainLen := by
      rwa [List.length_append, List.length_replicate]
    rw [loadChain_of_pem (fromPem_of_pemCertificates hders hfits hne (by omega)),
      loadChain_of_pem (fromPem_of_pemCertificates hders' hfits'
        (List.append_ne_nil_of_left_ne_nil hne _) hcount')]
    exact parse_repeated htwo hlast

/-! ## Repeating it in a run -/

/-- A PEM text for each chain slot. -/
structure ChainTexts where
  tcbInfoIssuer : String
  pckCrlIssuer : String
  qeIdentityIssuer : String
  quotePck : Bytes

def ChainTexts.pem (x : ChainTexts) : ChainKind → Bytes
  | .tcbInfoIssuer => asBytes x.tcbInfoIssuer
  | .pckCrlIssuer => asBytes x.pckCrlIssuer
  | .qeIdentityIssuer => asBytes x.qeIdentityIssuer
  | .quotePck => x.quotePck

namespace Input

/-- The same input with other texts in the chain slots. -/
def withTexts (i : Input) (x : ChainTexts) : Input :=
  { i with
    collateral :=
      { i.collateral with
        tcbInfoIssuerChain := x.tcbInfoIssuer
        pckCrlIssuerChain := x.pckCrlIssuer
        qeIdentityIssuerChain := x.qeIdentityIssuer }
    quote := { i.quote with signature := { i.quote.signature with certData := x.quotePck } } }

theorem chainPem_withTexts (i : Input) (x : ChainTexts) (kind : ChainKind) :
    (i.withTexts x).chainPem kind = x.pem kind := by
  cases kind <;> rfl

theorem document_withTexts (i : Input) (x : ChainTexts) (doc : Document) :
    (i.withTexts x).document doc = i.document doc := by
  cases doc <;> rfl

variable {i : Input} {x : ChainTexts}

theorem loadChain_withTexts {kind : ChainKind}
    (h : x.pem kind = i.chainPem kind ∨ RepeatsLast C (i.chainPem kind) (x.pem kind)) :
    (∃ f, loadChain C kind (i.chainPem kind) = .error f ∧
      loadChain C kind ((i.withTexts x).chainPem kind) = .error f) ∨
    ∃ chain chain', loadChain C kind (i.chainPem kind) = .ok chain ∧
      loadChain C kind ((i.withTexts x).chainPem kind) = .ok chain' ∧ Repeats chain chain' := by
  rw [chainPem_withTexts]
  exact loadChain_repeated h

theorem chain_withTexts {kind : ChainKind}
    (h : x.pem kind = i.chainPem kind ∨ RepeatsLast C (i.chainPem kind) (x.pem kind)) :
    Repeats (i.chain C kind) ((i.withTexts x).chain C kind) := by
  rcases loadChain_withTexts h with ⟨f, hf, hf'⟩ | ⟨chain, chain', hc, hc', hrep⟩
  · rw [Input.chain, Input.chain, hf, hf']
    exact .inl rfl
  · rw [Input.chain_eq C hc, Input.chain_eq C hc']
    exact hrep

variable (h : ∀ kind, x.pem kind = i.chainPem kind ∨
  RepeatsLast C (i.chainPem kind) (x.pem kind))

include h

theorem checkRootCrl_withTexts : (i.withTexts x).checkRootCrl C = i.checkRootCrl C := by
  rw [checkRootCrl, checkRootCrl, (chain_withTexts (h .quotePck)).rootSubjectRaw_eq]
  rfl

theorem checkPckCrl_withTexts : (i.withTexts x).checkPckCrl C = i.checkPckCrl C := by
  rw [checkPckCrl, checkPckCrl, (chain_withTexts (h .quotePck)).leafIssuerRaw_eq,
    (chain_withTexts (h .pckCrlIssuer)).leafVerifyingKey_eq]
  rfl

/-- **No stage notices the copies.** -/
theorem check_withTexts (s : Stage) : Stage.check C s (i.withTexts x) = Stage.check C s i := by
  have hchain (kind : ChainKind) := chain_withTexts (C := C) (h kind)
  cases s with
  | pem kind =>
      rw [Stage.check, Stage.check, chainPem_withTexts]
      rcases h kind with heq |
        ⟨ders, last, k, hders, htwo, hlast, hders', hfits, hfits', hcount⟩
      · rw [heq]
      · have hne : ders ≠ [] := List.length_pos_iff.mp (by omega)
        have hcount' : (ders ++ List.replicate k last).length ≤ maxChainLen := by
          rwa [List.length_append, List.length_replicate]
        rw [fromPem_of_pemCertificates hders hfits hne (by omega),
          fromPem_of_pemCertificates hders' hfits'
            (List.append_ne_nil_of_left_ne_nil hne _) hcount']
        rfl
  | der kind =>
      rw [Stage.check, Stage.check]
      rcases loadChain_withTexts (h kind) with ⟨f, hf, hf'⟩ | ⟨chain, chain', hc, hc', _⟩
      · rw [hf, hf']
      · rw [hc, hc']
        rfl
  | path kind =>
      rw [Stage.check, Stage.check, (hchain kind).validate_eq]
      rfl
  | signingLeaf doc =>
      rw [Stage.check, Stage.check, requireTcbSigningLeaf, requireTcbSigningLeaf,
        (hchain doc.chainKind).leafCommonName_eq]
  | crlScope =>
      rw [Stage.check, Stage.check, (hchain .quotePck).leafIssuerRaw_eq]
      refine bind_congr fun issuer => ?_
      rw [checkCrlScope, checkCrlScope, (hchain .pckCrlIssuer).leafSubjectRaw_eq]
  | rootCrl => rw [Stage.check, Stage.check, checkRootCrl_withTexts h]
  | pckCrl => rw [Stage.check, Stage.check, checkPckCrl_withTexts h]
  | noneRevoked =>
      rw [Stage.check, Stage.check, Input.revoked, Input.revoked, checkRootCrl_withTexts h,
        checkPckCrl_withTexts h]
      simp only [ensureNoneRevoked, Input.chains, List.forM_cons, List.forM_nil,
        (hchain _).forM_eq, (hchain _).kind_eq]
  | signature doc =>
      rw [Stage.check, Stage.check, (hchain doc.chainKind).leafVerifyingKey_eq, document_withTexts]
  | validityWindow doc =>
      rw [Stage.check, Stage.check, document_withTexts]
      rfl
  | evaluationRound doc =>
      rw [Stage.check, Stage.check, document_withTexts]
      rfl
  | qeReportSignature =>
      rw [Stage.check, Stage.check, (hchain .quotePck).leafVerifyingKey_eq]
      rfl
  | _ => rfl

theorem verify_withTexts : (i.withTexts x).verify C = i.verify C := by
  have hrun : Stage.runAll C (i.withTexts x) = Stage.runAll C i := by
    refine Checks.run_congr fun g hg => ?_
    obtain ⟨s, _, rfl⟩ := List.mem_map.mp hg
    exact check_withTexts h s
  have hresult : (i.withTexts x).result C = i.result C := by
    rw [result, result, (chain_withTexts (h .quotePck)).extractPckPlatformTcb_eq]
    rfl
  rw [verify_eq, verify_eq, hrun, hresult]

end Input

/--
**Chain validation is exact at every length, and blind to a repeated terminal certificate.**

Acceptance is `ChainDemands`. From two certificates on, copies of the terminal one
change no outcome of `validate` and nothing the accessors return; and within the two
limits on chains, no run of the verifier either, whichever slots they appear in.
-/
theorem chain_validation_exact (C : Crates) :
    (∀ (chain : ParsedChain) (now : Int),
      chain.validate C now = .ok () ↔ ChainDemands C chain.certs now) ∧
    (∀ (chain : ParsedChain) (r : X509Certificate) (k : Nat), 2 ≤ chain.certs.length →
      chain.certs.getLast? = some r →
      (∀ now, (chain.padded r k).validate C now = chain.validate C now) ∧
        (chain.padded r k).leafVerifyingKey C = chain.leafVerifyingKey C ∧
        (chain.padded r k).leafSubjectRaw = chain.leafSubjectRaw ∧
        (chain.padded r k).leafIssuerRaw = chain.leafIssuerRaw ∧
        (chain.padded r k).rootSubjectRaw = chain.rootSubjectRaw) ∧
    ∀ (i : Input) (x : ChainTexts),
      (∀ kind, x.pem kind = i.chainPem kind ∨ RepeatsLast C (i.chainPem kind) (x.pem kind)) →
      (i.withTexts x).verify C = i.verify C := by
  refine ⟨fun _ _ => validate_exact, fun chain r k htwo hlast => ?_, fun _ _ h =>
    Input.verify_withTexts h⟩
  have hrep : Repeats chain (chain.padded r k) := .inr ⟨r, k, hlast, htwo, rfl⟩
  exact ⟨hrep.validate_eq, hrep.leafVerifyingKey_eq, hrep.leafSubjectRaw_eq, hrep.leafIssuerRaw_eq,
    hrep.rootSubjectRaw_eq⟩

/-- The honest quote with its root embedded three times over is accepted like the original. -/
theorem repeated_root_accepted :
    verifyRemoteAttestation (Synthetic.crates (Synthetic.registry "UpToDate")) Synthetic.currentTime
      (Synthetic.collateral "UpToDate") (Synthetic.quote 5 (asBytes "21000")) Synthetic.mrenclave
      17 = .ok (.upToDate, Synthetic.report 5 (Synthetic.zeros 64)) := by
  let i : Input := ⟨Synthetic.currentTime, Synthetic.collateral "UpToDate",
    Synthetic.quote 5 Synthetic.pckChain, Synthetic.mrenclave, 17⟩
  refine ((chain_validation_exact _).2.2 i ⟨"30", "10", "30", asBytes "21000"⟩ fun kind => ?_).trans
    Synthetic.honest_accepted
  cases kind with
  | quotePck =>
      refine .inr ⟨[[2], [1], [0]], [0], 2, ?_⟩
      decide +kernel
  | _ => exact .inl rfl

end DcapVerify
