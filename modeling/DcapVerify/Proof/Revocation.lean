import DcapVerify.Lib.Octets
import DcapVerify.Proof.Chains
import DcapVerify.Proof.Pipeline
import DcapVerify.Synthetic

/-!
# Revocation

Two CRLs decide whether a certificate is revoked. The comparison is between octet
strings: on the certificate's side the content of its serial, on the CRL's side a
big integer encoded again. `normalizedSerial` makes the two sides comparable, and
the results here say that it does so exactly, for serials of every length and
padding: two strings match when they denote the same number.
-/

namespace DcapVerify

/-! ## Serials -/

/-- What `normalized_serial` computes: no leading zeros, and one octet for zero. -/
def serialKey (raw : Bytes) : Bytes :=
  if Octets.stripZeros raw = [] then [0] else Octets.stripZeros raw

theorem skipLeadingZeros_eq : ∀ raw : Bytes, skipLeadingZeros raw = .ok (Octets.stripZeros raw)
  | [] => rfl
  | b :: tail => by
      rw [skipLeadingZeros, index_eq_ok.mpr (List.getElem?_cons_zero), Checks.ok_bind,
        Octets.stripZeros]
      by_cases h : b = 0
      · rw [if_pos (beq_iff_eq.mpr h), if_pos h, sliceFrom_of_le (by simp), Checks.ok_bind]
        exact skipLeadingZeros_eq tail
      · rw [if_neg (by simpa using h), if_neg h]

/-- The loop stays in bounds, so normalising never fails. -/
theorem normalizedSerial_eq (raw : Bytes) : normalizedSerial raw = .ok (serialKey raw) := by
  rw [normalizedSerial, skipLeadingZeros_eq, Checks.ok_bind, serialKey]
  by_cases h : Octets.stripZeros raw = []
  · rw [if_pos h, if_pos (List.isEmpty_iff.mpr h)]; rfl
  · rw [if_neg h, if_neg (by simpa using h)]; rfl

/-- **Normalised serials are equal exactly when the numbers are.** -/
theorem serialKey_eq_iff {xs ys : Bytes} :
    serialKey xs = serialKey ys ↔ Octets.beNat xs = Octets.beNat ys := by
  rw [← Octets.stripZeros_eq_iff]
  -- a stripped string is never the single zero octet that stands for zero
  have hzero (zs : Bytes) : Octets.stripZeros zs ≠ [0] := by
    intro h
    have hhead : (Octets.stripZeros zs).head? = some 0 := by rw [h]; rfl
    exact Octets.stripZeros_head hhead rfl
  unfold serialKey
  split <;> split
  · rename_i hx hy; rw [hx, hy]; exact iff_of_true rfl rfl
  · rename_i hx hy; exact iff_of_false (hzero ys).symm fun h => hy (h.symm.trans hx)
  · rename_i hx hy; exact iff_of_false (hzero xs) fun h => hx (h.trans hy)
  · exact Iff.rfl

variable (C : Crates)

/-! ## One CRL -/

theorem decodeCrl_rejectsIn (label : String) (pemData : Bytes) :
    RejectsIn [.crlInvalid] (decodeCrl C label pemData) := by
  rw [decodeCrl, trimTrailingJunk_eq]
  exact .bind (.ok _) fun _ _ => .bind (.orReject fun _ => by simp) fun _ _ =>
    .bind (.okOrReject (by simp)) fun _ _ => .orReject fun _ => by simp

/-- `[thisUpdate, nextUpdate)`, open-ended where there is no `nextUpdate`. -/
def CertificateRevocationList.window (crl : CertificateRevocationList) : Window Int :=
  ⟨crl.lastUpdate, crl.nextUpdate⟩

/-- What `check_crl` requires of a decoded CRL apart from the time. -/
structure ValidCrl (crl : CertificateRevocationList) (issuerRaw : Bytes)
    (issuerKey : C.VerifyingKey) : Prop where
  signed : crl.signatureAlgorithm = crl.tbsSignature
  ecdsaSha256 : crl.signatureAlgorithm.algorithm = oidSigEcdsaWithSha256
  issuer : crl.issuer.asRaw = issuerRaw
  signature : ∃ sig, C.signatureFromDer crl.signatureValue = .ok sig ∧
    C.verify issuerKey crl.tbsCertList sig = true

/-- The entries `check_crl` hands over. -/
def CertificateRevocationList.entries (crl : CertificateRevocationList) : List RevokedEntry :=
  crl.revokedCertificates.map fun rc =>
    { issuerRaw := crl.issuer.asRaw, serial := serialKey (C.toBytesBe rc.userCertificate) }

theorem checkCrlNextUpdate_eq_ok {label : String} {nextUpdate : Option Int} {now : Int} {u : Unit} :
    checkCrlNextUpdate label nextUpdate now = .ok u ↔ ∀ n ∈ nextUpdate, now < n := by
  cases nextUpdate with
  | none => simp [checkCrlNextUpdate]
  | some n => simp [checkCrlNextUpdate]

theorem checkCrlNextUpdate_rejectsIn (label : String) (nextUpdate : Option Int) (now : Int) :
    RejectsIn [.certOrCrlTimeInvalid] (checkCrlNextUpdate label nextUpdate now) := by
  cases nextUpdate with
  | none => exact .ok _
  | some n => exact .rejectIf (by simp)

/-- **`check_crl` accepts exactly the valid CRLs inside their window.** -/
theorem checkCrl_eq_ok {label : String} {pemData issuerRaw : Bytes} {issuerKey : C.VerifyingKey}
    {now : Int} {revoked : List RevokedEntry} :
    checkCrl C label pemData issuerRaw issuerKey now = .ok revoked ↔
      ∃ crl, decodeCrl C label pemData = .ok crl ∧ ValidCrl C crl issuerRaw issuerKey ∧
        crl.window.Contains now ∧ revoked = crl.entries C := by
  -- normalising never fails, so the last loop is a map
  have hentries (crl : CertificateRevocationList) :
      (crl.revokedCertificates.mapM fun rc => do
        pure { issuerRaw := crl.issuer.asRaw,
               serial := ← normalizedSerial (C.toBytesBe rc.userCertificate) }) =
        (.ok (crl.entries C) : Outcome (List RevokedEntry)) := by
    rw [Checks.mapM_eq_ok, CertificateRevocationList.entries, List.forall₂_map_right_iff,
      List.forall₂_same]
    intro rc _
    rw [normalizedSerial_eq, Checks.ok_bind, Checks.pure_eq_ok]
  simp only [checkCrl, hentries, Checks.bind_eq_ok, rejectIf_eq_ok, orReject_eq_ok,
    checkCrlNextUpdate_eq_ok, not_not, not_lt, Bool.not_eq_false, Except.ok.injEq]
  refine ⟨fun h => ?_, fun h => ?_⟩
  · obtain ⟨crl, hcrl, _, hsigned, _, halg, _, hissuer, _, hthis, _, hnext, sig, hsig, _, hver,
      rfl⟩ := h
    exact ⟨crl, hcrl, ⟨hsigned, halg, hissuer, sig, hsig, hver⟩, ⟨hthis, hnext⟩, rfl⟩
  · obtain ⟨crl, hcrl, ⟨hsigned, halg, hissuer, sig, hsig, hver⟩, ⟨hthis, hnext⟩, rfl⟩ := h
    exact ⟨crl, hcrl, (), hsigned, (), halg, (), hissuer, (), hthis, (), hnext, sig, hsig, (), hver,
      rfl⟩

theorem checkCrl_rejectsIn (label : String) (pemData issuerRaw : Bytes)
    (issuerKey : C.VerifyingKey) (now : Int) :
    RejectsIn [.crlInvalid, .certOrCrlTimeInvalid]
      (checkCrl C label pemData issuerRaw issuerKey now) :=
  .bind ((decodeCrl_rejectsIn C label pemData).mono (by simp)) fun _ _ =>
    .bind (.rejectIf (by simp)) fun _ _ => .bind (.rejectIf (by simp)) fun _ _ =>
    .bind (.rejectIf (by simp)) fun _ _ => .bind (.rejectIf (by simp)) fun _ _ =>
    .bind ((checkCrlNextUpdate_rejectsIn _ _ _).mono (by simp)) fun _ _ =>
    .bind (.orReject fun _ => by simp) fun _ _ => .bind (.rejectIf (by simp)) fun _ _ =>
    .mapM fun rc _ => by rw [normalizedSerial_eq]; exact .ok _

/-! ## Matching -/

theorem ensureNoneRevoked_eq_ok {chains : List ParsedChain} {revoked : List RevokedEntry} :
    ensureNoneRevoked C chains revoked = .ok () ↔
      ∀ chain ∈ chains, ∀ cert ∈ chain.certs,
        (⟨cert.issuer.asRaw, serialKey cert.rawSerial⟩ : RevokedEntry) ∉ revoked := by
  simp only [ensureNoneRevoked, Checks.forM_eq_ok, normalizedSerial_eq, Checks.ok_bind,
    rejectIf_eq_ok]
  refine forall₂_congr fun chain _ => forall₂_congr fun cert _ => not_congr ?_
  refine ⟨fun h => ?_, fun h => ⟨_, h, rfl, rfl⟩⟩
  obtain ⟨⟨_, _⟩, hmem, rfl, rfl⟩ := h
  exact hmem

theorem ensureNoneRevoked_rejectsIn (chains : List ParsedChain) (revoked : List RevokedEntry) :
    RejectsIn [.crlInvalid] (ensureNoneRevoked C chains revoked) :=
  .forM fun _ _ => .forM fun _ _ => by
    rw [normalizedSerial_eq]
    exact .bind (.ok _) fun _ _ => .rejectIf (by simp)

/-- `crl` lists `cert`: it speaks for the certificate's issuer, and one of its entries has the
certificate's serial number. -/
def CertificateRevocationList.Lists (crl : CertificateRevocationList) (cert : X509Certificate) :
    Prop :=
  crl.issuer.asRaw = cert.issuer.asRaw ∧
    ∃ rc ∈ crl.revokedCertificates, Octets.beNat rc.rawSerial = Octets.beNat cert.rawSerial

/-- What the X.509 and big-integer crates promise about serials: an entry's number is the unsigned
value of its content octets, and encoding a number gives octets of that value. -/
structure SerialLaws : Prop where
  userCertificate : ∀ der crl, C.crlFromDer der = .ok crl →
    ∀ rc ∈ crl.revokedCertificates, rc.userCertificate = Octets.beNat rc.rawSerial
  toBytesBe : ∀ n, Octets.beNat (C.toBytesBe n) = n

variable {C}

/-- A decoded CRL is a value of the CRL decoder. -/
theorem decodeCrl_eq_ok {label : String} {pemData : Bytes} {crl : CertificateRevocationList}
    (h : decodeCrl C label pemData = .ok crl) : ∃ der, C.crlFromDer der = .ok crl := by
  simp only [decodeCrl, trimTrailingJunk_eq, Checks.ok_bind, Checks.bind_eq_ok, orReject_eq_ok] at h
  obtain ⟨_, _, block, _, hcrl⟩ := h
  exact ⟨block.contents, hcrl⟩

/-- An entry matches a certificate exactly when its CRL lists the certificate. -/
theorem mem_entries_iff (hC : SerialLaws C) {label : String} {pemData : Bytes}
    {crl : CertificateRevocationList} (h : decodeCrl C label pemData = .ok crl)
    {cert : X509Certificate} :
    (⟨cert.issuer.asRaw, serialKey cert.rawSerial⟩ : RevokedEntry) ∈ crl.entries C ↔
      crl.Lists cert := by
  obtain ⟨der, hder⟩ := decodeCrl_eq_ok h
  simp only [CertificateRevocationList.entries, List.mem_map, RevokedEntry.mk.injEq,
    serialKey_eq_iff, hC.toBytesBe, CertificateRevocationList.Lists]
  refine ⟨fun h => ?_, fun h => ?_⟩
  · obtain ⟨rc, hrc, hissuer, hserial⟩ := h
    exact ⟨hissuer, rc, hrc, hC.userCertificate der crl hder rc hrc ▸ hserial⟩
  · obtain ⟨hissuer, rc, hrc, hserial⟩ := h
    exact ⟨rc, hrc, hissuer, (hC.userCertificate der crl hder rc hrc).trans hserial⟩

/-- The entries of two CRLs together, against any chains. -/
theorem ensureNoneRevoked_iff (hC : SerialLaws C) {label₁ label₂ : String} {pem₁ pem₂ : Bytes}
    {crl₁ crl₂ : CertificateRevocationList} (h₁ : decodeCrl C label₁ pem₁ = .ok crl₁)
    (h₂ : decodeCrl C label₂ pem₂ = .ok crl₂) (chains : List ParsedChain) :
    ensureNoneRevoked C chains (crl₁.entries C ++ crl₂.entries C) = .ok () ↔
      ¬ ∃ chain ∈ chains, ∃ cert ∈ chain.certs, ∃ crl ∈ [crl₁, crl₂], crl.Lists cert := by
  simp only [ensureNoneRevoked_eq_ok, List.mem_append, mem_entries_iff hC h₁, mem_entries_iff hC h₂,
    List.mem_cons, List.not_mem_nil, or_false, exists_eq_or_imp, exists_eq_left, not_exists,
    not_and]

/-! ## The two CRLs of a run -/

section

variable (C)

/-- `crl` is the root CA CRL of a run: valid under the pinned key, for the name at the end of the
quote's chain, and in force. -/
structure RootCrl (i : Input) (crl : CertificateRevocationList) : Prop where
  decoded : decodeCrl C "root CA CRL" (asBytes i.collateral.rootCaCrl) = .ok crl
  valid : ∃ key root, pinnedRootKey C = .ok key ∧
    (i.chain C .quotePck).certs.getLast? = some root ∧ ValidCrl C crl root.subject.asRaw key
  window : crl.window.Contains i.now

/-- `crl` is the PCK CRL of a run: valid under the leaf key of the collateral's own chain, for the
issuer name of the quote's leaf, and in force. -/
structure PckCrl (i : Input) (crl : CertificateRevocationList) : Prop where
  decoded : decodeCrl C "PCK CRL" (asBytes i.collateral.pckCrl) = .ok crl
  valid : ∃ leaf crlLeaf key, (i.chain C .quotePck).certs.head? = some leaf ∧
    (i.chain C .pckCrlIssuer).certs.head? = some crlLeaf ∧
    C.fromSec1Bytes crlLeaf.publicKey.subjectPublicKey = .ok key ∧
    ValidCrl C crl leaf.issuer.asRaw key
  window : crl.window.Contains i.now

end

namespace Input

variable {i : Input} {entries : List RevokedEntry}

theorem checkRootCrl_eq_ok :
    i.checkRootCrl C = .ok entries ↔ ∃ crl, RootCrl C i crl ∧ entries = crl.entries C := by
  simp only [checkRootCrl, ParsedChain.rootSubjectRaw, bind_assoc, pure_bind, Checks.bind_eq_ok,
    ParsedChain.root_eq_ok, checkCrl_eq_ok]
  refine ⟨fun h => ?_, fun h => ?_⟩
  · obtain ⟨key, hkey, root, hroot, crl, hdec, hvalid, hwin, he⟩ := h
    exact ⟨crl, ⟨hdec, ⟨key, root, hkey, hroot, hvalid⟩, hwin⟩, he⟩
  · obtain ⟨crl, ⟨hdec, ⟨key, root, hkey, hroot, hvalid⟩, hwin⟩, he⟩ := h
    exact ⟨key, hkey, root, hroot, crl, hdec, hvalid, hwin, he⟩

theorem checkPckCrl_eq_ok :
    i.checkPckCrl C = .ok entries ↔ ∃ crl, PckCrl C i crl ∧ entries = crl.entries C := by
  simp only [checkPckCrl, ParsedChain.leafIssuerRaw, ParsedChain.leafVerifyingKey,
    spkiVerifyingKey, bind_assoc, pure_bind, Checks.bind_eq_ok, ParsedChain.leaf_eq_ok,
    orReject_eq_ok, checkCrl_eq_ok]
  refine ⟨fun h => ?_, fun h => ?_⟩
  · obtain ⟨leaf, hleaf, crlLeaf, hcrlLeaf, key, hkey, crl, hdec, hvalid, hwin, he⟩ := h
    exact ⟨crl, ⟨hdec, ⟨leaf, crlLeaf, key, hleaf, hcrlLeaf, hkey, hvalid⟩, hwin⟩, he⟩
  · obtain ⟨crl, ⟨hdec, ⟨leaf, crlLeaf, key, hleaf, hcrlLeaf, hkey, hvalid⟩, hwin⟩, he⟩ := h
    exact ⟨leaf, hleaf, crlLeaf, hcrlLeaf, key, hkey, crl, hdec, hvalid, hwin, he⟩

/-- What a run revokes is what its two CRLs list. -/
theorem revoked_eq {crl₁ crl₂ : CertificateRevocationList} (h₁ : RootCrl C i crl₁)
    (h₂ : PckCrl C i crl₂) : i.revoked C = crl₁.entries C ++ crl₂.entries C := by
  rw [revoked, checkRootCrl_eq_ok.mpr ⟨crl₁, h₁, rfl⟩, checkPckCrl_eq_ok.mpr ⟨crl₂, h₂, rfl⟩]
  rfl

/-- The stage on the root CA CRL passes exactly when there is one. -/
theorem rootCrl_passes : Stage.check C .rootCrl i = .ok () ↔ ∃ crl, RootCrl C i crl := by
  simp only [Stage.check, Checks.bind_eq_ok, checkRootCrl_eq_ok]
  refine ⟨fun h => ?_, fun h => ?_⟩
  · obtain ⟨_, ⟨crl, h, _⟩, _⟩ := h
    exact ⟨crl, h⟩
  · obtain ⟨crl, h⟩ := h
    exact ⟨_, ⟨crl, h, rfl⟩, rfl⟩

theorem pckCrl_passes : Stage.check C .pckCrl i = .ok () ↔ ∃ crl, PckCrl C i crl := by
  simp only [Stage.check, Checks.bind_eq_ok, checkPckCrl_eq_ok]
  refine ⟨fun h => ?_, fun h => ?_⟩
  · obtain ⟨_, ⟨crl, h, _⟩, _⟩ := h
    exact ⟨crl, h⟩
  · obtain ⟨crl, h⟩ := h
    exact ⟨_, ⟨crl, h, rfl⟩, rfl⟩

/-- **No listed certificate survives**: past the three revocation stages, neither CRL lists any
certificate of any chain. -/
theorem not_lists (hC : SerialLaws C) (hroot : Stage.check C .rootCrl i = .ok ())
    (hpck : Stage.check C .pckCrl i = .ok ()) (hnone : Stage.check C .noneRevoked i = .ok ())
    {kind : ChainKind} {cert : X509Certificate} (hcert : cert ∈ (i.chain C kind).certs)
    {crl : CertificateRevocationList}
    (hcrl : decodeCrl C "root CA CRL" (asBytes i.collateral.rootCaCrl) = .ok crl ∨
      decodeCrl C "PCK CRL" (asBytes i.collateral.pckCrl) = .ok crl) : ¬ crl.Lists cert := by
  obtain ⟨crl₁, h₁⟩ := rootCrl_passes.mp hroot
  obtain ⟨crl₂, h₂⟩ := pckCrl_passes.mp hpck
  rw [Stage.check, revoked_eq h₁ h₂, ensureNoneRevoked_iff hC h₁.decoded h₂.decoded] at hnone
  intro hl
  refine hnone ⟨i.chain C kind, by cases kind <;> simp [chains], cert, hcert, crl, ?_, hl⟩
  rw [h₁.decoded, h₂.decoded, Except.ok.injEq, Except.ok.injEq] at hcrl
  simpa [eq_comm] using hcrl

end Input

/--
**Revocation matching is exact.**

Against two CRLs that passed `check_crl`, four chains get through
`ensure_none_revoked` precisely when no certificate of any of them is listed: same
raw issuer name, same serial number. So a verification never succeeds on a listed
certificate.
-/
theorem revocation_exact (hC : SerialLaws C) :
    (∀ (label₁ label₂ : String) (pem₁ pem₂ issuer₁ issuer₂ : Bytes) (key₁ key₂ : C.VerifyingKey)
        (now₁ now₂ : Int) (crl₁ crl₂ : CertificateRevocationList)
        (revoked₁ revoked₂ : List RevokedEntry),
      decodeCrl C label₁ pem₁ = .ok crl₁ → decodeCrl C label₂ pem₂ = .ok crl₂ →
      checkCrl C label₁ pem₁ issuer₁ key₁ now₁ = .ok revoked₁ →
      checkCrl C label₂ pem₂ issuer₂ key₂ now₂ = .ok revoked₂ →
      ∀ a b c d : ParsedChain,
        ensureNoneRevoked C [a, b, c, d] (revoked₁ ++ revoked₂) = .ok () ↔
          ¬ ∃ chain ∈ [a, b, c, d], ∃ cert ∈ chain.certs, ∃ crl ∈ [crl₁, crl₂],
            crl.Lists cert) ∧
    ∀ (i : Input) (kind : ChainKind) (chain : ParsedChain) (cert : X509Certificate)
        (crl : CertificateRevocationList),
      loadChain C kind (i.chainPem kind) = .ok chain → cert ∈ chain.certs →
      (decodeCrl C "root CA CRL" (asBytes i.collateral.rootCaCrl) = .ok crl ∨
        decodeCrl C "PCK CRL" (asBytes i.collateral.pckCrl) = .ok crl) →
      crl.Lists cert →
      ∀ r, verifyRemoteAttestation C i.currentTime i.collateral i.quote i.expectedMrenclave
        i.minTcbEvaluationDataNumber ≠ .ok r := by
  refine ⟨?_, ?_⟩
  · intro label₁ label₂ pem₁ pem₂ issuer₁ issuer₂ key₁ key₂ now₁ now₂ crl₁ crl₂ revoked₁ revoked₂
      h₁ h₂ hr₁ hr₂ a b c d
    obtain ⟨c₁, hc₁, _, _, rfl⟩ := (checkCrl_eq_ok C).mp hr₁
    obtain ⟨c₂, hc₂, _, _, rfl⟩ := (checkCrl_eq_ok C).mp hr₂
    obtain rfl := Except.ok.inj (h₁.symm.trans hc₁)
    obtain rfl := Except.ok.inj (h₂.symm.trans hc₂)
    exact ensureNoneRevoked_iff hC h₁ h₂ [a, b, c, d]
  · intro i kind chain cert crl hload hcert hcrl hlists r hr
    obtain ⟨hpass, _⟩ := Input.verify_eq_ok.mp (show i.verify C = .ok r from hr)
    rw [← Input.chain_eq C hload] at hcert
    exact Input.not_lists hC (hpass _) (hpass _) (hpass _) hcert hcrl hlists

/-- The synthetic primitives keep their promises about serials. -/
theorem Synthetic.serialLaws (status : String) :
    SerialLaws (Synthetic.crates (Synthetic.registry status)) where
  userCertificate := by
    intro der crl hcrl rc hrc
    have hmem : crl ∈ (Synthetic.registry status).crls := Synthetic.lookup_mem hcrl
    simp only [Synthetic.registry, List.mem_cons, List.not_mem_nil, or_false] at hmem
    rcases hmem with rfl | rfl | rfl | rfl <;>
      · obtain ⟨serial, _, rfl⟩ := List.mem_map.mp hrc
        rfl
  toBytesBe := Synthetic.beNat_toBytesBe

/-- A PCK CRL with the leaf's serial, padded, keeps the honest quote from being accepted. -/
theorem revoked_leaf_rejected :
    ¬ ∃ r, verifyRemoteAttestation (Synthetic.crates (Synthetic.registry "UpToDate"))
      Synthetic.currentTime { Synthetic.collateral "UpToDate" with pckCrl := "D" }
      (Synthetic.quote 5 Synthetic.pckChain) Synthetic.mrenclave 17 = .ok r := by
  rintro ⟨r, hr⟩
  let C := Synthetic.crates (Synthetic.registry "UpToDate")
  let i : Input := ⟨Synthetic.currentTime, { Synthetic.collateral "UpToDate" with pckCrl := "D" },
    Synthetic.quote 5 Synthetic.pckChain, Synthetic.mrenclave, 17⟩
  have hleaf : (loadChain C .quotePck (i.chainPem .quotePck)).map
      (fun chain => chain.certs.head?.map fun c => (c.issuer.asRaw, c.rawSerial)) =
        .ok (some (asBytes "PCK CA", [0x5a, 1])) := by decide +kernel
  have hentries : (decodeCrl C "PCK CRL" (asBytes i.collateral.pckCrl)).map
      (fun crl => (crl.issuer.asRaw, crl.revokedCertificates.map fun rc => rc.rawSerial)) =
        .ok (asBytes "PCK CA", [[0, 0x5a, 1]]) := by decide +kernel
  obtain ⟨chain, hchain, hhead⟩ := Checks.map_eq_ok.mp hleaf
  obtain ⟨crl, hcrl, hparts⟩ := Checks.map_eq_ok.mp hentries
  obtain ⟨leaf, hmem, hserial⟩ := Option.map_eq_some_iff.mp hhead
  rw [Prod.mk.injEq] at hparts hserial
  obtain ⟨rc, hrc, hrcSerial⟩ := List.mem_map.mp (hparts.2 ▸ List.mem_singleton_self _)
  refine (revocation_exact (Synthetic.serialLaws "UpToDate")).2 i .quotePck chain leaf crl hchain
    (List.mem_of_head? hmem) (.inr hcrl) ⟨hparts.1.trans hserial.1.symm, rc, hrc, ?_⟩ r hr
  rw [hrcSerial, hserial.2]
  decide

end DcapVerify
