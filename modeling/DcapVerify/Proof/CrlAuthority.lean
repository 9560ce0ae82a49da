import DcapVerify.Proof.Acceptance
import DcapVerify.Synthetic

/-!
# Whose key signs the PCK CRL

The key that signs the PCK CRL comes from a chain of the collateral's own choosing,
which is tied to the quote's chain by a name only. So the CRL need not be signed by
the authority that issued the PCK leaf: an authority of the same name will do.

What the CRL's signature says about the issuer is worked out with signature
verification left open: `Crates.withVerify` replaces it and leaves the input as it
is, and `RunVerifies` lists what a run asks of it besides the check on the PCK CRL.
-/

namespace DcapVerify

variable {C : Crates}

/-! ## Signature checks of a run -/

/-- The CRL's signature verifies under the key of `issuer`. -/
def CrlSignedBy (C : Crates) (issuer : X509Certificate) (crl : CertificateRevocationList) : Prop :=
  ∃ key sig, C.fromSec1Bytes issuer.publicKey.subjectPublicKey = .ok key ∧
    C.signatureFromDer crl.signatureValue = .ok sig ∧ C.verify key crl.tbsCertList sig = true

/-- The same primitives with another signature verification. Quantifying over it is what leaves
ECDSA uninterpreted. -/
def Crates.withVerify (C : Crates) (v : C.VerifyingKey → Bytes → C.Signature → Bool) : Crates :=
  { C with verify := v }

/-- The signature checks of a run, all but the one on the PCK CRL. -/
inductive RunVerifies (C : Crates) (i : Input) : C.VerifyingKey → Bytes → C.Signature → Prop where
  | link {kind : ChainKind} {k : Nat} {child : X509Certificate} {key : C.VerifyingKey}
      {sig : C.Signature} : (i.chain C kind).certs[k]? = some child →
      C.fromSec1Bytes
        (Path.parentOf (i.chain C kind).certs k child).publicKey.subjectPublicKey = .ok key →
      C.signatureFromDer child.signatureValue = .ok sig →
      RunVerifies C i key child.tbsCertificate sig
  | rootCrl {crl : CertificateRevocationList} {key : C.VerifyingKey} {sig : C.Signature} :
      pinnedRootKey C = .ok key →
      decodeCrl C "root CA CRL" (asBytes i.collateral.rootCaCrl) = .ok crl →
      C.signatureFromDer crl.signatureValue = .ok sig → RunVerifies C i key crl.tbsCertList sig
  | document {doc : Document} {leaf : X509Certificate} {key : C.VerifyingKey} {sigBytes : Bytes}
      {sig : C.Signature} : (i.chain C doc.chainKind).certs.head? = some leaf →
      C.fromSec1Bytes leaf.publicKey.subjectPublicKey = .ok key →
      C.hexDecode (i.document doc).signatureHex = .ok sigBytes →
      C.signatureFromSlice sigBytes = .ok sig →
      RunVerifies C i key (asBytes (i.document doc).bodyJson) sig
  | qeReport {leaf : X509Certificate} {key : C.VerifyingKey} {sig : C.Signature} :
      (i.chain C .quotePck).certs.head? = some leaf →
      C.fromSec1Bytes leaf.publicKey.subjectPublicKey = .ok key →
      C.signatureFromSlice i.quote.signature.qeReportSignature.toList = .ok sig →
      RunVerifies C i key i.quote.signature.qeReportRaw.toList sig
  | quote {key : C.VerifyingKey} {sig : C.Signature} :
      C.fromSec1Bytes (0x04 :: i.quote.signature.attestationPubKey.toList) = .ok key →
      C.signatureFromSlice i.quote.signature.isvSignature.toList = .ok sig →
      RunVerifies C i key i.quote.signedBytes sig

/-- An authenticated run has made each of its signature checks. -/
theorem Authenticated.verify_of_runVerifies {i : Input} (h : Authenticated C i)
    {key : C.VerifyingKey} {msg : Bytes} {sig : C.Signature} (hrun : RunVerifies C i key msg sig) :
    C.verify key msg sig = true := by
  cases hrun with
  | link hchild hkey hsig =>
      obtain ⟨key', sig', hkey', hsig', hv⟩ :=
        ((Path.rooted_iff_index.mp (h.paths _).rooted).2 _ _ hchild).signature
      rwa [Except.ok.inj (hkey.symm.trans hkey'), Except.ok.inj (hsig.symm.trans hsig')]
  | rootCrl hkey hdec hsig =>
      obtain ⟨crl, hcrl⟩ := h.rootCrl
      obtain ⟨key', _, hkey', _, hvalid⟩ := hcrl.valid
      obtain ⟨sig', hsig', hv⟩ := hvalid.signature
      obtain rfl := Except.ok.inj (hdec.symm.trans hcrl.decoded)
      rwa [Except.ok.inj (hkey.symm.trans hkey'), Except.ok.inj (hsig.symm.trans hsig')]
  | document hleaf hkey hhex hsig =>
      obtain ⟨leaf', key', hleaf', hkey', bytes', sig', hhex', hsig', hv⟩ := h.signatures _
      obtain rfl := Option.some.inj (hleaf.symm.trans hleaf')
      obtain rfl := Except.ok.inj (hhex.symm.trans hhex')
      rwa [Except.ok.inj (hkey.symm.trans hkey'), Except.ok.inj (hsig.symm.trans hsig')]
  | qeReport hleaf hkey hsig =>
      obtain ⟨leaf', key', sig', hleaf', hkey', hsig', hv⟩ := h.qeReportSignature
      obtain rfl := Option.some.inj (hleaf.symm.trans hleaf')
      rwa [Except.ok.inj (hkey.symm.trans hkey'), Except.ok.inj (hsig.symm.trans hsig')]
  | quote hkey hsig =>
      obtain ⟨key', sig', hkey', hsig', hv⟩ := h.quoteSignature
      rwa [Except.ok.inj (hkey.symm.trans hkey'), Except.ok.inj (hsig.symm.trans hsig')]

section

variable {v : C.VerifyingKey → Bytes → C.Signature → Bool} {i : Input}

theorem pinnedRootKey_withVerify : pinnedRootKey (C.withVerify v) = pinnedRootKey C := by
  have hkey : (C.withVerify v).fromSec1Bytes intelSgxRootCaPublicKeySec1 =
    C.fromSec1Bytes intelSgxRootCaPublicKeySec1 := rfl
  cases h : C.fromSec1Bytes intelSgxRootCaPublicKeySec1 with
  | ok key => simp only [pinnedRootKey, hkey, h]; rfl
  | error e => simp only [pinnedRootKey, hkey, h]; rfl

theorem RunVerifies.withVerify {key : C.VerifyingKey} {msg : Bytes} {sig : C.Signature}
    (h : RunVerifies C i key msg sig) : RunVerifies (C.withVerify v) i key msg sig := by
  cases h with
  | link hchild hkey hsig => exact .link hchild hkey hsig
  | rootCrl hkey hdec hsig => exact .rootCrl (pinnedRootKey_withVerify.trans hkey) hdec hsig
  | document hleaf hkey hhex hsig => exact .document hleaf hkey hhex hsig
  | qeReport hleaf hkey hsig => exact .qeReport hleaf hkey hsig
  | quote hkey hsig => exact .quote hkey hsig

/-- A path stays valid where its links still verify. -/
theorem ValidPath.withVerify {kind : ChainKind} (h : ValidPath C (i.chain C kind).certs)
    (hrun : ∀ key msg sig, RunVerifies C i key msg sig → v key msg sig = true) :
    ValidPath (C.withVerify v) (i.chain C kind).certs := by
  obtain ⟨hanchor, hlinks⟩ := Path.rooted_iff_index.mp h.rooted
  have hissued : ∀ k child, (i.chain C kind).certs[k]? = some child →
      IssuedBy (C.withVerify v) child (Path.parentOf (i.chain C kind).certs k child) := by
    intro k child hchild
    obtain ⟨hname, key, sig, hkey, hsig, _⟩ := hlinks k child hchild
    have hv : v key child.tbsCertificate sig = true := hrun _ _ _ (.link hchild hkey hsig)
    exact ⟨hname, key, sig, hkey, hsig, hv⟩
  refine ⟨Path.rooted_iff_index.mpr ⟨hanchor, hissued⟩, h.cas, fun cert hcert => ?_⟩
  obtain ⟨hsigned, halg, hec, hcurve⟩ := h.algorithms cert hcert
  exact ⟨hsigned, halg, hec, hcurve⟩

/-- A CRL stays valid under a key where its signature still verifies. -/
theorem ValidCrl.withVerify {crl : CertificateRevocationList} {name : Bytes}
    {key key' : C.VerifyingKey} (h : ValidCrl C crl name key)
    (hv : ∀ sig, C.signatureFromDer crl.signatureValue = .ok sig →
      v key' crl.tbsCertList sig = true) : ValidCrl (C.withVerify v) crl name key' := by
  obtain ⟨sig, hsig, _⟩ := h.signature
  exact ⟨h.signed, h.ecdsaSha256, h.issuer, sig, hsig, hv sig hsig⟩

/-- Whether an input is authenticated depends on signature verification only through the checks of
its run and the one on its PCK CRL. -/
theorem Authenticated.withVerify (h : Authenticated C i)
    (hrun : ∀ key msg sig, RunVerifies C i key msg sig → v key msg sig = true)
    (hcrl : ∃ crl, PckCrl (C.withVerify v) i crl) : Authenticated (C.withVerify v) i where
  qeVendor := h.qeVendor
  mrenclave := h.mrenclave
  formats := h.formats
  decoded := h.decoded
  paths kind := (h.paths kind).withVerify hrun
  certWindows := h.certWindows
  signingLeaf := h.signingLeaf
  crlScope := h.crlScope
  rootCrl := by
    obtain ⟨crl, hdec, ⟨key, root, hkey, hroot, hvalid⟩, hwin⟩ := h.rootCrl
    exact ⟨crl, hdec, ⟨key, root, pinnedRootKey_withVerify.trans hkey, hroot,
      hvalid.withVerify fun sig hsig => hrun _ _ _ (.rootCrl hkey hdec hsig)⟩, hwin⟩
  pckCrl := hcrl
  noneRevoked := by
    obtain ⟨crl₁, h₁⟩ := h.rootCrl
    obtain ⟨crl₂, h₂⟩ := h.pckCrl
    intro crl hcrl
    rcases hcrl with hc | hc
    · obtain rfl := Except.ok.inj (h₁.decoded.symm.trans hc.decoded)
      exact h.noneRevoked _ (.inl h₁)
    · obtain rfl := Except.ok.inj (h₂.decoded.symm.trans hc.decoded)
      exact h.noneRevoked _ (.inr h₂)
  signatures doc := by
    obtain ⟨leaf, key, hleaf, hkey, bytes, sig, hhex, hsig, _⟩ := h.signatures doc
    have hv := hrun _ _ _ (.document hleaf hkey hhex hsig)
    exact ⟨leaf, key, hleaf, hkey, bytes, sig, hhex, hsig, hv⟩
  tcbInfoId := h.tcbInfoId
  docWindows := h.docWindows
  docRounds := h.docRounds
  qeIdentity := by
    obtain ⟨hid, hsigner, hprod, hmisc, hattr, hlevel⟩ := h.qeIdentity
    exact ⟨hid, hsigner, hprod, hmisc, hattr, hlevel⟩
  qeReportSignature := by
    obtain ⟨leaf, key, sig, hleaf, hkey, hsig, _⟩ := h.qeReportSignature
    have hv := hrun _ _ _ (.qeReport hleaf hkey hsig)
    exact ⟨leaf, key, sig, hleaf, hkey, hsig, hv⟩
  qeBinding := h.qeBinding
  quoteSignature := by
    obtain ⟨key, sig, hkey, hsig, _⟩ := h.quoteSignature
    have hv := hrun _ _ _ (.quote hkey hsig)
    exact ⟨key, sig, hkey, hsig, hv⟩

end

/-! ## Whose key it is -/

/-- The PCK CRL of the collateral is signed by the second certificate of the quote's chain, the one
that issued the PCK leaf. -/
def PckCrlByIssuer (C : Crates) (i : Input) : Prop :=
  ∀ issuer crl, (i.chain C .quotePck).certs[1]? = some issuer →
    decodeCrl C "PCK CRL" (asBytes i.collateral.pckCrl) = .ok crl → CrlSignedBy C issuer crl

/-- The issuer of the PCK leaf and the leaf of the CRL's own chain hold one key. Failing that, the
CRL's signed part and signature are checked once more in the run, under the issuer's key. -/
def TiedToIssuer (C : Crates) (i : Input) : Prop :=
  ∀ issuer, (i.chain C .quotePck).certs[1]? = some issuer →
    (∃ crlLeaf, (i.chain C .pckCrlIssuer).certs.head? = some crlLeaf ∧
      C.fromSec1Bytes crlLeaf.publicKey.subjectPublicKey =
        C.fromSec1Bytes issuer.publicKey.subjectPublicKey) ∨
    ∃ crl key sig, decodeCrl C "PCK CRL" (asBytes i.collateral.pckCrl) = .ok crl ∧
      C.fromSec1Bytes issuer.publicKey.subjectPublicKey = .ok key ∧
      C.signatureFromDer crl.signatureValue = .ok sig ∧ RunVerifies C i key crl.tbsCertList sig

variable {i : Input}

/-- In an authenticated run of a tied input the CRL is the issuer's. -/
theorem Authenticated.pckCrlByIssuer (h : Authenticated C i) (htied : TiedToIssuer C i) :
    PckCrlByIssuer C i := by
  intro issuer crl hissuer hdec
  obtain ⟨crl', hdec', ⟨_, crlLeaf, key, _, hcrlLeaf, hkey, hvalid⟩, _⟩ := h.pckCrl
  obtain rfl := Except.ok.inj (hdec.symm.trans hdec')
  obtain ⟨sig, hsig, hv⟩ := hvalid.signature
  rcases htied issuer hissuer with
    ⟨crlLeaf', hcrlLeaf', hsame⟩ | ⟨crl', key', sig', hdec', hkey', hsig', hrun⟩
  · obtain rfl := Option.some.inj (hcrlLeaf.symm.trans hcrlLeaf')
    exact ⟨key, sig, hsame.symm.trans hkey, hsig, hv⟩
  · obtain rfl := Except.ok.inj (hdec.symm.trans hdec')
    exact ⟨key', sig', hkey', hsig', h.verify_of_runVerifies hrun⟩

theorem TiedToIssuer.withVerify {v : C.VerifyingKey → Bytes → C.Signature → Bool}
    (h : TiedToIssuer C i) : TiedToIssuer (C.withVerify v) i := by
  intro issuer hissuer
  rcases h issuer hissuer with hsame | ⟨crl, key, sig, hdec, hkey, hsig, hrun⟩
  · exact .inl hsame
  · exact .inr ⟨crl, key, sig, hdec, hkey, hsig, hrun.withVerify⟩

/-- Take a run whose issuer key is neither the key of the CRL's chain nor used on the CRL elsewhere.
Then the run does not notice when that key stops verifying the CRL. -/
theorem Authenticated.exists_not_byIssuer (h : Authenticated C i) (htied : ¬ TiedToIssuer C i) :
    ∃ v, Authenticated (C.withVerify v) i ∧ ¬ PckCrlByIssuer (C.withVerify v) i := by
  classical
  simp only [TiedToIssuer, not_forall, not_or, not_exists, not_and] at htied
  obtain ⟨issuer, hissuer, hkeys, hfresh⟩ := htied
  obtain ⟨crl, hdec, ⟨leaf, crlLeaf, key, hleaf, hcrlLeaf, hkey, hvalid⟩, hwin⟩ := h.pckCrl
  obtain ⟨sig, hsig, _⟩ := hvalid.signature
  -- the PCK leaf is signed with the issuer's key, so that key decodes
  have hchild : (i.chain C .quotePck).certs[0]? = some leaf := by rwa [← List.head?_eq_getElem?]
  obtain ⟨issuerKey, _, hissuerKey, _⟩ :=
    ((Path.rooted_iff_index.mp (h.paths .quotePck).rooted).2 0 leaf hchild).signature
  rw [Path.parentOf, hissuer, Option.getD_some] at hissuerKey
  have hne : key ≠ issuerKey := by
    intro hkk
    subst hkk
    exact hkeys crlLeaf hcrlLeaf (hkey.trans hissuerKey.symm)
  -- everything verifies but the CRL under the issuer's key
  refine ⟨fun k m s => decide (¬ (k = issuerKey ∧ m = crl.tbsCertList ∧ s = sig)),
    h.withVerify (fun k m s hrun => ?_) ⟨crl, hdec, ⟨leaf, crlLeaf, key, hleaf, hcrlLeaf, hkey,
      hvalid.withVerify fun s _ => decide_eq_true fun hk => hne hk.1⟩, hwin⟩, fun hby => ?_⟩
  · refine decide_eq_true fun hsame => ?_
    obtain ⟨rfl, rfl, rfl⟩ := hsame
    exact hfresh crl k s hdec hissuerKey hsig hrun
  · obtain ⟨k, s, hk, hs, hv⟩ := hby issuer crl hissuer hdec
    exact of_decide_eq_true hv ⟨Except.ok.inj (hk.symm.trans hissuerKey), rfl,
      Except.ok.inj (hs.symm.trans hsig)⟩

/--
**When the PCK CRL is the issuer's own.**

With signature verification left open, an accepted input has its PCK CRL signed by
the certificate that issued the PCK leaf, however verification behaves, exactly
when it is tied to that certificate by key. The name the source compares does not
enter.
-/
theorem pck_crl_key_iff {currentTime : SystemTime} {collateral : SgxCollateral} {quote : SgxQuote}
    {expectedMrenclave : MREnclave} {floor : UInt32} {r : TcbStanding × SgxReportBody}
    (h : verifyRemoteAttestation C currentTime collateral quote expectedMrenclave floor = .ok r) :
    let i : Input := ⟨currentTime, collateral, quote, expectedMrenclave, floor⟩
    (∀ v r', verifyRemoteAttestation (C.withVerify v) currentTime collateral quote expectedMrenclave
      floor = .ok r' → PckCrlByIssuer (C.withVerify v) i) ↔ TiedToIssuer C i := by
  intro i
  obtain ⟨hauth, hdebug, tcb, htcb, hj, hbody⟩ :=
    Input.verify_eq_ok_iff.mp (show i.verify C = .ok r from h)
  refine ⟨fun hby => ?_, fun htied v r' hr => ?_⟩
  · by_contra htied
    obtain ⟨v, hv, hnot⟩ := hauth.exists_not_byIssuer htied
    have hverdict : Judged (C.withVerify v) i.collateral.tcbInfo.body tcb r.1 :=
      ⟨hj.fmspc, hj.pceId, hj.level⟩
    exact hnot (hby v r (Input.verify_eq_ok_iff.mpr ⟨hv, hdebug, tcb, htcb, hverdict, hbody⟩))
  · have hv := (Input.verify_eq_ok_iff.mp (show i.verify (C.withVerify v) = .ok r' from hr)).1
    exact hv.pckCrlByIssuer htied.withVerify

/-- The honest input is tied, so its PCK CRL is the issuer's however verification behaves. -/
theorem honest_crl_by_issuer :
    let C := Synthetic.crates (Synthetic.registry "UpToDate")
    let i : Input := ⟨Synthetic.currentTime, Synthetic.collateral "UpToDate",
      Synthetic.quote 5 Synthetic.pckChain, Synthetic.mrenclave, 17⟩
    TiedToIssuer C i ∧ ∀ v r', verifyRemoteAttestation (C.withVerify v) i.currentTime i.collateral
      i.quote i.expectedMrenclave i.minTcbEvaluationDataNumber = .ok r' →
        PckCrlByIssuer (C.withVerify v) i := by
  intro C i
  have hkeys : ((i.chain C .pckCrlIssuer).certs.head?.map fun c => c.publicKey.subjectPublicKey) =
      (i.chain C .quotePck).certs[1]?.map fun c => c.publicKey.subjectPublicKey := by decide +kernel
  have htied : TiedToIssuer C i := by
    intro issuer hissuer
    rw [hissuer, Option.map_some] at hkeys
    obtain ⟨crlLeaf, hcrlLeaf, hkey⟩ := Option.map_eq_some_iff.mp hkeys
    exact .inl ⟨crlLeaf, hcrlLeaf, congrArg C.fromSec1Bytes hkey⟩
  exact ⟨htied, (pck_crl_key_iff Synthetic.honest_accepted).mpr htied⟩

/-- **A namesake's CRL is accepted.** The collateral brings the chain and the CRL of another
authority that also calls itself the PCK CA, and the key of the CA that issued the PCK leaf never
signed that CRL. -/
theorem namesake_crl_accepted :
    ¬ ∀ (C : Crates) (currentTime : SystemTime) (collateral : SgxCollateral) (quote : SgxQuote)
        (expectedMrenclave : MREnclave) (floor : UInt32) (r : TcbStanding × SgxReportBody),
      verifyRemoteAttestation C currentTime collateral quote expectedMrenclave floor = .ok r →
      PckCrlByIssuer C ⟨currentTime, collateral, quote, expectedMrenclave, floor⟩ := by
  intro hall
  let C := Synthetic.crates (Synthetic.registry "UpToDate")
  let i : Input := ⟨Synthetic.currentTime,
    { Synthetic.collateral "UpToDate" with pckCrlIssuerChain := "40", pckCrl := "C" },
    Synthetic.quote 5 Synthetic.pckChain, Synthetic.mrenclave, 17⟩
  have haccepted : i.verify C = .ok (.upToDate, Synthetic.report 5 (Synthetic.zeros 64)) := by
    decide +kernel
  have hissuer : ((i.chain C .quotePck).certs[1]?.map fun c => c.publicKey.subjectPublicKey) =
      some Synthetic.pckCa.key := by decide +kernel
  have hparts : (decodeCrl C "PCK CRL" (asBytes i.collateral.pckCrl)).map
      (fun crl => (crl.tbsCertList, crl.signatureValue)) = .ok (asBytes "PCK CA",
        (Synthetic.sign Synthetic.pckCaTwin.key (asBytes "PCK CA")).toList) := by decide +kernel
  obtain ⟨crl, hcrl⟩ := (Input.verify_eq_ok_iff.mp haccepted).1.pckCrl
  obtain ⟨issuer, hsecond, hspki⟩ := Option.map_eq_some_iff.mp hissuer
  obtain ⟨_, _, hk, hs, hv⟩ := hall _ _ _ _ _ _ _ haccepted issuer crl hsecond hcrl.decoded
  have hsigned := Synthetic.eq_sign_of_verify hk hs hv
  rw [hcrl.decoded, Except.map, Except.ok.injEq, Prod.mk.injEq] at hparts
  rw [hparts.1, hparts.2, hspki] at hsigned
  exact absurd hsigned (by decide +kernel)

end DcapVerify
