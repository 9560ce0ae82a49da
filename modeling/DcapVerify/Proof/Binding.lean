import DcapVerify.Proof.Authentication

/-!
# One QE report, one attestation key

The QE report commits to the attestation key by a hash over the key followed by the auth
data, whose length the quote chooses. Two accepted quotes that carry the same report are
compared here. The key has a fixed width, so equal preimages split at the same place, and
no choice of auth data lets one report vouch for two keys.
-/

namespace DcapVerify

variable (C : Crates)

/-- What the QE report commits to: the attestation key, then the auth data. -/
def bindingPreimage (signature : SgxEcdsaSignature) : Bytes :=
  signature.attestationPubKey.toList ++ signature.qeAuthData

/-- `key` is the decoded attestation key, and the quote's signature verifies under it. -/
structure QuoteSignedBy (key : C.VerifyingKey) (quote : SgxQuote) : Prop where
  decoded : C.fromSec1Bytes (0x04 :: quote.signature.attestationPubKey.toList) = .ok key
  verified : ∃ sig, C.signatureFromSlice quote.signature.isvSignature.toList = .ok sig ∧
    C.verify key quote.signedBytes sig = true

/-- The very bytes the PCK key signed end in the commitment and 32 zeros. -/
structure KeyBound (quote : SgxQuote) : Prop where
  committed : Octets.slice 320 64 quote.signature.qeReportRaw.toList =
    (C.sha256 (bindingPreimage quote.signature)).toList ++ List.replicate 32 0
  signed : ∃ chain leaf key sig, loadChain C .quotePck quote.signature.certData = .ok chain ∧
    chain.certs.head? = some leaf ∧ C.fromSec1Bytes leaf.publicKey.subjectPublicKey = .ok key ∧
    C.signatureFromSlice quote.signature.qeReportSignature.toList = .ok sig ∧
    C.verify key quote.signature.qeReportRaw.toList sig = true

variable {C}

theorem BodyVouched.keyBound {quote : SgxQuote} {now : Int} {body : SgxReportBody}
    (h : BodyVouched C quote now body) : KeyBound C quote := by
  obtain ⟨chain, hload, _, leaf, key, sig, hleaf, hkey, hsig, hverify⟩ := h.chain
  exact ⟨h.binding, chain, leaf, key, sig, hload, hleaf, hkey, hsig, hverify⟩

/-- The key part has a fixed width: a preimage is split in one way. -/
theorem bindingPreimage_injective {signature signature' : SgxEcdsaSignature}
    (h : bindingPreimage signature = bindingPreimage signature') :
    signature.attestationPubKey = signature'.attestationPubKey ∧
      signature.qeAuthData = signature'.qeAuthData := by
  have hwidth : signature.attestationPubKey.toList.length =
      signature'.attestationPubKey.toList.length := by
    rw [List.Vector.toList_length, List.Vector.toList_length]
  obtain ⟨hkey, hauth⟩ := List.append_inj h hwidth
  exact ⟨List.Vector.toList_injective hkey, hauth⟩

/-- The same report commits to one digest. -/
theorem KeyBound.digest_eq {quote quote' : SgxQuote} (h : KeyBound C quote)
    (h' : KeyBound C quote')
    (hraw : quote.signature.qeReportRaw = quote'.signature.qeReportRaw) :
    C.sha256 (bindingPreimage quote.signature) = C.sha256 (bindingPreimage quote'.signature) := by
  have hsame : (C.sha256 (bindingPreimage quote.signature)).toList ++ List.replicate 32 0 =
      (C.sha256 (bindingPreimage quote'.signature)).toList ++ List.replicate 32 0 := by
    rw [← h.committed, ← h'.committed, hraw]
  exact List.Vector.toList_injective (List.append_cancel_right hsame)

/--
**A QE report binds one attestation key.**

Two accepted quotes with the same raw QE report, whatever else the two runs were given:
unless SHA-256 collides on the two preimages, the keys and the auth data are the same,
both quote signatures verify under one decoded key, and each commitment stands in the
bytes that the PCK key signed.
-/
theorem qe_report_binds_one_key {b b' t t' : Bytes} {quote quote' : SgxQuote}
    (hread : SgxQuote.read b = (.ok quote, t)) (hread' : SgxQuote.read b' = (.ok quote', t'))
    (hraw : quote.signature.qeReportRaw = quote'.signature.qeReportRaw)
    {currentTime currentTime' : SystemTime} {collateral collateral' : SgxCollateral}
    {expectedMrenclave expectedMrenclave' : MREnclave} {floor floor' : UInt32}
    {verdict verdict' : TcbStanding × SgxReportBody}
    (h : verifyRemoteAttestation C currentTime collateral quote expectedMrenclave floor =
      .ok verdict)
    (h' : verifyRemoteAttestation C currentTime' collateral' quote' expectedMrenclave' floor' =
      .ok verdict')
    (hsha : C.sha256 (bindingPreimage quote.signature) =
        C.sha256 (bindingPreimage quote'.signature) →
      bindingPreimage quote.signature = bindingPreimage quote'.signature) :
    quote.signature.attestationPubKey = quote'.signature.attestationPubKey ∧
      quote.signature.qeAuthData = quote'.signature.qeAuthData ∧
      (∃ key, QuoteSignedBy C key quote ∧ QuoteSignedBy C key quote') ∧
      KeyBound C quote ∧ KeyBound C quote' := by
  let i : Input := ⟨currentTime, collateral, quote, expectedMrenclave, floor⟩
  let i' : Input := ⟨currentTime', collateral', quote', expectedMrenclave', floor'⟩
  obtain ⟨hauth, _⟩ := Input.verify_eq_ok_iff.mp (show i.verify C = .ok verdict from h)
  obtain ⟨hauth', _⟩ := Input.verify_eq_ok_iff.mp (show i'.verify C = .ok verdict' from h')
  have hvouched := hauth.bodyVouched hread
  have hvouched' := hauth'.bodyVouched hread'
  have hdigest := hvouched.keyBound.digest_eq hvouched'.keyBound hraw
  obtain ⟨hkey, hdata⟩ := bindingPreimage_injective (hsha hdigest)
  obtain ⟨key, sig, hdecoded, hsig, hverify⟩ := hvouched.quoteSignature
  obtain ⟨key', sig', hdecoded', hsig', hverify'⟩ := hvouched'.quoteSignature
  -- one encoding decodes to one key
  obtain rfl : key' = key := by
    have hboth := hdecoded'
    rw [← hkey, hdecoded] at hboth
    exact (Except.ok.inj hboth).symm
  exact ⟨hkey, hdata, ⟨key', ⟨hdecoded, sig, hsig, hverify⟩, ⟨hdecoded', sig', hsig', hverify'⟩⟩,
    hvouched.keyBound, hvouched'.keyBound⟩

/-- Two quotes of one enclave in different modes, verified at different times and floors. -/
theorem honest_quotes_share_key :
    let C := Synthetic.crates (Synthetic.registry "UpToDate")
    (∃ key, QuoteSignedBy C key (Synthetic.quote 5 Synthetic.pckChain) ∧
      QuoteSignedBy C key (Synthetic.quote 1 Synthetic.pckChain)) := by
  have h' : verifyRemoteAttestation (Synthetic.crates (Synthetic.registry "UpToDate"))
      ⟨1600 * 10 ^ 9, by decide⟩ (Synthetic.collateral "UpToDate")
      (Synthetic.quote 1 Synthetic.pckChain) Synthetic.mrenclave 3 =
      .ok (.upToDate, Synthetic.report 1 (Synthetic.zeros 64)) := by
    decide +kernel
  exact (qe_report_binds_one_key Synthetic.honest_read
    (Synthetic.read_encode_quote 1 (by decide)) rfl Synthetic.honest_accepted h' fun _ => rfl).2.2.1

end DcapVerify
