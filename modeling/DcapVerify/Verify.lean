import DcapVerify.Policy
import DcapVerify.Types.Collateral

/-!
# The verification pipeline

`verify.rs`. The order of the checks is the source's.
-/

namespace DcapVerify

/-- A `SystemTime`, as its offset from the epoch. The distance between two times is a `Duration`,
whose seconds are a `u64`. -/
@[ext]
structure SystemTime where
  nanos : Int
  inRange : nanos.natAbs < 2 ^ 64 * 10 ^ 9

namespace SystemTime

/-- `duration_since(UNIX_EPOCH)` in whole seconds, on the side of the epoch the time is on. -/
def durationSinceEpoch (t : SystemTime) : Except Nat Nat :=
  if 0 ≤ t.nanos then .ok (t.nanos.natAbs / 10 ^ 9) else .error (t.nanos.natAbs / 10 ^ 9)

end SystemTime

def i64Max : Nat := 2 ^ 63 - 1

/-- `i64::try_from(secs).unwrap_or(i64::MAX)`. -/
def i64Saturating (secs : Nat) : Int := if secs ≤ i64Max then secs else i64Max

def unixSeconds (t : SystemTime) : Int :=
  match t.durationSinceEpoch with
  | .ok secs => i64Saturating secs
  | .error secs => -i64Saturating secs

variable (C : Crates)

def checkDocumentFormats (collateral : SgxCollateral) : Outcome Unit := do
  rejectIf (collateral.version ≠ 3) ⟨.collateralParse,
    s!"collateral is version {collateral.version}, only version 3 is supported"⟩
  let tcbVersion := collateral.tcbInfo.body.version
  rejectIf (tcbVersion ≠ 3) ⟨.collateralParse,
    s!"tcbInfo is version {tcbVersion}, only version 3 is supported"⟩
  let qeVersion := collateral.qeIdentity.body.version
  rejectIf (qeVersion ≠ 2) ⟨.collateralParse,
    s!"enclaveIdentity is version {qeVersion}, only version 2 is supported"⟩
  let tcbType := collateral.tcbInfo.body.tcbType
  rejectIf (tcbType ≠ 0) ⟨.collateralParse,
    s!"tcbInfo declares tcbType {tcbType}; only type 0 (the component-wise SVN comparison) is " ++
    "supported"⟩

def requireTcbSigningLeaf (chain : ParsedChain) (document : String) : Outcome Unit := do
  let cn ← chain.leafCommonName
  rejectIf (cn ≠ intelTcbSigningCn) ⟨.rootCaUntrusted,
    s!"{document} is signed by a leaf named '{cn}', not Intel's dedicated '{intelTcbSigningCn}' " ++
    "certificate"⟩

def checkValidityWindow (document : String) (issueDate nextUpdate now : Int)
    (stale : ErrorCategory) : Outcome Unit := do
  -- a document is stale at its `nextUpdate`, and valid from its issue instant
  rejectIf (nextUpdate ≤ now) ⟨stale,
    s!"{document} expired at unix {nextUpdate}, verification time is {now}"⟩
  rejectIf (issueDate > now) ⟨stale,
    s!"{document} is not valid until unix {issueDate}, verification time is {now}"⟩

def checkEvaluationRound (document : String) (round minimum : UInt32) (stale : ErrorCategory) :
    Outcome Unit :=
  rejectIf (round < minimum) ⟨stale,
    s!"{document} is from TCB evaluation round {round}, caller requires at least {minimum}"⟩

/-- The signature check on a document, in the category `.map_err` gives its failures. -/
def verifyRawHexSignature (key : C.VerifyingKey) (message : Bytes) (signatureHex : String)
    (category : ErrorCategory) : Outcome Unit := do
  let sigBytes ← orReject (C.hexDecode signatureHex) fun e =>
    ⟨category, s!"signature is not valid hex: {e}"⟩
  let sig ← orReject (C.signatureFromSlice sigBytes) fun e =>
    ⟨category, s!"signature is not a 64-byte P-256 signature: {e}"⟩
  rejectIf (C.verify key message sig = false)
    ⟨category, "signature does not match the signed document body"⟩

/-! ## The steps written in place in `verify_remote_attestation` -/

def checkQeVendor (quote : SgxQuote) : Outcome Unit :=
  rejectIf (quote.header.qeVendorId ≠ intelQeVendorId) ⟨.qeVendorInvalid,
    s!"quote names QE vendor {C.hexEncode quote.header.qeVendorId.toList}, only Intel's QE " ++
    s!"({C.hexEncode intelQeVendorId.toList}) is accepted"⟩

def checkMrenclave (quote : SgxQuote) (expectedMrenclave : MREnclave) : Outcome Unit :=
  rejectIf (quote.reportBody.mrenclave ≠ expectedMrenclave) ⟨.mrenclaveMismatch,
    s!"report measures {C.hexEncode quote.reportBody.mrenclave.toList}, caller pinned " ++
    s!"{C.hexEncode expectedMrenclave.toList}"⟩

/-- The two names, not the two certificates, are compared. -/
def checkCrlScope (pckCrlChain : ParsedChain) (pckLeafIssuer : Bytes) : Outcome Unit := do
  rejectIf ((← pckCrlChain.leafSubjectRaw) ≠ pckLeafIssuer) ⟨.crlInvalid,
    "PCK CRL issuer chain does not terminate at the CA that issued the quote's PCK certificate"⟩

def checkTcbInfoId (tcbInfo : TcbInfo) : Outcome Unit :=
  rejectIf (tcbInfo.id ≠ "SGX") ⟨.collateralParse,
    s!"TCB info is for '{tcbInfo.id}', expected SGX"⟩

def checkQeReportSignature (pckLeafKey : C.VerifyingKey) (signature : SgxEcdsaSignature) :
    Outcome Unit := do
  let qeReportSig ← orReject (C.signatureFromSlice signature.qeReportSignature.toList)
    fun e => ⟨.qeReportSignatureInvalid, s!"undecodable signature: {e}"⟩
  rejectIf (C.verify pckLeafKey signature.qeReportRaw.toList qeReportSig = false)
    ⟨.qeReportSignatureInvalid, "QE report was not signed by the platform's PCK key"⟩

def checkQeBinding (signature : SgxEcdsaSignature) : Outcome Unit := do
  let binding := C.sha256 (signature.attestationPubKey.toList ++ signature.qeAuthData)
  let qeReportData := signature.qeReport.sgxReportDataBytes.toList
  let head ← sliceTo qeReportData 32
  let tail ← sliceFrom qeReportData 32
  rejectIf (head ≠ binding.toList ∨ tail ≠ List.replicate 32 0) ⟨.qeBindingInvalid,
    "QE report data does not commit to the attestation key and auth data"⟩

def checkQuoteSignature (quote : SgxQuote) : Outcome Unit := do
  let attestationKeyTail ← copyFromSlice 64 quote.signature.attestationPubKey.toList
  let attestationKeySec1 := 0x04 :: attestationKeyTail.toList
  let attestationKey ← orReject (C.fromSec1Bytes attestationKeySec1) fun e =>
    ⟨.quoteSignatureInvalid, s!"attestation public key is not a usable P-256 point: {e}"⟩
  let quoteSig ← orReject (C.signatureFromSlice quote.signature.isvSignature.toList) fun e =>
    ⟨.quoteSignatureInvalid, s!"undecodable signature: {e}"⟩
  rejectIf (C.verify attestationKey quote.signedBytes quoteSig = false) ⟨.quoteSignatureInvalid,
    "quote header and report body were not signed by the attestation key"⟩

def checkDebug (quote : SgxQuote) : Outcome Unit := do
  rejectIf ((← quote.reportBody.isDebug) = true) ⟨.debugEnclaveRejected,
    s!"report attributes {C.hexEncode quote.reportBody.attributes.toList} carry the DEBUG flag"⟩

/-! ## The pipeline -/

/-- Verify a v3 quote against collateral at `currentTime`, pinning `expectedMrenclave`. -/
def verifyRemoteAttestation (currentTime : SystemTime) (collateral : SgxCollateral)
    (quote : SgxQuote) (expectedMrenclave : MREnclave) (minTcbEvaluationDataNumber : UInt32) :
    Outcome (TcbStanding × SgxReportBody) := do
  let now := unixSeconds currentTime
  checkQeVendor C quote
  checkMrenclave C quote expectedMrenclave
  checkDocumentFormats collateral
  -- every PEM text is split before any certificate is decoded
  let tcbInfoChain ← CertChain.fromPem C .tcbInfoIssuer (asBytes collateral.tcbInfoIssuerChain)
  let pckCrlChain ← CertChain.fromPem C .pckCrlIssuer (asBytes collateral.pckCrlIssuerChain)
  let qeIdentityChain ← CertChain.fromPem C .qeIdentityIssuer
    (asBytes collateral.qeIdentityIssuerChain)
  let pckChain ← CertChain.fromPem C .quotePck quote.signature.certData
  let tcbInfoChain ← tcbInfoChain.parse C
  let pckCrlChain ← pckCrlChain.parse C
  let qeIdentityChain ← qeIdentityChain.parse C
  let pckChain ← pckChain.parse C
  let chains := [tcbInfoChain, pckCrlChain, qeIdentityChain, pckChain]
  forM chains fun chain => chain.validate C now
  requireTcbSigningLeaf tcbInfoChain "TCB info"
  requireTcbSigningLeaf qeIdentityChain "QE identity"
  let pckLeafIssuer ← pckChain.leafIssuerRaw
  checkCrlScope pckCrlChain pckLeafIssuer
  -- the root CA CRL is checked under the constant, the PCK CRL under a key of the collateral
  let rootKey ← pinnedRootKey C
  let revoked ← checkCrl C "root CA CRL" (asBytes collateral.rootCaCrl) (← pckChain.rootSubjectRaw)
    rootKey now
  let revokedPck ← checkCrl C "PCK CRL" (asBytes collateral.pckCrl) pckLeafIssuer
    (← pckCrlChain.leafVerifyingKey C) now
  ensureNoneRevoked C chains (revoked ++ revokedPck)
  let tcbInfo := collateral.tcbInfo
  verifyRawHexSignature C (← tcbInfoChain.leafVerifyingKey C) (asBytes tcbInfo.bodyJson)
    tcbInfo.signatureHex .tcbInfoSignatureInvalid
  checkTcbInfoId tcbInfo.body
  checkValidityWindow "TCB info" tcbInfo.body.issueDate tcbInfo.body.nextUpdate now .tcbInfoStale
  checkEvaluationRound "TCB info" tcbInfo.body.tcbEvaluationDataNumber minTcbEvaluationDataNumber
    .tcbInfoStale
  let qeIdentity := collateral.qeIdentity
  verifyRawHexSignature C (← qeIdentityChain.leafVerifyingKey C) (asBytes qeIdentity.bodyJson)
    qeIdentity.signatureHex .qeIdentitySignatureInvalid
  checkValidityWindow "QE identity" qeIdentity.body.issueDate qeIdentity.body.nextUpdate now
    .qeIdentityStale
  checkEvaluationRound "QE identity" qeIdentity.body.tcbEvaluationDataNumber
    minTcbEvaluationDataNumber .qeIdentityStale
  -- the report is matched before its signature is checked
  checkQeIdentity C qeIdentity.body quote.signature.qeReport
  checkQeReportSignature C (← pckChain.leafVerifyingKey C) quote.signature
  checkQeBinding C quote.signature
  checkQuoteSignature C quote
  -- the DEBUG gate stays after the signature and identity checks
  checkDebug C quote
  -- the PCK extension is only read now
  let platformTcb ← extractPckPlatformTcb C pckChain
  let standing ← platformStanding C tcbInfo.body platformTcb
  pure (standing, quote.reportBody)

/-- Verification under a caller's policy. -/
def verifyRemoteAttestationWithPolicy (currentTime : SystemTime) (collateral : SgxCollateral)
    (quote : SgxQuote) (expectedMrenclave : MREnclave) (policy : TcbPolicy) :
    Outcome (TcbStanding × SgxReportBody) := do
  let (standing, reportBody) ← verifyRemoteAttestation C currentTime collateral quote
    expectedMrenclave policy.minTcbEvaluationDataNumber
  policy.check standing
  pure (standing, reportBody)

end DcapVerify
