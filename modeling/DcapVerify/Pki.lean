import DcapVerify.Crates
import DcapVerify.Types.Quote

/-!
# Certificate chains, CRLs and the SGX extension

`pki.rs`. The trust anchor is the constant the crate ships; the test-only override
is not compiled into any artifact and is left out.
-/

namespace DcapVerify

def intelQeVendorId : U8Array 16 :=
  ⟨[0x93, 0x9a, 0x72, 0x33, 0xf7, 0x9c, 0x4c, 0xa9, 0x94, 0x0a, 0x0d, 0xb3, 0x95, 0x7f, 0x06, 0x07],
    rfl⟩

/-- Subject common name of Intel's dedicated collateral-signing certificate. -/
def intelTcbSigningCn : String := "Intel SGX TCB Signing"

def maxChainLen : Nat := 10

def maxChainPemLen : Nat := 64 * 1024

/-- Uncompressed P-256 point of the Intel SGX Provisioning Certification Root CA key. -/
def intelSgxRootCaPublicKeySec1 : Bytes :=
  [0x04, 0x0b, 0xa9, 0xc4, 0xc0, 0xc0, 0xc8, 0x61, 0x93, 0xa3, 0xfe, 0x23, 0xd6, 0xb0, 0x2c, 0xda,
   0x10, 0xa8, 0xbb, 0xd4, 0xe8, 0x8e, 0x48, 0xb4, 0x45, 0x85, 0x61, 0xa3, 0x6e, 0x70, 0x55, 0x25,
   0xf5, 0x67, 0x91, 0x8e, 0x2e, 0xdc, 0x88, 0xe4, 0x0d, 0x86, 0x0b, 0xd0, 0xcc, 0x4e, 0xe2, 0x6a,
   0xac, 0xc9, 0x88, 0xe5, 0x05, 0xa9, 0x53, 0x55, 0x8c, 0x45, 0x3f, 0x6b, 0x09, 0x04, 0xae, 0x73,
   0x94]

def sgxPckExtensionOid : String := "1.2.840.113741.1.13.1"

variable (C : Crates)

/-- The pinned key, decoded. The crate calls `expect` on the decoding of its own constant. -/
def pinnedRootKey : Outcome C.VerifyingKey :=
  match C.fromSec1Bytes intelSgxRootCaPublicKeySec1 with
  | .ok key => .ok key
  | .error _ => .error (.panic "embedded Intel SGX Root CA key must be a valid P-256 point")

inductive ChainKind where
  | tcbInfoIssuer
  | pckCrlIssuer
  | qeIdentityIssuer
  | quotePck
  deriving DecidableEq, Repr

def ChainKind.label : ChainKind → String
  | .tcbInfoIssuer => "TCB info issuer chain"
  | .pckCrlIssuer => "PCK CRL issuer chain"
  | .qeIdentityIssuer => "QE identity issuer chain"
  | .quotePck => "PCK chain embedded in the quote"

def ChainKind.parseError (kind : ChainKind) (detail : String) : VerifyError :=
  let msg := s!"{kind.label}: {detail}"
  match kind with
  | .quotePck => ⟨.quoteParse, msg⟩
  | _ => ⟨.collateralParse, msg⟩

/-- A PEM certificate chain with its DER bytes. -/
structure CertChain where
  kind : ChainKind
  ders : List Bytes

/-- A certificate chain decoded once. -/
structure ParsedChain where
  kind : ChainKind
  certs : List X509Certificate

/-! ## Trimming -/

def isAsciiWhitespace (b : UInt8) : Bool := b == 32 || b == 9 || b == 10 || b == 12 || b == 13

/-- The `while` loop of `trim_trailing_junk`, from `end` downwards. -/
def trimEnd (data : Bytes) : Nat → Outcome Nat
  | 0 => .ok 0
  | e + 1 => do
      let b ← index data e
      if b == 0 || isAsciiWhitespace b then trimEnd data e else .ok (e + 1)

def trimTrailingJunk (data : Bytes) : Outcome Bytes := do
  sliceTo data (← trimEnd data data.length)

/-- The `while` loop of `normalized_serial`. -/
def skipLeadingZeros : Bytes → Outcome Bytes
  | [] => .ok []
  | b :: tail => do
      let first ← index (b :: tail) 0
      if first == 0 then
        let _ ← sliceFrom (b :: tail) 1
        skipLeadingZeros tail
      else .ok (b :: tail)

def normalizedSerial (raw : Bytes) : Outcome Bytes := do
  let stripped ← skipLeadingZeros raw
  if stripped.isEmpty then pure [0] else pure stripped

/-! ## Chains -/

def CertChain.fromPem (kind : ChainKind) (data : Bytes) : Outcome CertChain := do
  rejectIf (data.length > maxChainPemLen) (kind.parseError
    s!"chain is {data.length} bytes, more than the accepted maximum of {maxChainPemLen}")
  let trimmed ← trimTrailingJunk data
  let blocks ← orReject (C.pemParseMany trimmed) fun e =>
    kind.parseError s!"PEM decoding failed: {e}"
  let ders := (blocks.filter fun b => b.tag == "CERTIFICATE").map Pem.contents
  rejectIf (ders = []) (kind.parseError "no certificates present")
  rejectIf (ders.length > maxChainLen) (kind.parseError
    s!"chain holds {ders.length} certificates, more than the accepted maximum of {maxChainLen}")
  pure { kind, ders }

/-- Decode every certificate in the chain a single time. -/
def CertChain.parse (chain : CertChain) : Outcome ParsedChain := do
  let certs ← chain.ders.zipIdx.mapM fun (der, i) =>
    orReject (C.certificateFromDer der) fun e =>
      chain.kind.parseError s!"certificate {i} is not valid DER: {e}"
  pure { kind := chain.kind, certs }

def requireCa (label : String) (i : Nat) (cert : X509Certificate) : Outcome Unit := do
  let subject := cert.subject.display
  let bc ← orReject cert.basicConstraints fun e => ⟨.rootCaUntrusted,
    s!"{label}: certificate {i} ('{subject}') has an unparseable basicConstraints extension: {e}"⟩
  let bc ← okOrReject bc ⟨.rootCaUntrusted,
    s!"{label}: issuer certificate {i} ('{subject}') lacks a basicConstraints extension"⟩
  rejectIf (bc.ca = false) ⟨.rootCaUntrusted,
    s!"{label}: certificate {i} ('{subject}') is used as an issuer but is not a CA " ++
    "(basicConstraints cA=false)"⟩
  let keyUsage ← orReject cert.keyUsage fun e => ⟨.rootCaUntrusted,
    s!"{label}: certificate {i} ('{subject}') has an unparseable keyUsage extension: {e}"⟩
  -- keyUsage is enforced only where present
  rejectIf (∃ ku ∈ keyUsage, ku.keyCertSign = false) ⟨.rootCaUntrusted,
    s!"{label}: issuer certificate {i} ('{subject}') keyUsage does not permit keyCertSign"⟩

def checkP256Sha256Algs (label : String) (cert : X509Certificate) : Outcome Unit := do
  let subject := cert.subject.display
  rejectIf (cert.signatureAlgorithm ≠ cert.tbsSignature) ⟨.rootCaUntrusted,
    s!"{label}: '{subject}' declares an outer signatureAlgorithm that differs from the signed " ++
    "tbsCertificate.signature field"⟩
  rejectIf (cert.signatureAlgorithm.algorithm ≠ oidSigEcdsaWithSha256) ⟨.rootCaUntrusted,
    s!"{label}: '{subject}' is signed with algorithm " ++
    s!"{cert.signatureAlgorithm.algorithm.toIdString} instead of ECDSA-with-SHA256"⟩
  let spkiAlg := cert.publicKey.algorithm
  rejectIf (spkiAlg.algorithm ≠ oidKeyTypeEcPublicKey) ⟨.rootCaUntrusted,
    s!"{label}: '{subject}' holds a non-EC public key ({spkiAlg.algorithm.toIdString})"⟩
  let curve ← okOrReject (spkiAlg.parameters.bind C.anyAsOid) ⟨.rootCaUntrusted,
    s!"{label}: '{subject}' does not name an EC curve in its key parameters"⟩
  rejectIf (curve ≠ oidEcP256) ⟨.rootCaUntrusted,
    s!"{label}: '{subject}' uses curve {curve.toIdString} instead of P-256"⟩

def spkiVerifyingKey (label : String) (cert : X509Certificate) : Outcome C.VerifyingKey :=
  orReject (C.fromSec1Bytes cert.publicKey.subjectPublicKey) fun e => ⟨.rootCaUntrusted,
    s!"{label}: public key of '{cert.subject.display}' is not a usable P-256 point: {e}"⟩

namespace ParsedChain

def leaf (chain : ParsedChain) : Outcome X509Certificate := index chain.certs 0

def root (chain : ParsedChain) : Outcome X509Certificate :=
  index chain.certs (chain.certs.length - 1)

/-- One round of the loop over `0..self.certs.len()` in `validate`. -/
def checkLink (chain : ParsedChain) (i : Nat) : Outcome Unit := do
  let label := chain.kind.label
  let child ← index chain.certs i
  -- the terminal certificate is its own parent
  let parent := chain.certs[i + 1]?.getD child
  rejectIf (child.issuer.asRaw ≠ parent.subject.asRaw) ⟨.rootCaUntrusted,
    s!"{label}: certificate {i} ('{child.subject.display}') was not issued by the next " ++
    s!"certificate in the chain ('{parent.subject.display}')"⟩
  let issuerKey ← spkiVerifyingKey C label parent
  let sig ← orReject (C.signatureFromDer child.signatureValue) fun e => ⟨.rootCaUntrusted,
    s!"{label}: certificate {i} carries an undecodable signature: {e}"⟩
  rejectIf (C.verify issuerKey child.tbsCertificate sig = false) ⟨.rootCaUntrusted,
    s!"{label}: signature on certificate {i} ('{child.subject.display}') does not verify " ++
    "against its issuer"⟩

/-- One round of the loop over the certificates in `validate`. -/
def checkCert (label : String) (now : Int) (cert : X509Certificate) : Outcome Unit := do
  let subject := cert.subject.display
  let notBefore := cert.validity.notBefore
  let notAfter := cert.validity.notAfter
  rejectIf (now < notBefore ∨ now ≥ notAfter) ⟨.certOrCrlTimeInvalid,
    s!"{label}: '{subject}' is valid from unix {notBefore} until unix {notAfter}, " ++
    s!"verification time is {now}"⟩
  checkP256Sha256Algs C label cert

/-- Path validation to the pinned Intel SGX Root CA. -/
def validate (chain : ParsedChain) (now : Int) : Outcome Unit := do
  let label := chain.kind.label
  let root ← chain.root
  rejectIf (root.publicKey.subjectPublicKey ≠ intelSgxRootCaPublicKeySec1) ⟨.rootCaUntrusted,
    s!"{label}: terminal certificate '{root.subject.display}' does not hold the pinned Intel " ++
    "SGX Root CA key"⟩
  forM chain.certs (checkCert C label now)
  -- `iter().enumerate().skip(1)`
  forM (chain.certs.zipIdx.drop 1) fun (cert, i) => requireCa label i cert
  forM (List.range chain.certs.length) (chain.checkLink C)

def leafVerifyingKey (chain : ParsedChain) : Outcome C.VerifyingKey := do
  spkiVerifyingKey C chain.kind.label (← chain.leaf)

def leafSubjectRaw (chain : ParsedChain) : Outcome Bytes := do
  pure (← chain.leaf).subject.asRaw

def leafIssuerRaw (chain : ParsedChain) : Outcome Bytes := do
  pure (← chain.leaf).issuer.asRaw

def rootSubjectRaw (chain : ParsedChain) : Outcome Bytes := do
  pure (← chain.root).subject.asRaw

/-- The first common name, if it reads as a string. -/
def leafCommonName (chain : ParsedChain) : Outcome String := do
  let leaf ← chain.leaf
  okOrReject (leaf.subject.commonNames.head?.bind Except.toOption)
    (chain.kind.parseError "leaf certificate has no readable common name")

end ParsedChain

/-! ## Revocation -/

structure RevokedEntry where
  issuerRaw : Bytes
  serial : Bytes
  deriving DecidableEq

/-- The decoding steps at the head of `check_crl`. -/
def decodeCrl (label : String) (pemData : Bytes) : Outcome CertificateRevocationList := do
  let trimmed ← trimTrailingJunk pemData
  let blocks ← orReject (C.pemParseMany trimmed) fun e =>
    ⟨.crlInvalid, s!"{label}: PEM decoding failed: {e}"⟩
  let block ← okOrReject (blocks.find? fun b => strContains b.tag "CRL")
    ⟨.crlInvalid, s!"{label}: no CRL block present"⟩
  orReject (C.crlFromDer block.contents) fun e => ⟨.crlInvalid, s!"{label}: not valid DER: {e}"⟩

/-- `if let Some(next_update) = crl.next_update()` in `check_crl`. -/
def checkCrlNextUpdate (label : String) (nextUpdate : Option Int) (now : Int) : Outcome Unit :=
  match nextUpdate with
  | some nextUpdate => rejectIf (now ≥ nextUpdate) ⟨.certOrCrlTimeInvalid,
      s!"{label}: superseded at unix {nextUpdate}, verification time is {now}"⟩
  | none => .ok ()

def checkCrl (label : String) (pemData expectedIssuerRaw : Bytes) (issuerKey : C.VerifyingKey)
    (now : Int) : Outcome (List RevokedEntry) := do
  let crl ← decodeCrl C label pemData
  rejectIf (crl.signatureAlgorithm ≠ crl.tbsSignature) ⟨.crlInvalid,
    s!"{label}: declares an outer signatureAlgorithm that differs from the signed " ++
    "tbsCertList.signature field"⟩
  rejectIf (crl.signatureAlgorithm.algorithm ≠ oidSigEcdsaWithSha256) ⟨.crlInvalid,
    s!"{label}: signed with algorithm {crl.signatureAlgorithm.algorithm.toIdString} instead of " ++
    "ECDSA-with-SHA256"⟩
  rejectIf (crl.issuer.asRaw ≠ expectedIssuerRaw) ⟨.crlInvalid,
    s!"{label}: issued by '{crl.issuer.display}', which is not the expected authority"⟩
  let thisUpdate := crl.lastUpdate
  rejectIf (now < thisUpdate) ⟨.certOrCrlTimeInvalid,
    s!"{label}: takes effect at unix {thisUpdate}, verification time is {now}"⟩
  checkCrlNextUpdate label crl.nextUpdate now
  let sig ← orReject (C.signatureFromDer crl.signatureValue) fun e =>
    ⟨.crlInvalid, s!"{label}: undecodable signature: {e}"⟩
  rejectIf (C.verify issuerKey crl.tbsCertList sig = false)
    ⟨.crlInvalid, s!"{label}: signature does not verify against the issuing key"⟩
  crl.revokedCertificates.mapM fun rc => do
    pure { issuerRaw := crl.issuer.asRaw,
           serial := ← normalizedSerial (C.toBytesBe rc.userCertificate) }

def ensureNoneRevoked (chains : List ParsedChain) (revoked : List RevokedEntry) : Outcome Unit :=
  forM chains fun chain => forM chain.certs fun cert => do
    let serial ← normalizedSerial cert.rawSerial
    rejectIf (∃ r ∈ revoked, r.issuerRaw = cert.issuer.asRaw ∧ r.serial = serial) ⟨.crlInvalid,
      s!"{chain.kind.label}: certificate '{cert.subject.display}' (serial " ++
      s!"{C.rawSerialAsString cert.rawSerial}) is revoked by its issuer"⟩

/-! ## The SGX extension of the PCK certificate -/

structure PckPlatformTcb where
  fmspc : U8Array 6
  pceId : U8Array 2
  compSvns : List.Vector UInt32 16
  pcesvn : UInt32
  deriving DecidableEq

/-- `str::strip_prefix`. -/
def stripPrefix (s pre : String) : Option String :=
  (s.toList.dropPrefix? pre.toList).map String.ofList

/-- The value of a string of ASCII digits. -/
def digitsValue : List Char → Nat → Option Nat
  | [], acc => some acc
  | c :: cs, acc => if c.isDigit then digitsValue cs (10 * acc + (c.toNat - 48)) else none

/-- `str::parse::<usize>().ok()`: one leading `+`, then at least one digit, below `2^64`. -/
def parseUsize (s : String) : Option Nat := do
  let digits := match s.toList with
    | '+' :: cs => cs
    | cs => cs
  if digits.isEmpty then none else
    let n ← digitsValue digits 0
    if n < 2 ^ 64 then some n else none

/-- The four mutable slots of `extract_pck_platform_tcb`. -/
structure PckSlots where
  fmspc : Option (U8Array 6) := none
  pceId : Option (U8Array 2) := none
  compSvns : List.Vector (Option UInt32) 16 := List.Vector.replicate 16 none
  pcesvn : Option UInt32 := none

/-- The closure `bad`. -/
def badExtension (what : String) : VerifyError :=
  ⟨.quoteParse, s!"SGX platform extension: {what}"⟩

/-- One round of the inner loop. -/
def tcbEntry (slots : PckSlots) (entry : BerObject) : Outcome PckSlots :=
  match entry.asSequence with
  | .ok (oidObj :: value :: _) =>
      match oidObj.asOid with
      | some oid =>
          match (stripPrefix oid.toIdString "1.2.840.113741.1.13.1.2.").bind parseUsize with
          | some i =>
              -- components are numbered from 1, and 17 is the PCE's SVN
              if 1 ≤ i ∧ i ≤ 16 then do
                let svn ← okOrReject value.asU32
                  (badExtension "a TCB component SVN is not a small integer")
                pure { slots with compSvns := ← setAt slots.compSvns (i - 1) (some svn) }
              else if i = 17 then do
                let svn ← okOrReject value.asU32 (badExtension "PCESVN is not a small integer")
                pure { slots with pcesvn := some svn }
              else pure slots
          | none => pure slots
      | none => pure slots
  | _ => pure slots

/-- One round of the outer loop. -/
def extensionEntry (slots : PckSlots) (entry : BerObject) : Outcome PckSlots :=
  match entry.asSequence with
  | .ok (oidObj :: value :: _) =>
      match oidObj.asOid with
      | some oid =>
          -- an entry of another kind is skipped, a repeated one overwrites
          let suffix := stripPrefix oid.toIdString "1.2.840.113741.1.13.1."
          if suffix = some "3" then do
            let bytes ← okOrReject value.asSlice (badExtension "PCE-ID is not a byte string")
            let pceId ← okOrReject (tryInto 2 bytes) (badExtension "PCE-ID is not 2 bytes")
            pure { slots with pceId := some pceId }
          else if suffix = some "4" then do
            let bytes ← okOrReject value.asSlice (badExtension "FMSPC is not a byte string")
            let fmspc ← okOrReject (tryInto 6 bytes) (badExtension "FMSPC is not 6 bytes")
            pure { slots with fmspc := some fmspc }
          else if suffix = some "2" then do
            let tcbEntries ← orReject value.asSequence fun _ =>
              badExtension "TCB field is not a sequence"
            tcbEntries.foldlM tcbEntry slots
          else pure slots
      | none => pure slots
  | _ => pure slots

def extractPckPlatformTcb (chain : ParsedChain) : Outcome PckPlatformTcb := do
  let leaf ← chain.leaf
  let ext ← okOrReject (leaf.extensions.find? fun e => e.oid.toIdString == sgxPckExtensionOid)
    ⟨.quoteParse, "PCK leaf certificate lacks the SGX platform extension"⟩
  let top ← orReject (C.parseDer ext.value) fun e =>
    ⟨.quoteParse, s!"SGX platform extension is not parseable DER: {e}"⟩
  let entries ← orReject top.asSequence fun e =>
    ⟨.quoteParse, s!"SGX platform extension is not a sequence: {e}"⟩
  let slots ← entries.foldlM extensionEntry {}
  let fmspc ← okOrReject slots.fmspc (badExtension "FMSPC missing")
  let pceId ← okOrReject slots.pceId (badExtension "PCE-ID missing")
  let pcesvn ← okOrReject slots.pcesvn (badExtension "PCESVN missing")
  let compSvns ← slots.compSvns.mmap fun svn =>
    okOrReject svn (badExtension "a TCB component SVN is missing")
  pure { fmspc, pceId, compSvns, pcesvn }

/-! ## Which collateral to fetch -/

/-- Which sibling Intel SGX PCK CA issued a quote's PCK leaf certificate. -/
inductive PckCa where
  | processor
  | platform
  deriving DecidableEq, Repr

def pckProcessorCaCn : String := "Intel SGX PCK Processor CA"

def pckPlatformCaCn : String := "Intel SGX PCK Platform CA"

/-- The `match` on the issuer's common name in `pck_collateral_params`. -/
def pckCaNamed (issuerCn : String) : Outcome PckCa :=
  if issuerCn = pckProcessorCaCn then .ok .processor
  else if issuerCn = pckPlatformCaCn then .ok .platform
  else reject ⟨.quoteParse, s!"PCK leaf issuer CN '{issuerCn}' is not an Intel SGX PCK CA"⟩

/-- The selectors of a collateral fetch. Nothing about the chain is verified here. -/
def pckCollateralParams (quote : SgxQuote) : Outcome (U8Array 6 × PckCa) := do
  let chain ← CertChain.fromPem C .quotePck quote.signature.certData
  let parsed ← chain.parse C
  let fmspc := (← extractPckPlatformTcb C parsed).fmspc
  let leaf ← parsed.leaf
  let issuerCn ← okOrReject (leaf.issuer.commonNames.head?.bind Except.toOption)
    ⟨.quoteParse, "PCK leaf issuer has no readable common name"⟩
  let pckCa ← pckCaNamed issuerCn
  pure (fmspc, pckCa)

end DcapVerify
