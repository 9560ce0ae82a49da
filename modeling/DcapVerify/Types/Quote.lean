import DcapVerify.Types.Report

/-!
# The v3 quote

`types/quote.rs`. `SgxQuote.read` takes the caller's cursor and returns it with
the result; only a successful read moves it.
-/

namespace DcapVerify

def quoteSignedLen : Nat := 432

def quoteVersion3 : UInt16 := 3

def attKeyTypeEcdsaP256 : UInt16 := 2

def certDataTypePckChain : UInt16 := 5

structure SgxQuoteHeader where
  version : UInt16
  attKeyType : UInt16
  reserved : UInt32
  qeSvn : UInt16
  pceSvn : UInt16
  qeVendorId : U8Array 16
  userData : U8Array 20
  deriving DecidableEq

structure SgxEcdsaSignature where
  isvSignature : U8Array 64
  attestationPubKey : U8Array 64
  qeReport : SgxReportBody
  qeReportRaw : U8Array 384
  qeReportSignature : U8Array 64
  qeAuthData : Bytes
  certDataType : UInt16
  certData : Bytes
  deriving DecidableEq

structure SgxQuote where
  header : SgxQuoteHeader
  reportBody : SgxReportBody
  signature : SgxEcdsaSignature
  signedBytes : Bytes
  deriving DecidableEq

namespace SgxQuote

open ByteReader

/-- The field reads of `SgxQuote::read_signature`, in order. -/
def readSignatureFields : ByteReader SgxEcdsaSignature := do
  let isvSignature ← array 64 "quote body signature"
  let attestationPubKey ← array 64 "attestation public key"
  let qeReportRaw ← array 384 "QE report"
  let qeReport ← StateT.lift (SgxReportBody.parse qeReportRaw.toList)
  let qeReportSignature ← array 64 "QE report signature"
  let authLen ← u16Le "QE authentication data length"
  let qeAuthData ← take authLen.toNat "QE authentication data"
  let certDataType ← u16Le "certification data type"
  check (rejectIf (certDataType ≠ certDataTypePckChain)
    ⟨.quoteParse, s!"certification data type {certDataType} is not supported; expected an " ++
      s!"embedded PCK chain (type {certDataTypePckChain})"⟩)
  let certLen ← u32Le "certification data length"
  let certData ← take certLen.toNat "certification data"
  pure { isvSignature, attestationPubKey, qeReport, qeReportRaw, qeReportSignature, qeAuthData,
         certDataType, certData }

def readSignature (raw : Bytes) : Outcome SgxEcdsaSignature := do
  let (signature, rest) ← readSignatureFields raw
  rejectIf (rest ≠ []) ⟨.quoteParse,
    s!"signature section declares {rest.length} unconsumed bytes after the certification data"⟩
  pure signature

/-- `input.get(..n)`. -/
def getTo (input : Bytes) (n : Nat) : Option Bytes :=
  if n ≤ input.length then some (input.take n) else none

/-- The body of `SgxQuote::read`, as a reader started on `input`. -/
def readFields (input : Bytes) : ByteReader SgxQuote := do
  let version ← u16Le "quote version"
  check (rejectIf (version ≠ quoteVersion3)
    ⟨.quoteParse, s!"only quote structure version {quoteVersion3} is supported, header says " ++
      s!"{version}"⟩)
  let attKeyType ← u16Le "attestation key type"
  check (rejectIf (attKeyType ≠ attKeyTypeEcdsaP256)
    ⟨.quoteParse, s!"only ECDSA-P256 attestation keys (type {attKeyTypeEcdsaP256}) are " ++
      s!"supported, header says {attKeyType}"⟩)
  let reserved ← u32Le "header reserved field"
  let qeSvn ← u16Le "QE SVN"
  let pceSvn ← u16Le "PCE SVN"
  let qeVendorId ← array 16 "QE vendor id"
  let userData ← array 20 "header user data"
  let body ← take 384 "report body"
  let reportBody ← StateT.lift (SgxReportBody.parse body)
  -- taken from the whole input, not from what has been read
  let signedBytes ← StateT.lift (okOrReject (getTo input quoteSignedLen)
    ⟨.quoteParse, "quote shorter than its signed portion"⟩)
  let sigLen ← u32Le "signature section length"
  let sigRaw ← take sigLen.toNat "signature section"
  let signature ← StateT.lift (readSignature sigRaw)
  pure { header := { version, attKeyType, reserved, qeSvn, pceSvn, qeVendorId, userData },
         reportBody, signature, signedBytes }

/-- The result, and where the cursor is afterwards. -/
def read (bytes : Bytes) : Outcome SgxQuote × Bytes :=
  match readFields bytes bytes with
  | .ok (quote, rest) => (.ok quote, rest)
  | .error e => (.error e, bytes)

end SgxQuote

/-! ## Peeking at raw bytes

Fixed offsets, for use before verification; they prove nothing about authenticity. -/

/-- `bytes.get(lo..hi)`. -/
def getRange (bytes : Bytes) (lo hi : Nat) : Option Bytes :=
  if lo ≤ hi ∧ hi ≤ bytes.length then some ((bytes.drop lo).take (hi - lo)) else none

def peekMrenclaveOffset : Nat := 48 + 64

def peekReportDataOffset : Nat := 48 + 320

def peekMrenclave (quote : Bytes) : Option MREnclave := do
  tryInto 32 (← getRange quote peekMrenclaveOffset (peekMrenclaveOffset + 32))

def peekReportData (quote : Bytes) : Option (U8Array 64) := do
  tryInto 64 (← getRange quote peekReportDataOffset (peekReportDataOffset + 64))

end DcapVerify
