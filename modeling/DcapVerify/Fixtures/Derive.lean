import DcapVerify.Verify

/-!
# The oracle corpus

`fixtures/tools/derive_fixtures.py`, which makes the corpus's cases out of two captured
ones, `dcap-verify/tests/common/mod.rs`, which loads a case, and
`dcap-verify/tests/fixtures.rs`, which runs it. Of the derived cases those that change
the quote are here: each is a small edit of the base's bytes, written beside the base's
collateral and a record of how the case is to be checked and what must come of it.

What Python refuses with an exception is `none`.
-/

namespace DcapVerify.Fixtures

/-! ## Quote v3 byte offsets -/

def offVersion : Nat := 0
def offAttKeyType : Nat := 2
def offQeVendorId : Nat := 12
def offAttrFlags : Nat := 96
def offSigLen : Nat := 432
def offIsvSig : Nat := 436
def offAttestPubkey : Nat := 500
def offQeReportSig : Nat := 948
def offQeAuthData : Nat := 1014
def offCertDataType : Nat := 1046

/-- `BASE_TIME`, inside the window of the captured collateral. -/
def baseTime : UInt64 := 1783549518

/-! ## Edits -/

/-- `b[off] = f(b[off])`. -/
def update (f : UInt8 → UInt8) (buf : Bytes) (off : Nat) : Option Bytes :=
  buf[off]?.map fun b => buf.set off (f b)

/-- `b[off] ^= 0x01`. -/
def flip (buf : Bytes) (off : Nat) : Option Bytes := update (· ^^^ 0x01) buf off

/-- `b[OFF_ATTR_FLAGS] &= ~0x02`. -/
def clearDebugBit (buf : Bytes) : Option Bytes := update (· &&& ~~~0x02) buf offAttrFlags

/-- `struct.pack_into` of the bytes `field` at `off`. -/
def packInto (buf : Bytes) (off : Nat) (field : Bytes) : Option Bytes :=
  if off + field.length ≤ buf.length then
    some (buf.take off ++ field ++ buf.drop (off + field.length))
  else none

def setU16 (buf : Bytes) (off : Nat) (v : UInt16) : Option Bytes := packInto buf off (le16 v)

/-- `struct.unpack_from("<I", buf, off)`. -/
def unpackU32 (buf : Bytes) (off : Nat) : Option UInt32 := do
  let field ← getRange buf off (off + 4)
  pure (ByteReader.u32FromLeBytes field)

/-- Grow `sig_len` by `n` and insert `n` zero bytes at the end of the signature section. -/
def addSigSlack (buf : Bytes) (n : Nat) : Option Bytes := do
  let sigLen := (← unpackU32 buf offSigLen).toNat
  let fin := offSigLen + 4 + sigLen
  if sigLen + n < 2 ^ 32 then
    let b ← packInto buf offSigLen (le32 (UInt32.ofNat (sigLen + n)))
    -- a slice that starts past the end is empty and at the end
    pure (b.take fin ++ List.replicate n 0 ++ b.drop fin)
  else none

/-! ## The cases that change the quote -/

inductive QuoteCase where
  | qeVendorIdFlip
  | isvSignatureBitflip
  | attestPubkeyBitflip
  | qeReportSignatureBitflip
  | qeAuthDataBitflip
  | attributesDebugBitCleared
  | quoteVersion4
  | quoteAttKeyType1
  | quoteCertDataType1
  | quoteSigSectionSlack
  | quoteTruncated
  deriving DecidableEq, Repr

namespace QuoteCase

/-- What becomes of the base's quote. -/
def derive (dq : Bytes) : QuoteCase → Option Bytes
  | .qeVendorIdFlip => flip dq offQeVendorId
  | .isvSignatureBitflip => flip dq offIsvSig
  | .attestPubkeyBitflip => flip dq offAttestPubkey
  | .qeReportSignatureBitflip => flip dq offQeReportSig
  | .qeAuthDataBitflip => flip dq offQeAuthData
  | .attributesDebugBitCleared => clearDebugBit dq
  | .quoteVersion4 => setU16 dq offVersion 4
  | .quoteAttKeyType1 => setU16 dq offAttKeyType 1
  | .quoteCertDataType1 => setU16 dq offCertDataType 1
  | .quoteSigSectionSlack => addSigSlack dq 4
  | .quoteTruncated => some (dq.take 100)

/-- The category in the case's `meta.json`. -/
def category : QuoteCase → String
  | .qeVendorIdFlip => "qe-vendor-invalid"
  | .isvSignatureBitflip => "quote-signature-invalid"
  | .attestPubkeyBitflip => "qe-binding-invalid"
  | .qeReportSignatureBitflip => "qe-report-signature-invalid"
  | .qeAuthDataBitflip => "qe-binding-invalid"
  | .attributesDebugBitCleared => "quote-signature-invalid"
  | .quoteVersion4 => "quote-parse-error"
  | .quoteAttKeyType1 => "quote-parse-error"
  | .quoteCertDataType1 => "quote-parse-error"
  | .quoteSigSectionSlack => "quote-parse-error"
  | .quoteTruncated => "quote-parse-error"

end QuoteCase

/-! ## Writing a case -/

/-- What `meta.json` says of a case, as far as the loader reads it. A field of another type fails
the loader. -/
structure CaseMeta where
  currentTimeUnix : UInt64
  expectedMrenclaveHex : String
  verdict : String
  category : Option String
  minTcbEvaluationDataNumber : Option UInt64
  deriving DecidableEq, Repr

/-- The three files of a case. -/
structure CaseFiles where
  quote : Bytes
  collateral : Bytes
  metadata : CaseMeta
  deriving DecidableEq, Repr

/-- Python's `bytes.hex()`. -/
def hex (bytes : Bytes) : String :=
  let digit (n : Nat) : Char := Char.ofNat (if n < 10 then 48 + n else 87 + n)
  String.ofList (bytes.flatMap fun b => [digit (b.toNat / 16), digit (b.toNat % 16)])

/-- Every line end becomes a newline; `prev` is the byte before. -/
def universalNewlines (prev : UInt8) : Bytes → Bytes
  | [] => []
  | b :: rest =>
      (if b = 13 then [10] else if b = 10 ∧ prev = 13 then [] else [b]) ++
        universalNewlines b rest

/-- `open(path).read()`: the text, as the bytes that writing it gives. -/
def readText (raw : Bytes) : Option Bytes :=
  if (String.fromUTF8? ⟨raw.toArray⟩).isSome then some (universalNewlines 0 raw) else none

/-- `rej(cat, notes, t, mre, min_eval)`. -/
def rej (cat : String) (t : UInt64) (mre : String) (minEval : UInt64) : CaseMeta where
  currentTimeUnix := t
  expectedMrenclaveHex := mre
  verdict := "reject"
  category := some cat
  minTcbEvaluationDataNumber := if minEval = 0 then none else some minEval

/-- The case as it is written, next to the base it is derived from. -/
def QuoteCase.files (base : CaseFiles) (case : QuoteCase) : Option CaseFiles := do
  let dc ← readText base.collateral
  let dmre := hex (Octets.slice 112 32 base.quote)
  let quote ← case.derive base.quote
  pure ⟨quote, dc, rej case.category baseTime dmre 0⟩

/-! ## Loading a case -/

/-- A case with every input loaded. -/
structure FixtureCase where
  quoteBytes : Bytes
  collateralBytes : Bytes
  mrenclave : MREnclave
  currentTime : SystemTime
  minTcbEvaluationDataNumber : UInt32
  verdict : String
  category : Option String

/-- `.expect(msg)`. -/
def expect {α : Type} (o : Option α) (msg : String) : Outcome α :=
  match o with
  | some a => .ok a
  | none => .error (.panic msg)

/-- `UNIX_EPOCH + Duration::from_secs(secs)`. The seconds of a `SystemTime` are an `i64`. -/
def epochPlus (secs : UInt64) : Option SystemTime :=
  if h : secs.toNat < 2 ^ 63 then some ⟨secs.toNat * 10 ^ 9, by omega⟩ else none

/-- `u32::try_from` of the floor, which is zero where there is none. -/
def floorOf : Option UInt64 → Option UInt32
  | none => some 0
  | some n => if n.toNat < 2 ^ 32 then some n.toUInt32 else none

/-- `load_case`. -/
def loadCase (C : Crates) (files : CaseFiles) : Outcome FixtureCase := do
  let mr ← expect (C.hexDecode files.metadata.expectedMrenclaveHex).toOption
    "expected_mrenclave_hex not hex"
  let mrenclave ← expect (tryInto 32 mr) "expected_mrenclave not 32 bytes"
  let currentTime ← expect (epochPlus files.metadata.currentTimeUnix)
    "overflow when adding duration to instant"
  let minTcbEvaluationDataNumber ← expect (floorOf files.metadata.minTcbEvaluationDataNumber)
    "min_tcb_evaluation_data_number exceeds u32"
  pure ⟨files.quote, files.collateral, mrenclave, currentTime, minTcbEvaluationDataNumber,
    files.metadata.verdict, files.metadata.category⟩

/-! ## Running a case -/

inductive Verdict where
  | accept (standing : TcbStanding)
  | reject (category message : String)
  deriving DecidableEq, Repr

/-- `Display` of a rejection. -/
def errorDisplay (e : VerifyError) : String := s!"[{e.category.asStr}] {e.detail}"

section

variable (C : Crates) (collateralFromSlice : Bytes → Except String SgxCollateral)

/-- `run_case` of the oracle test. A panic fails the test. -/
def runCase (case : FixtureCase) : Outcome Verdict :=
  match collateralFromSlice case.collateralBytes with
  | .error e => .ok (.reject "collateral-parse-error" e)
  | .ok collateral =>
      match (SgxQuote.read case.quoteBytes).1 with
      | .error (.reject e) => .ok (.reject e.category.asStr (errorDisplay e))
      | .error (.panic op) => .error (.panic op)
      | .ok quote =>
          match verifyRemoteAttestation C case.currentTime collateral quote case.mrenclave
              case.minTcbEvaluationDataNumber with
          | .ok (standing, _) => .ok (.accept standing)
          | .error (.reject e) => .ok (.reject e.category.asStr (errorDisplay e))
          | .error (.panic op) => .error (.panic op)

/-- The case is rejected in this category. -/
def RejectedAs (case : FixtureCase) (category : String) : Prop :=
  ∃ message, runCase C collateralFromSlice case = .ok (.reject category message)

/-- The case is recorded as rejected and passes the oracle, which compares the categories. -/
def RejectedAsRecorded (case : FixtureCase) : Prop :=
  case.verdict = "reject" ∧ RejectedAs C collateralFromSlice case (case.category.getD "?")

end

end DcapVerify.Fixtures
