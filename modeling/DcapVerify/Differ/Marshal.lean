import DcapVerify.Differ.Pipeline

/-!
# Handing a case to QVL

The other half of `pipeline.rs`, and `calibrate_cmd`. The collateral file is read twice:
for this crate, which decodes the signed documents, and for QVL, which gets their text.
Both readers are derived from structures with the same fields in the same order, so they
are one definition with two pairs of decoders.
-/

namespace DcapVerify.Differ

/-! ## Reading the file -/

/-- A JSON value, as it is presented to a derived reader. -/
inductive Presented where
  | map (members : List (String × Bytes))
  | seq (elements : List Bytes)

/-- What the readers ask of `serde_json`. -/
structure SerdeJson where
  /-- `from_slice`: the outermost value, in document order. -/
  present : Bytes → Except DeError Presented
  u32 : Bytes → Except DeError UInt32
  string : Bytes → Except DeError String
  /-- The members of an object that a visitor of its own reads. -/
  members : Bytes → Except DeError (List (String × String))
  /-- `Display`, with the place in the file. -/
  message : Bytes → DeError → String

/-- `Box<RawValue>`, which is text. -/
def rawValue (raw : Bytes) : Except DeError String :=
  match String.fromUTF8? ⟨raw.toArray⟩ with
  | some text => .ok text
  | none => .error (.custom "invalid unicode code point")

/-- The fields of both structures. -/
structure CollateralFields (A B : Type) where
  version : UInt32
  rootCaCrl : String
  pckCrl : String
  tcbInfoIssuerChain : String
  pckCrlIssuerChain : String
  qeIdentityIssuerChain : String
  tcbInfo : A
  qeIdentity : B

structure CollateralSlots (A B : Type) where
  version : Option UInt32 := none
  rootCaCrl : Option String := none
  pckCrl : Option String := none
  tcbInfoIssuerChain : Option String := none
  pckCrlIssuerChain : Option String := none
  qeIdentityIssuerChain : Option String := none
  tcbInfo : Option A := none
  qeIdentity : Option B := none

/-- One arm of the `match` on the key. -/
def fillSlot {α : Type} (name : String) (slot : Option α) (value : Except DeError α) :
    Except DeError (Option α) :=
  if slot.isSome then .error (.duplicateField name)
  else do
    let a ← value
    .ok (some a)

/-- What becomes of a slot at the end. -/
def filled {α : Type} (name : String) : Option α → Except DeError α
  | some a => .ok a
  | none => .error (.missingField name)

/-- An element of the sequence form. -/
def element (elements : List Bytes) (i : Nat) : Except DeError Bytes :=
  match elements[i]? with
  | some raw => .ok raw
  | none => .error (.custom s!"invalid length {i}, expected 8 elements")

section

variable {A B : Type} (S : SerdeJson) (tcbInfo : Bytes → Except DeError A)
  (qeIdentity : Bytes → Except DeError B)

/-- One round of the derived `visit_map`. -/
def visitCollateralMember (slots : CollateralSlots A B) (member : String × Bytes) :
    Except DeError (CollateralSlots A B) := do
  let (key, raw) := member
  if key = "version" then
    let value ← fillSlot "version" slots.version (S.u32 raw)
    .ok { slots with version := value }
  else if key = "root_ca_crl" then
    let value ← fillSlot "root_ca_crl" slots.rootCaCrl (S.string raw)
    .ok { slots with rootCaCrl := value }
  else if key = "pck_crl" then
    let value ← fillSlot "pck_crl" slots.pckCrl (S.string raw)
    .ok { slots with pckCrl := value }
  else if key = "tcb_info_issuer_chain" then
    let value ← fillSlot "tcb_info_issuer_chain" slots.tcbInfoIssuerChain (S.string raw)
    .ok { slots with tcbInfoIssuerChain := value }
  else if key = "pck_crl_issuer_chain" then
    let value ← fillSlot "pck_crl_issuer_chain" slots.pckCrlIssuerChain (S.string raw)
    .ok { slots with pckCrlIssuerChain := value }
  else if key = "qe_identity_issuer_chain" then
    let value ← fillSlot "qe_identity_issuer_chain" slots.qeIdentityIssuerChain (S.string raw)
    .ok { slots with qeIdentityIssuerChain := value }
  else if key = "tcb_info" then
    let value ← fillSlot "tcb_info" slots.tcbInfo (tcbInfo raw)
    .ok { slots with tcbInfo := value }
  else if key = "qe_identity" then
    let value ← fillSlot "qe_identity" slots.qeIdentity (qeIdentity raw)
    .ok { slots with qeIdentity := value }
  -- other members are skipped
  else .ok slots

def finishCollateral (slots : CollateralSlots A B) : Except DeError (CollateralFields A B) := do
  .ok {
    version := ← filled "version" slots.version
    rootCaCrl := ← filled "root_ca_crl" slots.rootCaCrl
    pckCrl := ← filled "pck_crl" slots.pckCrl
    tcbInfoIssuerChain := ← filled "tcb_info_issuer_chain" slots.tcbInfoIssuerChain
    pckCrlIssuerChain := ← filled "pck_crl_issuer_chain" slots.pckCrlIssuerChain
    qeIdentityIssuerChain := ← filled "qe_identity_issuer_chain" slots.qeIdentityIssuerChain
    tcbInfo := ← filled "tcb_info" slots.tcbInfo
    qeIdentity := ← filled "qe_identity" slots.qeIdentity }

/-- The derived `visit_seq`. -/
def visitCollateralSeq (elements : List Bytes) : Except DeError (CollateralFields A B) := do
  let version ← S.u32 (← element elements 0)
  let rootCaCrl ← S.string (← element elements 1)
  let pckCrl ← S.string (← element elements 2)
  let tcbInfoIssuerChain ← S.string (← element elements 3)
  let pckCrlIssuerChain ← S.string (← element elements 4)
  let qeIdentityIssuerChain ← S.string (← element elements 5)
  let tcbInfo ← tcbInfo (← element elements 6)
  let qeIdentity ← qeIdentity (← element elements 7)
  if elements.length > 8 then .error (.custom "trailing characters")
  else .ok { version, rootCaCrl, pckCrl, tcbInfoIssuerChain, pckCrlIssuerChain,
             qeIdentityIssuerChain, tcbInfo, qeIdentity }

/-- The derived `Deserialize`. -/
def readCollateral (json : Bytes) : Except DeError (CollateralFields A B) := do
  match ← S.present json with
  | .map members =>
      finishCollateral (← members.foldlM (visitCollateralMember S tcbInfo qeIdentity) {})
  | .seq elements => visitCollateralSeq S tcbInfo qeIdentity elements

end

variable (C : Crates) (S : SerdeJson)

/-- `Signed::deserialize`. -/
def readSigned {T : Type} (B : SignedBody T) (raw : Bytes) : Except DeError (Signed T) := do
  Signed.visitMap C B (← S.members raw)

/-- `serde_json::from_slice::<SgxCollateral>`. -/
def sgxCollateralFromSlice (json : Bytes) : Except String SgxCollateral := do
  let fields ← (readCollateral S (readSigned C S (tcbInfoBody C))
    (readSigned C S (qeIdentityBody C)) json).mapError (S.message json)
  .ok { fields with }

structure RawCollateral extends CollateralFields String String

/-- `serde_json::from_slice::<RawCollateral>`. -/
def rawCollateralFromSlice (json : Bytes) : Except String RawCollateral := do
  let fields ← (readCollateral S rawValue rawValue json).mapError (S.message json)
  .ok { fields with }

/-! ## The buffers -/

inductive CrlForm where
  | pem
  | der
  deriving DecidableEq

def CrlForm.label : CrlForm → String
  | .pem => "pem"
  | .der => "der"

structure MarshalConfig where
  major : UInt16
  minor : UInt16
  teeType : UInt32
  crlForm : CrlForm
  deriving DecidableEq

def MarshalConfig.label (cfg : MarshalConfig) : String :=
  s!"version={cfg.major}.{cfg.minor} tee_type={cfg.teeType} crl={cfg.crlForm.label}"

def defaultMarshal : MarshalConfig := ⟨3, 1, 0, .pem⟩

structure QuoteCollateral where
  majorVersion : UInt16
  minorVersion : UInt16
  teeType : UInt32
  pckCrlIssuerChain : List Int8
  rootCaCrl : List Int8
  pckCrl : List Int8
  tcbInfoIssuerChain : List Int8
  tcbInfo : List Int8
  qeIdentityIssuerChain : List Int8
  qeIdentity : List Int8

/-- Intel's QVL, and the decoder of one PEM block. -/
structure Qvl where
  pemParse : String → Except String Pem
  teeVerifyQuote : Bytes → QuoteCollateral → Int64 → Except UInt32 (UInt32 × SgxQlQvResult)

/-- A buffer that ends in a NUL. -/
def blob (bytes : Bytes) : List Int8 := bytes.map UInt8.toInt8 ++ [0]

variable (Q : Qvl)

def crlBlob (pemText : String) : CrlForm → Except String (List Int8)
  | .pem => .ok (blob (asBytes pemText))
  | .der => do
      let parsed ← (Q.pemParse pemText).mapError fun e => s!"CRL PEM decode: {e}"
      .ok (parsed.contents.map UInt8.toInt8)

def buildQuoteCollateral (raw : RawCollateral) (cfg : MarshalConfig) :
    Except String QuoteCollateral := do
  let rootCaCrl ← crlBlob Q raw.rootCaCrl cfg.crlForm
  let pckCrl ← crlBlob Q raw.pckCrl cfg.crlForm
  .ok {
    majorVersion := cfg.major
    minorVersion := cfg.minor
    teeType := cfg.teeType
    pckCrlIssuerChain := blob (asBytes raw.pckCrlIssuerChain)
    rootCaCrl
    pckCrl
    tcbInfoIssuerChain := blob (asBytes raw.tcbInfoIssuerChain)
    tcbInfo := blob (asBytes raw.tcbInfo)
    qeIdentityIssuerChain := blob (asBytes raw.qeIdentityIssuerChain)
    qeIdentity := blob (asBytes raw.qeIdentity) }

/-! ## Running a case -/

def qvlOutcome : Except UInt32 (UInt32 × SgxQlQvResult) → QvlOutcome
  | .ok (expStatus, result) => .verdict expStatus result
  | .error code => .error code

def runQvl (quoteBytes collateralJson : Bytes) (currentTime : Int64) (cfg : MarshalConfig) :
    QvlOutcome :=
  match rawCollateralFromSlice S collateralJson with
  | .error e => .notRun s!"marshal-failed: {e}"
  | .ok raw =>
      match buildQuoteCollateral Q raw cfg with
      | .error e => .notRun s!"marshal-failed: {e}"
      | .ok collateral => qvlOutcome (Q.teeVerifyQuote quoteBytes collateral currentTime)

structure CaseRecord where
  dcap : DcapOutcome
  qvl : QvlOutcome
  bucket : Bucket

def runCase (quoteBytes collateralJson : Bytes) (currentTime : Int64) (cfg : MarshalConfig) :
    Outcome CaseRecord := do
  let dcap := runDcap C (sgxCollateralFromSlice C S) quoteBytes collateralJson currentTime
  let qvl := runQvl S Q quoteBytes collateralJson currentTime cfg
  let bucket ← classify dcap qvl
  .ok { dcap, qvl, bucket }

/-! ## Calibration -/

/-- The cells of the table, row by row. -/
def calibrationCells : List MarshalConfig :=
  [(1, 0), (3, 0), (3, 1), (4, 0)].flatMap fun (major, minor) =>
    [CrlForm.pem, .der].map fun crlForm => { major, minor, teeType := 0, crlForm }

/-- Whether a cell is pushed to `passing`. -/
def cellPasses (quote : Bytes) (raw : RawCollateral) (time : Int64) (cfg : MarshalConfig) : Bool :=
  match buildQuoteCollateral Q raw cfg with
  | .ok collateral =>
      match Q.teeVerifyQuote quote collateral time with
      | .ok (_, result) => result == .configAndSwHardeningNeeded
      | .error _ => false
  | .error _ => false

/-- The winner of the calibration, if there is one. Without one the process exits with 1. -/
def calibrate (quote : Bytes) (raw : RawCollateral) (time : Int64) : Option MarshalConfig :=
  let passing := calibrationCells.filter (cellPasses Q quote raw time)
  (passing.find? fun cfg => cfg.label == defaultMarshal.label).or passing.head?

end DcapVerify.Differ
