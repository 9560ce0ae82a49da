import DcapVerify.Verify

/-!
# Comparing with another verifier

`dcap-differ/src/pipeline.rs`. Each case is a quote and a collateral file, run
through this crate and through Intel's QVL; `classify` puts the pair of outcomes in
a bucket, and the tally of buckets collapses to an exit code.

QVL is not in the repository: its outcome enters as data. Of its result codes only
the three the differ names are told apart.
-/

namespace DcapVerify.Differ

/-! ## One run of each verifier -/

inductive DcapOutcome where
  | accept (standing : TcbStanding)
  | reject (category : ErrorCategory) (detail : String)
  | panic (msg : String)
  deriving DecidableEq, Repr

/-- So many whole seconds after the epoch, or before it. -/
def systemTime (unix : Int64) : SystemTime where
  nanos := unix.toInt * 10 ^ 9
  inRange := by
    have hlo := unix.le_toInt
    have hhi := unix.toInt_lt
    omega

section

variable (C : Crates) (collateralFromSlice : Bytes → Except String SgxCollateral)

/-- The closure given to `catch_unwind`. Its early returns are the rejections. -/
def runDcapUnwinding (quoteBytes collateralJson : Bytes) (currentTime : Int64) :
    Outcome TcbStanding := do
  let collateral ← orReject (collateralFromSlice collateralJson) fun e =>
    ⟨.collateralParse, s!"collateral JSON: {e}"⟩
  let quote ← (SgxQuote.read quoteBytes).1
  -- the quote's own measurement is pinned, and no evaluation round required
  let expected := (peekMrenclave quoteBytes).getD (List.Vector.replicate 32 0)
  let (standing, _) ← verifyRemoteAttestation C (systemTime currentTime) collateral quote expected 0
  pure standing

def runDcap (quoteBytes collateralJson : Bytes) (currentTime : Int64) : DcapOutcome :=
  match runDcapUnwinding C collateralFromSlice quoteBytes collateralJson currentTime with
  | .ok standing => .accept standing
  | .error (.reject e) => .reject e.category e.detail
  | .error (.panic operation) => .panic operation

end

/-- `sgx_ql_qv_result_t`, as far as the differ tells its values apart. -/
inductive SgxQlQvResult where
  | ok
  | swHardeningNeeded
  | configAndSwHardeningNeeded
  | other (code : UInt32)
  deriving DecidableEq, Repr

inductive QvlOutcome where
  | notRun (reason : String)
  | error (code : UInt32)
  | verdict (expStatus : UInt32) (result : SgxQlQvResult)
  deriving DecidableEq, Repr

/-! ## Classification -/

inductive Bucket where
  | agreeAccept
  | agreeReject
  | standingMismatch
  | dangerous (kind : String)
  | knownDelta (kind : String)
  | unexplainedSafe
  | dcapPanic
  deriving DecidableEq, Repr

namespace Bucket

def label : Bucket → String
  | .agreeAccept => "agree-accept"
  | .agreeReject => "agree-reject"
  | .standingMismatch => "standing-mismatch"
  | .dangerous kind => s!"DANGEROUS({kind})"
  | .knownDelta kind => s!"known-delta({kind})"
  | .unexplainedSafe => "unexplained-safe"
  | .dcapPanic => "dcap-panic"

def isAgreement : Bucket → Bool
  | .agreeAccept | .agreeReject => true
  | _ => false

end Bucket

def qvlAccepts : SgxQlQvResult → Bool
  | .ok | .swHardeningNeeded | .configAndSwHardeningNeeded => true
  | .other _ => false

def standingMatches : SgxQlQvResult → TcbStanding → Bool
  | .ok, .upToDate => true
  | .swHardeningNeeded, .swHardeningNeeded _ => true
  | .configAndSwHardeningNeeded, .configurationAndSwHardeningNeeded _ => true
  | _, _ => false

def formatGateMarkers : List String :=
  ["only version 3 is supported", "only versions 2 and 3 are supported",
    "only version 2 is supported", "tcbType"]

def stalenessCategories : List ErrorCategory :=
  [.tcbInfoStale, .qeIdentityStale, .certOrCrlTimeInvalid]

inductive QvlClass where
  | accept
  | acceptExpired
  | reject
  deriving DecidableEq

/-- The class and the expiration status at the top of `classify`. -/
def qvlClass : QvlOutcome → QvlClass × UInt32
  | .notRun _ | .error _ => (.reject, 0)
  | .verdict expStatus result =>
      if qvlAccepts result then
        if expStatus = 0 then (.accept, expStatus) else (.acceptExpired, expStatus)
      else (.reject, expStatus)

/-- The bucket of a rejection that QVL does not share. -/
def rejectDelta (category : ErrorCategory) (detail : String) (expStatus : UInt32) : Bucket :=
  if category = .debugEnclaveRejected then .knownDelta "debug-gate"
  else if category = .collateralParse ∧ formatGateMarkers.any (strContains detail) then
    .knownDelta "format-gate"
  else if category ∈ stalenessCategories ∧ expStatus ≠ 0 then .knownDelta "expiry-model"
  else .unexplainedSafe

def classify (dcap : DcapOutcome) (qvl : QvlOutcome) : Outcome Bucket :=
  let (cls, expStatus) := qvlClass qvl
  match dcap, cls with
  | .panic _, _ => .ok .dcapPanic
  | .accept standing, .accept =>
      match qvl with
      | .verdict _ result =>
          .ok (if standingMatches result standing then .agreeAccept else .standingMismatch)
      | _ => .error (.panic "unreachable")
  | .accept _, .acceptExpired => .ok (.dangerous "qvl-accept-expired")
  | .accept _, .reject =>
      match qvl with
      | .notRun _ => .ok (.dangerous "qvl-not-run")
      | _ => .ok (.dangerous "qvl-rejects")
  | .reject _ _, .reject => .ok .agreeReject
  | .reject category detail, _ => .ok (rejectDelta category detail expStatus)

/-! ## The tally -/

/-- Running count of buckets. A counter never exceeds the number of cases or of allowlist entries,
so it stays in range of a `u64`. -/
structure Tally where
  agreeAccept : Nat := 0
  agreeReject : Nat := 0
  knownDelta : Nat := 0
  unexplainedSafe : Nat := 0
  dangerous : Nat := 0
  dangerousKnown : Nat := 0
  vanished : Nat := 0
  standingMismatch : Nat := 0
  dcapPanic : Nat := 0
  deriving DecidableEq, Repr

def Tally.add (tally : Tally) : Bucket → Tally
  | .agreeAccept => { tally with agreeAccept := tally.agreeAccept + 1 }
  | .agreeReject => { tally with agreeReject := tally.agreeReject + 1 }
  | .knownDelta _ => { tally with knownDelta := tally.knownDelta + 1 }
  | .unexplainedSafe => { tally with unexplainedSafe := tally.unexplainedSafe + 1 }
  | .dangerous _ => { tally with dangerous := tally.dangerous + 1 }
  | .standingMismatch => { tally with standingMismatch := tally.standingMismatch + 1 }
  | .dcapPanic => { tally with dcapPanic := tally.dcapPanic + 1 }

def exitClean : Int32 := 0

def exitReview : Int32 := 10

def exitFail : Int32 := 20

def Tally.exitCode (tally : Tally) : Int32 :=
  if tally.dcapPanic > 0 ∨ tally.standingMismatch > 0 then exitFail
  else if tally.dangerous > 0 ∨ tally.vanished > 0 then exitReview
  else exitClean

end DcapVerify.Differ
