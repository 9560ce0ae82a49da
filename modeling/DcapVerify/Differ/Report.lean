import DcapVerify.Differ.Sweep
import DcapVerify.Lib.Histogram

/-!
# What a sweep reports

The whole of `sweep::run`: beside the tally it keeps a table of counts by strategy and
label, the lines of the findings file and the cases that are dumped for triage. At the
end `print_summary` adds the table up. Files are lists of what is written to them: that they
can be created and written is taken for granted, where the source panics. The progress
lines on the terminal are left out.
-/

namespace DcapVerify.Differ

def Bucket.isFinding : Bucket → Bool
  | .standingMismatch | .dangerous _ | .unexplainedSafe | .dcapPanic => true
  | _ => false

/-- An iteration, and what became of it. -/
structure Judged where
  iter : UInt64
  it : Iteration
  dcap : DcapOutcome
  qvl : QvlOutcome
  bucket : Bucket
  allowlisted : Bool

def Judged.label (j : Judged) : String :=
  if j.allowlisted then "known-dangerous" else j.bucket.label

/-- A case dumped for triage: its directory, its two files and its metadata. -/
structure Finding where
  caseDir : String
  quote : Bytes
  collateral : Bytes
  iter : UInt64
  base : String
  strategy : UInt64
  mutationDesc : String
  currentTime : Int64
  bucket : String

/-- Counts by strategy and label. -/
abbrev CountTable := Std.TreeMap (UInt64 × String) Nat lexOrd.compare

/-- The variables of the loop. -/
structure SweepState where
  counts : CountTable := ∅
  bucketLabels : Std.TreeSet String := ∅
  run : RunState UInt64 := {}
  jsonl : List Line := []
  findings : List Finding := []

section

variable (runCase : Bytes → Bytes → Int64 → DcapOutcome × QvlOutcome)
  (plan : SweepPlan) (bases : List BaseCase)

/-- The part of a round that draws, runs and judges. -/
def judge (i : UInt64) : Outcome Judged := do
  let it ← iteration plan bases i
  let (dcap, qvl) := runCase it.mutated.quote it.mutated.collateral it.mutated.currentTime
  let bucket ← classify dcap qvl
  let allowlisted := match bucket with
    | .dangerous _ => plan.allowIters.contains i
    | _ => false
  pure { iter := i, it, dcap, qvl, bucket, allowlisted }

def Judged.line (j : Judged) : Line :=
  { iter := j.iter
    base := j.it.base.name
    strategy := j.it.strategy
    mutationDesc := j.it.mutated.desc
    currentTime := j.it.mutated.currentTime
    dcap := j.dcap
    qvl := j.qvl
    bucket := j.label
    repro := repro plan.seed j.iter }

def Judged.finding (j : Judged) : Finding :=
  { caseDir := joinPath plan.out s!"case-{j.iter}"
    quote := j.it.mutated.quote
    collateral := j.it.mutated.collateral
    iter := j.iter
    base := j.it.base.name
    strategy := j.it.strategy
    mutationDesc := j.it.mutated.desc
    currentTime := j.it.mutated.currentTime
    bucket := j.label }

/-- The part of a round that keeps the books. -/
def SweepState.record (state : SweepState) (j : Judged) : SweepState :=
  { counts := Histogram.bump state.counts (j.it.strategy, j.label)
    bucketLabels := state.bucketLabels.insert j.label
    run :=
      if j.allowlisted then
        { tally := { state.run.tally with dangerousKnown := state.run.tally.dangerousKnown + 1 }
          reproduced := state.run.reproduced.insert j.iter }
      else { state.run with tally := state.run.tally.add j.bucket }
    jsonl := if j.bucket.isAgreement then state.jsonl else state.jsonl ++ [j.line plan]
    findings := if j.bucket.isFinding then state.findings ++ [j.finding plan] else state.findings }

/-- One round of the loop. -/
def sweepRound (state : SweepState) (i : UInt64) : Outcome SweepState := do
  let j ← judge runCase plan bases i
  pure (state.record plan j)

end

/-! ## The summary -/

/-- `print_summary`, as the numbers it prints. -/
structure Summary where
  total : Nat
  rows : List (List Nat)
  totals : List Nat
  agreements : Nat
  accept : Nat
  reject : Nat
  knownDeltas : List (String × Nat)
  unexplainedSafe : Nat
  standingMismatch : Nat
  dcapPanic : Nat
  dangerous : Nat

/-- `str::starts_with`. -/
def startsWith (s pre : String) : Bool := pre.toList.isPrefixOf s.toList

/-- `str::strip_suffix`. -/
def stripSuffix (s suf : String) : Option String :=
  (s.toList.reverse.dropPrefix? suf.toList.reverse).map fun cs => String.ofList cs.reverse

/-- The kind in the label of a known delta. -/
def knownDeltaKind (label : String) : Option String :=
  (stripPrefix label "known-delta(").bind fun s => stripSuffix s ")"

/-- `sum_for`. -/
def sumFor (counts : CountTable) (pred : String → Bool) : Nat :=
  Histogram.weight counts fun key => pred key.2

/-- The strategies that the table has a row for. -/
def strategies : List UInt64 := [0, 1, 2, 3, 4, 5, 6, 7, 8]

def printSummary (counts : CountTable) (bucketLabels : Std.TreeSet String) (total : Nat) :
    Summary where
  total
  rows := strategies.map fun strategy => bucketLabels.toList.map fun label =>
    counts.getD (strategy, label) 0
  totals := bucketLabels.toList.map fun label =>
    (strategies.map fun strategy => counts.getD (strategy, label) 0).sum
  agreements := sumFor counts fun l => startsWith l "agree-"
  accept := sumFor counts fun l => l == "agree-accept"
  reject := sumFor counts fun l => l == "agree-reject"
  knownDeltas := bucketLabels.toList.filterMap fun label =>
    (knownDeltaKind label).map fun kind => (kind, sumFor counts fun l => l == label)
  unexplainedSafe := sumFor counts fun l => l == "unexplained-safe"
  standingMismatch := sumFor counts fun l => l == "standing-mismatch"
  dcapPanic := sumFor counts fun l => l == "dcap-panic"
  dangerous := sumFor counts fun l => startsWith l "DANGEROUS"

/-! ## A whole run -/

/-- What a run leaves behind. The process exits with the tally's exit code. -/
structure SweepReport where
  tally : Tally
  summary : Summary
  jsonl : List Line
  findings : List Finding

/-- `sweep::run`, after the bases are loaded. -/
def sweepReport (runCase : Bytes → Bytes → Int64 → DcapOutcome × QvlOutcome) (plan : SweepPlan)
    (bases : List BaseCase) : Outcome SweepReport := do
  let state ← plan.indices.foldlM (sweepRound runCase plan bases) {}
  pure
    { tally := countVanished plan.allowIters plan.inWindow state.run
      summary := printSummary state.counts state.bucketLabels plan.indices.length
      jsonl := state.jsonl
      findings := state.findings }

end DcapVerify.Differ
