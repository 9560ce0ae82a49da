import DcapVerify.Differ.Pipeline
import Std.Data.TreeMap
import Std.Data.TreeSet

/-!
# Runs of the differ

The loops of `fixtures_cmd` and of `sweep::run`, over cases whose outcomes are data. The
two differ in what a case is called by, in where its allowlist comes from, and in which
allowlist entries are in scope; the loop itself is the same.
-/

namespace DcapVerify.Differ

/-- A case: what the allowlist calls it by, and what the two verifiers said. -/
structure Case (κ : Type) where
  key : κ
  dcap : DcapOutcome
  qvl : QvlOutcome

/-! ## The loop -/

section

variable {κ : Type} [Ord κ]

/-- What a run accumulates. -/
structure RunState (κ : Type) [Ord κ] where
  tally : Tally := {}
  reproduced : Std.TreeSet κ := ∅

/-- One case. A dangerous one that is allowlisted is counted apart. -/
def tallyCase (allowed : Std.TreeMap κ String) (state : RunState κ) (case : Case κ) :
    Outcome (RunState κ) := do
  let bucket ← classify case.dcap case.qvl
  let allowlisted := match bucket with
    | .dangerous _ => allowed[case.key]?
    | _ => none
  match allowlisted with
  | some _ =>
      let tally := { state.tally with dangerousKnown := state.tally.dangerousKnown + 1 }
      pure { tally, reproduced := state.reproduced.insert case.key }
  | none => pure { state with tally := state.tally.add bucket }

/-- The loop over the allowlist at the end of a run. -/
def countVanished (allowed : Std.TreeMap κ String) (inScope : κ → Bool) (state : RunState κ) :
    Tally :=
  allowed.foldl (fun tally key _ =>
    if inScope key && !state.reproduced.contains key then
      { tally with vanished := tally.vanished + 1 }
    else tally) state.tally

/-- A whole run. The process exits with the tally's exit code. -/
def tallyRun (allowed : Std.TreeMap κ String) (inScope : κ → Bool) (cases : List (Case κ)) :
    Outcome Tally := do
  let state ← cases.foldlM (tallyCase allowed) {}
  pure (countVanished allowed inScope state)

end

/-! ## Fixtures -/

structure AllowCase where
  finding : String
  case : String

/-- The allowlist, by case name. Of two entries for one case the later counts. -/
def allowedCases (allowlist : List AllowCase) : Std.TreeMap String String :=
  Std.TreeMap.ofList (allowlist.map fun c => (c.case, c.finding))

/-- An entry is in scope when its directory is present. -/
def present (cases : List (Case String)) (case : String) : Bool :=
  cases.any fun dir => dir.key == case

def fixturesCmd (allowlist : List AllowCase) (cases : List (Case String)) : Outcome Tally :=
  tallyRun (allowedCases allowlist) (present cases) cases

/-! ## Sweeps -/

structure SweepOpts where
  iters : UInt64
  onlyIter : Option UInt64
  allowIters : Std.TreeMap UInt64 String

def SweepOpts.indices (opts : SweepOpts) : List UInt64 :=
  match opts.onlyIter with
  | some k => [k]
  | none => (List.range opts.iters.toNat).map UInt64.ofNat

/-- An entry is in scope when the run covers its iteration. -/
def SweepOpts.inWindow (opts : SweepOpts) (k : UInt64) : Bool :=
  match opts.onlyIter with
  | some only => k == only
  | none => k < opts.iters

/-- The cases of a sweep. `outcome` is what the two verifiers say about the mutation that the seed
and the iteration select. -/
def SweepOpts.cases (opts : SweepOpts) (outcome : UInt64 → DcapOutcome × QvlOutcome) :
    List (Case UInt64) :=
  opts.indices.map fun i => ⟨i, (outcome i).1, (outcome i).2⟩

def sweepRun (opts : SweepOpts) (outcome : UInt64 → DcapOutcome × QvlOutcome) : Outcome Tally :=
  tallyRun opts.allowIters opts.inWindow (opts.cases outcome)

end DcapVerify.Differ
