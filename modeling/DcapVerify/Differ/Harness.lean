import DcapVerify.Differ.Command
import DcapVerify.Differ.Marshal
import DcapVerify.Differ.Report

/-!
# The differ as it is run

`main` of the tool, each command to the exit status of its process, and
`scripts/test-dcap-differ.mts`, which starts the tool several times and expects every run
to be CLEAN. What either prints is left out.
-/

namespace DcapVerify.Differ

/-! ## The tool -/

/-- What the tool finds around it, the other verifier included. -/
structure World extends Environment where
  crates : Crates
  serde : SerdeJson
  qvl : Qvl
  /-- The directories under a root that hold a `meta.json` and a `quote.bin`, sorted. -/
  caseDirs : String → Outcome { dirs : List String // (dirs.map fileName).Nodup }
  /-- The time in a text that parses as `Meta`. -/
  metaTime : Bytes → Except String Int64
  /-- The `cases` entries of an allowlist file. -/
  loadAllowCases : String → Outcome (List AllowCase)

namespace World

variable (w : World)

/-- The two outcomes of `run_case`, as both commands call it. -/
def outcomes (quote collateral : Bytes) (time : Int64) : DcapOutcome × QvlOutcome :=
  (runDcap w.crates (sgxCollateralFromSlice w.crates w.serde) quote collateral time,
    runQvl w.serde w.qvl quote collateral time defaultMarshal)

def sweepCmd (args : List String) : Process Int32 := do
  let plan ← sweepPlan w.toEnvironment args
  let bases ← loadBases w.toEnvironment plan
  let report ← ofOutcome (sweepReport w.outcomes plan bases)
  .ok report.tally.exitCode

def readFile (path : String) : Outcome Bytes :=
  match w.read path with
  | .ok data => .ok data.val
  | .error e => .error (.panic s!"read {path}: {e}")

/-- `load_meta`. -/
def loadMeta (dir : String) : Outcome Int64 := do
  let metadata ← w.readFile (joinPath dir "meta.json")
  match w.metaTime metadata with
  | .ok time => .ok time
  | .error e => .error (.panic s!"parse {dir}/meta.json: {e}")

/-- One round of the loop in `fixtures_cmd`, up to the outcomes. -/
def fixtureCase (dir : String) : Outcome (Case String) := do
  match fileName dir with
  | none => .error (.panic "called `Option::unwrap()` on a `None` value")
  | some name =>
      let quote ← w.readFile (joinPath dir "quote.bin")
      let collateral ← w.readFile (joinPath dir "collateral.json")
      let time ← w.loadMeta dir
      let (dcap, qvl) := w.outcomes quote collateral time
      .ok ⟨name, dcap, qvl⟩

structure FixturesFlags where
  root : String
  allow : Option String := none

def fixturesFlags : FixturesFlags → List String → Process FixturesFlags
  | flags, [] => .ok flags
  | _, [_] => .error (.exit 2)
  | flags, flag :: value :: args =>
      if flag = "--root" then fixturesFlags { flags with root := value } args
      else if flag = "--allow" then fixturesFlags { flags with allow := some value } args
      else .error (.exit 2)

/-- The `cases` entries that `--allow` names. -/
def allowCases : Option String → Process (List AllowCase)
  | none => .ok []
  | some path => ofOutcome (w.loadAllowCases path)

def fixtures (args : List String) : Process Int32 := do
  let flags ← fixturesFlags { root := w.fixturesRoot } args
  let allowlist ← w.allowCases flags.allow
  let dirs ← ofOutcome (w.caseDirs flags.root)
  let cases ← ofOutcome (dirs.val.mapM w.fixtureCase)
  let tally ← ofOutcome (fixturesCmd allowlist cases)
  .ok tally.exitCode

def calibrateFlags : String → List String → Process String
  | caseDir, [] => .ok caseDir
  | _, [_] => .error (.exit 2)
  | _, flag :: value :: args =>
      if flag = "--case" then calibrateFlags value args else .error (.exit 2)

/-- What calibration on a case chooses. -/
def calibration (dir : String) : Outcome (Option MarshalConfig) := do
  let quote ← w.readFile (joinPath dir "quote.bin")
  let collateral ← w.readFile (joinPath dir "collateral.json")
  let time ← w.loadMeta dir
  match rawCollateralFromSlice w.serde collateral with
  | .error e => .error (.panic s!"collateral.json parses as RawCollateral: {e}")
  | .ok raw => .ok (calibrate w.qvl quote raw time)

def calibrateCmd (args : List String) : Process Int32 := do
  let dir ← calibrateFlags (joinPath w.fixturesRoot "prod-1") args
  match ← ofOutcome (w.calibration dir) with
  | some _ => .ok 0
  | none => .error (.exit 1)

/-- `main`. -/
def differ (args : List String) : Process Int32 := do
  match ← command args with
  | .calibrate args => w.calibrateCmd args
  | .fixtures args => w.fixtures args
  | .sweep args => w.sweepCmd args

/-- The exit status of a run of the tool. A process that panics exits with 101. -/
def status (args : List String) : Int32 :=
  match w.differ args with
  | .ok code => code
  | .error (.exit code) => Int32.ofNat code
  | .error (.fault _) => 101

end World

/-! ## The script -/

def allowFile : String := "dcap-differ/known-dangerous.json"

def harnessSeed : String := "0xDCAF00000011"

/-- An entry of the replay list as the script reads it: the words that the shell passes for its seed
and its iteration. -/
structure ReplayEntry where
  seed : String
  iter : String
  deriving DecidableEq, Repr

/-- What the script goes by. -/
structure Script where
  /-- The exit code of the build. -/
  build : Int32
  step : String
  /-- The word that the shell passes for the number of iterations. -/
  iters : String
  /-- The full corpus has been generated. -/
  fullCorpus : Bool
  /-- What the script's own reading of the allowlist gives, if it does not throw. -/
  entries : Option (List ReplayEntry)

/-- The run that replays a recorded finding. -/
def replayArgs (k : ReplayEntry) : List String :=
  ["sweep", "--seed", k.seed, "--iters", "1", "--only-iter", k.iter, "--allow", allowFile,
    "--out", "dcap-differ/reports/mise-replay"]

def sweepArgs (iters : String) : List String :=
  ["sweep", "--iters", iters, "--seed", harnessSeed, "--allow", allowFile, "--out",
    "dcap-differ/reports/mise-run"]

/-- The corpora of the `fixtures` step. The last one is run if it has been generated. -/
def fixturesArgs (fullCorpus : Bool) : List (List String) :=
  [["fixtures", "--allow", allowFile],
    ["fixtures", "--root", "dcap-differ/corpus-committed", "--allow", allowFile]] ++
    if fullCorpus then [["fixtures", "--root", "dcap-differ/corpus", "--allow", allowFile]] else []

namespace Script

variable (s : Script)

/-- The step is run, alone or with the others. -/
def Runs (step : String) : Prop := s.step = "all" ∨ s.step = step

instance (step : String) : Decidable (s.Runs step) := inferInstanceAs (Decidable (_ ∨ _))

/-- The runs of the tool, given the replay list. -/
def legs (entries : List ReplayEntry) : List (List String) :=
  (if s.Runs "calibrate" then [["calibrate"]] else []) ++
  (if s.Runs "fixtures" then fixturesArgs s.fullCorpus else []) ++
  (if s.Runs "replay" then entries.map replayArgs else []) ++
  (if s.Runs "sweep" then [sweepArgs s.iters] else [])

end Script

/-- The exit code of the script. -/
def harness (w : World) (s : Script) : Int32 :=
  if s.build ≠ 0 then s.build
  else
    -- the list is read for the replays only, and a reading that throws ends the script
    match if s.Runs "replay" then s.entries else some [] with
    | none => 1
    | some entries => if ∀ args ∈ s.legs entries, w.status args = exitClean then 0 else 1

end DcapVerify.Differ
