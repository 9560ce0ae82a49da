import DcapVerify.Differ.Sweep

/-!
# The command line of a sweep

`main.rs`, as far as a sweep goes: which command the arguments name, what `sweep_cmd`
reads from its flags, and the run that it starts. What is printed is left out, so the
failures that print and exit are one.
-/

namespace DcapVerify.Differ

/-! ## Processes -/

/-- How a process ends before its run does. -/
inductive Halt where
  | exit (code : Nat)
  | fault (f : Fault)
  deriving DecidableEq

abbrev Process (α : Type) := Except Halt α

/-- What a panic or a returned error does to the process. -/
def ofOutcome {α : Type} (m : Outcome α) : Process α := m.mapError .fault

/-- An entry of the allowlist that pins an iteration. -/
structure AllowSweep where
  finding : String
  seed : String
  iter : UInt64

/-- What the tool finds around it. -/
structure Environment extends Files where
  /-- `fixtures_root_default`. -/
  fixturesRoot : String
  /-- `reports_default`. -/
  reports : String
  /-- The `sweep` entries of an allowlist file. -/
  loadAllowlist : String → Outcome (List AllowSweep)

/-! ## Numbers -/

/-- `char::to_digit`. -/
def toDigit (radix : Nat) (c : Char) : Option Nat :=
  let digit :=
    if c.isDigit then some (c.toNat - 48)
    else if c.isLower then some (c.toNat - 87)
    else if c.isUpper then some (c.toNat - 55)
    else none
  digit.filter fun d => d < radix

/-- `u64::from_str_radix`: one leading `+`, then at least one digit, below `2^64`. -/
def fromStrRadix (radix : Nat) (s : String) : Option UInt64 := do
  let digits := match s.toList with
    | '+' :: cs => cs
    | cs => cs
  if digits.isEmpty then none else
    let n ← Radix.read radix (toDigit radix) digits 0
    if n < 2 ^ 64 then some (UInt64.ofNat n) else none

def parseHexU64 (s : String) : Process UInt64 :=
  let digits := ((stripPrefix s "0x").or (stripPrefix s "0X")).getD s
  match fromStrRadix 16 digits with
  | some n => .ok n
  | none => .error (.exit 2)

/-- `value.parse().expect(msg)`. -/
def expectNumber (value msg : String) : Process UInt64 :=
  match fromStrRadix 10 value with
  | some n => .ok n
  | none => .error (.fault (.panic msg))

/-! ## `sweep_cmd` -/

def defaultSeed : UInt64 := 0xDCAF00000001

/-- The variables that the flags set. -/
structure SweepFlags where
  iters : Option UInt64 := none
  seed : UInt64 := defaultSeed
  bases : List String := []
  onlyIter : Option UInt64 := none
  out : String
  allow : Option String := none

/-- One round of the loop, for a flag with a value. -/
def sweepFlag (flags : SweepFlags) (flag value : String) : Process SweepFlags :=
  if flag = "--iters" then do
    let iters ← expectNumber value "--iters takes a number"
    .ok { flags with iters := some iters }
  else if flag = "--seed" then do
    let seed ← parseHexU64 value
    .ok { flags with seed }
  else if flag = "--base" then .ok { flags with bases := flags.bases ++ [value] }
  else if flag = "--only-iter" then do
    let onlyIter ← expectNumber value "--only-iter takes a number"
    .ok { flags with onlyIter := some onlyIter }
  else if flag = "--out" then .ok { flags with out := value }
  else if flag = "--allow" then .ok { flags with allow := some value }
  else .error (.exit 2)

def sweepFlags : SweepFlags → List String → Process SweepFlags
  | flags, [] => .ok flags
  -- no flag goes without a value, and no other argument is a flag
  | _, [_] => .error (.exit 2)
  | flags, flag :: value :: args => do
      let flags ← sweepFlag flags flag value
      sweepFlags flags args

variable (env : Environment)

/-- The allowlist entries for a seed. Of two for one iteration the later counts. -/
def allowIters (allow : Option String) (seed : UInt64) :
    Process (Std.TreeMap UInt64 String) := do
  match allow with
  | none => .ok ∅
  | some path =>
      let entries ← ofOutcome (env.loadAllowlist path)
      let entries ← entries.filterM fun e => do
        let entrySeed ← parseHexU64 e.seed
        .ok (entrySeed == seed)
      .ok (Std.TreeMap.ofList (entries.map fun e => (e.iter, e.finding)))

def defaultBaseDirs : List String :=
  [joinPath env.fixturesRoot "prod-1", joinPath env.fixturesRoot "base-debug-enclave"]

/-- `sweep_cmd`, up to the run. -/
def sweepPlan (args : List String) : Process SweepPlan := do
  let flags ← sweepFlags { out := env.reports } args
  match flags.iters with
  | none => .error (.exit 2)
  | some iters =>
      let defaultBases := flags.bases.isEmpty
      let bases := if defaultBases then defaultBaseDirs env else flags.bases
      let allowIters ← allowIters env flags.allow flags.seed
      .ok { iters, seed := flags.seed, bases, defaultBases, onlyIter := flags.onlyIter,
            out := flags.out, allowIters }

def loadBases (plan : SweepPlan) : Process (List BaseCase) :=
  ofOutcome (plan.bases.mapM (loadBase env.toFiles))

/-- The iterations of a run. -/
def sweepIterations (args : List String) : Process (List Iteration) := do
  let plan ← sweepPlan env args
  let bases ← loadBases env plan
  ofOutcome (plan.indices.mapM (iteration plan bases))

/-! ## Command lines -/

inductive Command where
  | calibrate (args : List String)
  | fixtures (args : List String)
  | sweep (args : List String)

/-- The dispatch in `main`, on the arguments after the program's name. -/
def command : List String → Process Command
  | [] => .error (.exit 2)
  | name :: args =>
      if name = "calibrate" then .ok (.calibrate args)
      else if name = "fixtures" then .ok (.fixtures args)
      else if name = "sweep" then .ok (.sweep args)
      else .error (.exit 2)

/-- The words of a line in which nothing is quoted and one blank separates two words. -/
def words (line : String) : List String := (line.toList.splitOn ' ').map String.ofList

/-- The iterations that running a line runs. -/
def iterationsOf (line : String) : Process (List Iteration) := do
  match ← command ((words line).drop 1) with
  | .sweep args => sweepIterations env args
  | .calibrate _ | .fixtures _ => .ok []

end DcapVerify.Differ
