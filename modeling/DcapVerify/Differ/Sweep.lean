import DcapVerify.Tcb
import DcapVerify.Differ.Run
import DcapVerify.Lib.Radix

/-!
# Iterations of a sweep

`rng.rs` and `sweep.rs`: how an iteration chooses a base case and a strategy, what the
strategy does to the base, and what the run writes about it. The generator is threaded
through, so the number and the order of the draws are those of the source.

A buffer is a list of bytes. That a buffer fits in memory is part of a base case: the tool
links a library that exists for x86-64 only, whose addresses have at most 57 bits.
-/

namespace DcapVerify.Differ

/-! ## Machine arithmetic -/

/-- The result of an addition or multiplication on `usize`. -/
def usize (n : Nat) : Outcome Nat :=
  if n < 2 ^ 64 then .ok n else .error (.panic "attempt to compute with overflow")

theorem usize_of_lt {n : Nat} (h : n < 2 ^ 64) : usize n = .ok n := if_pos h

/-- `a - b` on `usize`. -/
def usizeSub (a b : Nat) : Outcome Nat :=
  if b ≤ a then .ok (a - b) else .error (.panic "attempt to subtract with overflow")

theorem usizeSub_of_le {a b : Nat} (h : b ≤ a) : usizeSub a b = .ok (a - b) := if_pos h

/-- The result of an addition or subtraction on `i64`. -/
def i64 (n : Int) : Outcome Int64 :=
  if -(2 ^ 63) ≤ n ∧ n < 2 ^ 63 then .ok (Int64.ofInt n)
  else .error (.panic "attempt to compute with overflow")

theorem i64_of_mem {n : Int} (hlo : -(2 ^ 63) ≤ n) (hhi : n < 2 ^ 63) :
    i64 n = .ok (Int64.ofInt n) := if_pos ⟨hlo, hhi⟩

/-! ## The generator -/

def gamma : UInt64 := 0x9E3779B97F4A7C15

structure SplitMix64 where
  state : UInt64
  deriving DecidableEq

/-- A computation that draws from the generator. -/
abbrev Draw (α : Type) := StateT SplitMix64 Outcome α

namespace SplitMix64

def new (seed : UInt64) : SplitMix64 := ⟨seed⟩

def next : Draw UInt64 := fun rng =>
  let state := rng.state + gamma
  let z := state
  let z := (z ^^^ (z >>> 30)) * 0xBF58476D1CE4E5B9
  let z := (z ^^^ (z >>> 27)) * 0x94D049BB133111EB
  .ok (z ^^^ (z >>> 31), ⟨state⟩)

def below (n : UInt64) : Draw UInt64 := do
  let x ← next
  if n = 0 then throw (.panic "attempt to calculate the remainder with a divisor of zero")
  else pure (x % n)

end SplitMix64

open SplitMix64

/-! ## Base cases -/

/-- No buffer is longer than the address space. -/
def addressSpace : Nat := 2 ^ 57

structure BaseCase where
  name : String
  quote : Bytes
  collateral : Bytes
  currentTime : Int64
  inMemory : quote.length ≤ addressSpace ∧ collateral.length ≤ addressSpace
  deriving DecidableEq

/-- What loading a base case asks of the file system and of the JSON parser. -/
structure Files where
  read : String → Except String { data : Bytes // data.length ≤ addressSpace }
  /-- Whether a text is JSON, and the integer it has under `current_time_unix`. -/
  currentTimeUnix : Bytes → Option (Option Int64)

/-- `dir.join(name)`, for a relative name. -/
def joinPath (dir name : String) : String :=
  match dir.toList.getLast? with
  | none | some '/' => dir ++ name
  | some _ => dir ++ "/" ++ name

/-- `path.file_name()`. -/
def fileName (path : String) : Option String :=
  match ((path.toList.splitOn '/').filter fun c => c != [] && c != ['.']).getLast? with
  | some ['.', '.'] | none => none
  | some name => some (String.ofList name)

def readBase (files : Files) (dir name : String) :
    Outcome { data : Bytes // data.length ≤ addressSpace } :=
  match files.read (joinPath dir name) with
  | .ok data => .ok data
  | .error e => .error (.panic s!"read {dir}/{name}: {e}")

def loadBase (files : Files) (dir : String) : Outcome BaseCase := do
  let name := (fileName dir).getD dir
  let quote ← readBase files dir "quote.bin"
  let collateral ← readBase files dir "collateral.json"
  let metadata ← readBase files dir "meta.json"
  match files.currentTimeUnix metadata.val with
  | none => .error (.panic "meta.json parses")
  | some none => .error (.panic "meta.json has current_time_unix")
  | some (some currentTime) =>
      .ok { name, quote := quote.val, collateral := collateral.val, currentTime,
            inMemory := ⟨quote.property, collateral.property⟩ }

structure MutatedCase where
  quote : Bytes
  collateral : Bytes
  currentTime : Int64
  desc : String
  deriving DecidableEq

def quoteCertTailOffset : Nat := 436

def threeYearsSecs : UInt64 := 3 * 365 * 24 * 3600

/-! ## Mutating bytes -/

/-- One round of the loop in `flip_random_bits`. -/
def flipBit (data : Bytes) (bitLo bitHi : Nat) : Draw (Nat × Bytes) := do
  let width ← usizeSub bitHi bitLo
  let offset ← below (UInt64.ofNat width)
  let bit ← usize (bitLo + offset.toNat)
  let byte ← index data (bit / 8)
  pure (bit, data.set (bit / 8) (byte ^^^ (1 <<< UInt8.ofNat (bit % 8))))

/-- The loop, with the positions it pushes. -/
def flipBits (bitLo bitHi : Nat) : Nat → Bytes → Draw (List Nat × Bytes)
  | 0, data => pure ([], data)
  | count + 1, data => do
      let (bit, data) ← flipBit data bitLo bitHi
      let (positions, data) ← flipBits bitLo bitHi count data
      pure (bit :: positions, data)

def flipRandomBits (data : Bytes) (byteLo byteHi : Nat) : Draw (String × Bytes) := do
  let count := 1 + (← below 8).toNat
  let bitLo ← usize (byteLo * 8)
  let bitHi ← usize (byteHi * 8)
  let (positions, data) ← flipBits bitLo bitHi count data
  pure (s!"flip bits {debugList (positions.map toString)}", data)

def truncate (data : Bytes) : Draw (String × Bytes) := do
  let newLen ← below (UInt64.ofNat data.length)
  pure (s!"truncate to {newLen}", data.take newLen.toNat)

/-- `for slot in data.iter_mut().skip(offset).take(count)`. -/
def overwriteSlots : Nat → Nat → Bytes → Draw Bytes
  | _, _, [] => pure []
  | offset + 1, count, slot :: data => do
      let data ← overwriteSlots offset count data
      pure (slot :: data)
  | 0, 0, data => pure data
  | 0, count + 1, _ :: data => do
      let slot ← next
      let data ← overwriteSlots 0 count data
      pure (slot.toUInt8 :: data)

def overwriteRegion (data : Bytes) : Draw (String × Bytes) := do
  let count := min (1 + (← below 32).toNat) data.length
  let room ← usizeSub data.length count
  let choices ← usize (room + 1)
  let offset ← below (UInt64.ofNat choices)
  let data ← overwriteSlots offset.toNat count data
  pure (s!"overwrite {count} bytes at {offset}", data)

/-! ## Finding the TCB levels -/

def tcbLevelsKey : Bytes := asBytes "\"tcbLevels\""

/-- `json.windows(needle.len()).position(|w| w == needle)`. -/
def windowPosition (needle json : Bytes) : Option Nat :=
  json.tails.findIdx? needle.isPrefixOf

/-- The loop that looks for the opening bracket. `left` is what `i < json.len()` leaves of it. -/
def findOpen (json : Bytes) (i : Nat) : Nat → Outcome Nat
  | 0 => .ok i
  | left + 1 => do
      let b ← index json i
      if b != 91 then do
        let i ← usize (i + 1)
        findOpen json i left
      else .ok i

/-- The three variables of the scanning loop. -/
structure ScanState where
  depth : Nat := 0
  inString : Bool := false
  escaped : Bool := false
  deriving DecidableEq

/-- One round of the scanning loop, and whether it returns. -/
def scanByte (s : ScanState) (b : UInt8) : Outcome (ScanState × Bool) :=
  if s.inString then
    if s.escaped then .ok ({ s with escaped := false }, false)
    else if b == 92 then .ok ({ s with escaped := true }, false)
    else if b == 34 then .ok ({ s with inString := false }, false)
    else .ok (s, false)
  else if b == 34 then .ok ({ s with inString := true }, false)
  else if b == 91 then do
    let depth ← usize (s.depth + 1)
    .ok ({ s with depth }, false)
  else if b == 93 then do
    let depth ← usizeSub s.depth 1
    .ok ({ s with depth }, depth == 0)
  else .ok (s, false)

/-- The scanning loop, from `i`. Both ways out of a round compute `i + 1`. -/
def scan (json : Bytes) (start i : Nat) (s : ScanState) : Nat → Outcome (Option (Nat × Nat))
  | 0 => .ok none
  | left + 1 => do
      let b ← index json i
      let (s, closed) ← scanByte s b
      let i ← usize (i + 1)
      if closed then .ok (some (start, i)) else scan json start i s left

/-- The byte range of the first `tcbLevels` array. -/
def tcbLevelsRange (json : Bytes) : Outcome (Option (Nat × Nat)) :=
  match windowPosition tcbLevelsKey json with
  | none => .ok none
  | some start => do
      let i ← usize (start + tcbLevelsKey.length)
      let i ← findOpen json i (json.length - i)
      scan json i i {} (json.length - i)

/-! ## Mutating a case -/

def mutateQuote (quote : Bytes) (strategy : UInt64) : Draw (String × Bytes) := do
  let len := quote.length
  if strategy = 0 then
    let (desc, quote) ← flipRandomBits quote 0 len
    pure (s!"quote-bitflip: {desc}", quote)
  else if strategy = 1 then
    let (desc, quote) ← truncate quote
    pure (s!"quote-{desc}", quote)
  else if strategy = 2 then
    let (desc, quote) ← overwriteRegion quote
    pure (s!"quote-{desc}", quote)
  else if strategy = 3 then
    let lo := min quoteCertTailOffset (len - 1)
    let (desc, quote) ← flipRandomBits quote lo len
    pure (s!"quote-cert-tail-bitflip: {desc}", quote)
  else throw (.panic "quote strategies are 0..=3")

def mutateCollateral (collateral : Bytes) (strategy : UInt64) : Draw (String × Bytes) := do
  let len := collateral.length
  if strategy = 4 then
    let (desc, collateral) ← flipRandomBits collateral 0 len
    pure (s!"coll-bitflip: {desc}", collateral)
  else if strategy = 5 then
    let (desc, collateral) ← truncate collateral
    pure (s!"coll-{desc}", collateral)
  else if strategy = 6 then
    match ← tcbLevelsRange collateral with
    | some (lo, hi) =>
        let (desc, collateral) ← flipRandomBits collateral lo hi
        pure (s!"coll-tcblevels-bitflip range={lo}..{hi}: {desc}", collateral)
    | none =>
        let (desc, collateral) ← flipRandomBits collateral 0 len
        pure (s!"coll-bitflip (no tcbLevels found): {desc}", collateral)
  else throw (.panic "collateral strategies are 4..=6")

def mutate (base : BaseCase) (strategy : UInt64) : Draw MutatedCase := do
  if strategy ≤ 3 then
    let (desc, quote) ← mutateQuote base.quote strategy
    pure { quote, collateral := base.collateral, currentTime := base.currentTime, desc }
  else if strategy ≤ 6 then
    let (desc, collateral) ← mutateCollateral base.collateral strategy
    pure { quote := base.quote, collateral, currentTime := base.currentTime, desc }
  else if strategy = 7 then
    let jitter ← below (2 * threeYearsSecs + 1)
    let delta ← i64 (jitter.toInt64.toInt - threeYearsSecs.toInt64.toInt)
    let currentTime ← i64 (base.currentTime.toInt + delta.toInt)
    pure { quote := base.quote, collateral := base.collateral, currentTime,
           desc := s!"time-jitter delta={delta}s -> {currentTime}" }
  else if strategy = 8 then
    let quoteStrategy ← below 4
    let collateralStrategy := 4 + (← below 3)
    let (quoteDesc, quote) ← mutateQuote base.quote quoteStrategy
    let (collateralDesc, collateral) ← mutateCollateral base.collateral collateralStrategy
    pure { quote, collateral, currentTime := base.currentTime,
           desc := s!"combo: {quoteDesc}; {collateralDesc}" }
  else throw (.panic "strategies are 0..=8")

/-! ## A run -/

/-- The options of a run, with what an iteration reads besides the counts. -/
structure SweepPlan extends SweepOpts where
  seed : UInt64
  bases : List String
  defaultBases : Bool
  out : String

/-- What an iteration chose, and what it made of it. -/
structure Iteration where
  base : BaseCase
  strategy : UInt64
  mutated : MutatedCase
  deriving DecidableEq

section

variable (plan : SweepPlan) (bases : List BaseCase)

/-- Default weighting: 80% prod-1, 20% base-debug-enclave. -/
def chooseBase : Draw BaseCase := do
  if plan.defaultBases then
    let x ← below 10
    if x < 8 then index bases 0 else index bases 1
  else
    let x ← below (UInt64.ofNat bases.length)
    index bases x.toNat

/-- The part of an iteration that draws. -/
def drawIteration : Draw Iteration := do
  let base ← chooseBase plan bases
  let strategy ← below 9
  let mutated ← mutate base strategy
  pure { base, strategy, mutated }

/-- What the generator of an iteration starts from. -/
def iterationSeed (i : UInt64) : UInt64 := plan.seed ^^^ i * gamma

def iteration (i : UInt64) : Outcome Iteration := do
  let (it, _) ← drawIteration plan bases (.new (iterationSeed plan i))
  pure it

end

/-! ## What a run writes -/

/-- `{:X}`. -/
def upperHex (n : UInt64) : String := String.ofList (Radix.spelt 16 Char.toUpper n.toNat)

def repro (seed i : UInt64) : String :=
  s!"dcap-differ sweep --seed 0x{upperHex seed} --iters 1 --only-iter {i}"

/-- A line of the findings file. -/
structure Line where
  iter : UInt64
  base : String
  strategy : UInt64
  mutationDesc : String
  currentTime : Int64
  dcap : DcapOutcome
  qvl : QvlOutcome
  bucket : String
  repro : String

section

variable (runCase : Bytes → Bytes → Int64 → DcapOutcome × QvlOutcome)

/-- What is written about an iteration, unless the verifiers agree. -/
def iterationLine (plan : SweepPlan) (i : UInt64) (it : Iteration) : Outcome (Option Line) := do
  let (dcap, qvl) := runCase it.mutated.quote it.mutated.collateral it.mutated.currentTime
  let bucket ← classify dcap qvl
  let allowlisted := match bucket with
    | .dangerous _ => plan.allowIters.contains i
    | _ => false
  let label := if allowlisted then "known-dangerous" else bucket.label
  if bucket.isAgreement then pure none
  else pure (some {
    iter := i
    base := it.base.name
    strategy := it.strategy
    mutationDesc := it.mutated.desc
    currentTime := it.mutated.currentTime
    dcap, qvl
    bucket := label
    repro := repro plan.seed i })

/-- The lines written by the loop over `indices`, up to the first panic. -/
def writtenLines (plan : SweepPlan) (bases : List BaseCase) : List UInt64 → List Line
  | [] => []
  | i :: indices =>
      match iteration plan bases i >>= iterationLine runCase plan i with
      | .ok line => line.toList ++ writtenLines plan bases indices
      | .error _ => []

end

end DcapVerify.Differ
