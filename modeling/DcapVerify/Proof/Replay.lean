import DcapVerify.Differ.Command
import DcapVerify.Synthetic

/-!
# Replaying an iteration

A run writes a command next to each finding. The command prints the seed in hexadecimal and
the iteration in decimal, and both survive being parsed; every iteration seeds a generator of
its own, so it does not matter which others run. What the command omits is the base cases: a
replay chooses from the default ones. The choice takes one draw in either case, so a replay
goes wrong exactly when that draw selects another base case.
-/

namespace DcapVerify.Differ

open SplitMix64

/-! ## Printed numbers -/

theorem toDigit_upper : ∀ d < 16, toDigit 16 (Char.toUpper d.digitChar) = some d := by decide

theorem toDigit_decimal : ∀ d < 10, toDigit 10 (id d.digitChar) = some d := by decide

/-- **A number is parsed back from its digits.** -/
theorem fromStrRadix_spelt {radix : Nat} {spell : Char → Char} (hradix : 1 < radix)
    (hvalue : ∀ d < radix, toDigit radix (spell d.digitChar) = some d) {s : String} {n : UInt64}
    (hs : s.toList = Radix.spelt radix spell n.toNat) : fromStrRadix radix s = some n := by
  have hplus : toDigit radix '+' = none := rfl
  have hne : Radix.spelt radix spell n.toNat ≠ [] := Radix.spelt_ne_nil _
  unfold fromStrRadix
  split
  · rename_i cs hcs
    have hmem : '+' ∈ Radix.spelt radix spell n.toNat := by
      rw [← hs, hcs]
      exact List.mem_cons_self
    obtain ⟨d, -, hd⟩ := Radix.value_of_mem_spelt hradix hvalue n.toNat '+' hmem
    rw [hplus] at hd
    cases hd
  · rw [hs, if_neg (by simpa using hne), Radix.read_spelt hradix hvalue]
    simp [n.toNat_lt]

theorem parseHexU64_upperHex (n : UInt64) : parseHexU64 ("0x" ++ upperHex n) = .ok n := by
  have hstrip : stripPrefix ("0x" ++ upperHex n) "0x" = some (upperHex n) := by
    unfold stripPrefix
    rw [String.toList_append]
    simp [List.dropPrefix?]
  have hs : (upperHex n).toList = Radix.spelt 16 Char.toUpper n.toNat := String.toList_ofList
  unfold parseHexU64
  rw [hstrip]
  simp [fromStrRadix_spelt (by decide) toDigit_upper hs]

theorem toList_toString (n : UInt64) : (toString n).toList = Nat.toDigits 10 n.toNat :=
  Nat.toList_repr

theorem expectNumber_toString (n : UInt64) (msg : String) :
    expectNumber (toString n) msg = .ok n := by
  have hs : (toString n).toList = Radix.spelt 10 id n.toNat := by
    rw [toList_toString, Radix.spelt, List.map_id]
  rw [expectNumber, fromStrRadix_spelt (by decide) toDigit_decimal hs]

/-! ## The words of a command line -/

theorem words_of_intercalate {line : String} {ws : List String} (hne : ws ≠ [])
    (hblank : ∀ w ∈ ws, ' ' ∉ w.toList)
    (hline : line.toList = [' '].intercalate (ws.map String.toList)) : words line = ws := by
  have hsplit : ([' '].intercalate (ws.map String.toList)).splitOn ' ' = ws.map String.toList := by
    refine List.splitOn_intercalate ' ' (fun cs hcs => ?_) (by simpa using hne)
    obtain ⟨w, hw, rfl⟩ := List.mem_map.mp hcs
    exact hblank w hw
  rw [words, hline, hsplit, List.map_map]
  simp

theorem blank_notMem_upperHex (n : UInt64) : ' ' ∉ (upperHex n).toList := by
  rw [upperHex, String.toList_ofList]
  intro h
  obtain ⟨d, -, hd⟩ := Radix.value_of_mem_spelt (by decide) toDigit_upper n.toNat ' ' h
  cases hd

theorem blank_notMem_toString (n : UInt64) : ' ' ∉ (toString n).toList := by
  rw [toList_toString]
  intro h
  exact absurd (Nat.isDigit_of_mem_toDigits (by decide) (by decide) h) (by decide)

def reproArgs (seed i : UInt64) : List String :=
  ["--seed", "0x" ++ upperHex seed, "--iters", "1", "--only-iter", toString i]

theorem words_repro (seed i : UInt64) :
    words (repro seed i) = "dcap-differ" :: "sweep" :: reproArgs seed i := by
  refine words_of_intercalate (List.cons_ne_nil _ _) (fun w hw => ?_) ?_
  · simp only [reproArgs, List.mem_cons, List.not_mem_nil, or_false] at hw
    rcases hw with rfl | rfl | rfl | rfl | rfl | rfl | rfl | rfl
    all_goals try decide
    · rw [String.toList_append, List.mem_append]
      rintro (h | h)
      · exact absurd h (by decide)
      · exact blank_notMem_upperHex seed h
    · exact blank_notMem_toString i
  · have hhead : "dcap-differ sweep --seed 0x".toList = "dcap-differ".toList ++ ' ' ::
        ("sweep".toList ++ ' ' :: ("--seed".toList ++ ' ' :: "0x".toList)) := by decide
    have hmid : " --iters 1 --only-iter ".toList = ' ' :: ("--iters".toList ++ ' ' ::
        ("1".toList ++ ' ' :: ("--only-iter".toList ++ [' ']))) := by decide
    have hline : repro seed i = "dcap-differ sweep --seed 0x" ++ upperHex seed ++
        " --iters 1 --only-iter " ++ toString i := rfl
    rw [hline, String.toList_append, String.toList_append, String.toList_append, hhead, hmid,
      reproArgs]
    simp only [List.map_cons, List.map_nil, List.intercalate_cons_cons, List.intercalate_singleton,
      String.toList_append, List.append_assoc, List.cons_append, List.nil_append]

/-! ## The options of a replay -/

/-- What a replay runs: the default base cases, whatever the run was given. -/
def replayPlan (env : Environment) (seed i : UInt64) : SweepPlan where
  iters := 1
  onlyIter := some i
  allowIters := ∅
  seed := seed
  bases := defaultBaseDirs env
  defaultBases := true
  out := env.reports

theorem sweepFlags_reproArgs (flags : SweepFlags) (seed i : UInt64) :
    sweepFlags flags (reproArgs seed i) =
      .ok { flags with iters := some 1, seed := seed, onlyIter := some i } := by
  have hseed : sweepFlag flags "--seed" ("0x" ++ upperHex seed) = .ok { flags with seed } := by
    simp [sweepFlag, parseHexU64_upperHex]
  have hiters (flags : SweepFlags) :
      sweepFlag flags "--iters" (toString (1 : UInt64)) = .ok { flags with iters := some 1 } := by
    simp only [sweepFlag, if_pos, expectNumber_toString, Checks.ok_bind]
  have honly (flags : SweepFlags) :
      sweepFlag flags "--only-iter" (toString i) = .ok { flags with onlyIter := some i } := by
    simp [sweepFlag, expectNumber_toString]
  have hone : toString (1 : UInt64) = "1" := by decide
  rw [hone] at hiters
  simp only [reproArgs, sweepFlags, hseed, hiters, honly, Checks.ok_bind]

theorem sweepPlan_reproArgs (env : Environment) (seed i : UInt64) :
    sweepPlan env (reproArgs seed i) = .ok (replayPlan env seed i) := by
  rw [sweepPlan, sweepFlags_reproArgs]
  rfl

theorem command_sweep (args : List String) : command ("sweep" :: args) = .ok (.sweep args) := by
  rw [command, if_neg (by decide), if_neg (by decide), if_pos rfl]

/-- **A replay runs one iteration, on the default base cases.** -/
theorem iterationsOf_repro (env : Environment) (seed i : UInt64) :
    iterationsOf env (repro seed i) = (do
      let bases ← loadBases env (replayPlan env seed i)
      let it ← ofOutcome (iteration (replayPlan env seed i) bases i)
      pure [it]) := by
  rw [iterationsOf, words_repro, List.drop_succ_cons, List.drop_zero, command_sweep,
    Checks.ok_bind]
  show sweepIterations env (reproArgs seed i) = _
  rw [sweepIterations, sweepPlan_reproArgs, Checks.ok_bind]
  congr 1
  funext bases
  show ofOutcome ([i].mapM (iteration (replayPlan env seed i) bases)) = _
  rw [List.mapM_cons, List.mapM_nil]
  cases iteration (replayPlan env seed i) bases i with
  | ok it => rfl
  | error e => rfl

/-! ## The base cases of a run -/

/-- The values of the `--base` flags. -/
def givenBases : List String → List String
  | flag :: value :: args =>
      if flag = "--base" then value :: givenBases args else givenBases args
  | [_] | [] => []

theorem sweepFlag_bases {flags flags' : SweepFlags} {flag value : String}
    (h : sweepFlag flags flag value = .ok flags') :
    flags'.bases = if flag = "--base" then flags.bases ++ [value] else flags.bases := by
  unfold sweepFlag at h
  split_ifs at h with hiters hseed hbase honly hout hallow
  · obtain ⟨iters, -, h⟩ := Checks.bind_eq_ok.mp h
    cases h
    rw [if_neg (by rw [hiters]; decide)]
  · obtain ⟨seed, -, h⟩ := Checks.bind_eq_ok.mp h
    cases h
    rw [if_neg (by rw [hseed]; decide)]
  · cases h
    rw [if_pos hbase]
  · obtain ⟨onlyIter, -, h⟩ := Checks.bind_eq_ok.mp h
    cases h
    rw [if_neg (by rw [honly]; decide)]
  · cases h
    rw [if_neg (by rw [hout]; decide)]
  · cases h
    rw [if_neg (by rw [hallow]; decide)]

theorem sweepFlags_bases {args : List String} : ∀ {flags flags' : SweepFlags},
    sweepFlags flags args = .ok flags' → flags'.bases = flags.bases ++ givenBases args := by
  induction args using givenBases.induct with
  | case1 value args ih =>
      intro flags flags' h
      obtain ⟨flags₁, hone, h⟩ := Checks.bind_eq_ok.mp h
      rw [ih h, sweepFlag_bases hone, if_pos rfl, givenBases, if_pos rfl, List.append_assoc]
      rfl
  | case2 flag value args hne ih =>
      intro flags flags' h
      obtain ⟨flags₁, hone, h⟩ := Checks.bind_eq_ok.mp h
      rw [ih h, sweepFlag_bases hone, if_neg hne, givenBases, if_neg hne]
  | case3 flag =>
      intro flags flags' h
      cases h
  | case4 =>
      intro flags flags' h
      cases h
      exact (List.append_nil _).symm

/-- **A run is on the base cases it was given, or else on the default ones.** -/
theorem sweepPlan_bases {env : Environment} {args : List String} {plan : SweepPlan}
    (h : sweepPlan env args = .ok plan) :
    plan.defaultBases = (givenBases args).isEmpty ∧
      plan.bases = if (givenBases args).isEmpty then defaultBaseDirs env else givenBases args := by
  obtain ⟨flags, hflags, h⟩ := Checks.bind_eq_ok.mp h
  have hbases : flags.bases = givenBases args := sweepFlags_bases hflags
  cases hiters : flags.iters with
  | none =>
      rw [hiters] at h
      cases h
  | some iters =>
      rw [hiters] at h
      obtain ⟨allowed, -, h⟩ := Checks.bind_eq_ok.mp h
      cases h
      rw [← hbases]
      exact ⟨rfl, rfl⟩

/-! ## The draws of an iteration -/

/-- What a generator draws first. -/
def firstDraw (rng : SplitMix64) : UInt64 := (next rng).toOption.elim 0 Prod.fst

theorem next_eq (rng : SplitMix64) : next rng = .ok (firstDraw rng, ⟨rng.state + gamma⟩) := rfl

/-- The base case that a draw selects. -/
def selectedBase (plan : SweepPlan) (bases : List BaseCase) (x : UInt64) : Option BaseCase :=
  if plan.defaultBases then if x % 10 < 8 then bases[0]? else bases[1]?
  else bases[(x % UInt64.ofNat bases.length).toNat]?

/-- What an iteration draws once its base case is chosen. -/
def drawMutation (base : BaseCase) : Draw Iteration := do
  let strategy ← below 9
  let mutated ← mutate base strategy
  pure { base, strategy, mutated }

theorem below_eq {n : UInt64} (hn : n ≠ 0) (rng : SplitMix64) :
    below n rng = .ok (firstDraw rng % n, ⟨rng.state + gamma⟩) := by
  rw [below, Checks.state_bind_of_ok (next_eq rng), if_neg hn]
  rfl

theorem index_draw_eq_ok {bases : List BaseCase} {i : Nat} {rng rng' : SplitMix64}
    {base : BaseCase} : (liftM (index bases i) : Draw BaseCase) rng = .ok (base, rng') ↔
      bases[i]? = some base ∧ rng' = rng := by
  rw [Checks.state_lift_eq_ok, index_eq_ok]

/-- **One draw chooses the base case**, whatever it chooses from. -/
theorem chooseBase_eq_ok {plan : SweepPlan} {bases : List BaseCase} {rng rng' : SplitMix64}
    {base : BaseCase} : chooseBase plan bases rng = .ok (base, rng') ↔
      (plan.defaultBases = true ∨ UInt64.ofNat bases.length ≠ 0) ∧
        selectedBase plan bases (firstDraw rng) = some base ∧ rng' = ⟨rng.state + gamma⟩ := by
  unfold chooseBase selectedBase
  by_cases hdefault : plan.defaultBases = true
  · rw [if_pos hdefault, if_pos hdefault, Checks.state_bind_of_ok (below_eq (by decide) rng),
      and_iff_right (Or.inl hdefault)]
    by_cases hx : firstDraw rng % 10 < 8
    · rw [if_pos hx, if_pos hx]
      exact index_draw_eq_ok
    · rw [if_neg hx, if_neg hx]
      exact index_draw_eq_ok
  · rw [if_neg hdefault, if_neg hdefault, or_iff_right hdefault]
    by_cases hn : UInt64.ofNat bases.length = 0
    · refine iff_of_false (fun h => ?_) fun h => h.1 hn
      obtain ⟨x, rng'', hx, -⟩ := Checks.state_bind_eq_ok.mp h
      rw [hn] at hx
      cases hx
    · rw [Checks.state_bind_of_ok (below_eq hn rng), and_iff_right hn]
      exact index_draw_eq_ok

theorem drawMutation_base {base : BaseCase} {rng rng' : SplitMix64} {it : Iteration}
    (h : drawMutation base rng = .ok (it, rng')) : it.base = base := by
  obtain ⟨strategy, rng₁, -, h⟩ := Checks.state_bind_eq_ok.mp h
  obtain ⟨mutated, rng₂, -, h⟩ := Checks.state_bind_eq_ok.mp h
  cases h
  rfl

/-- The generator of an iteration. -/
def iterationRng (plan : SweepPlan) (i : UInt64) : SplitMix64 := .new (iterationSeed plan i)

/-- **An iteration is what its base case makes of the draws after the first.** -/
theorem iteration_eq_ok {plan : SweepPlan} {bases : List BaseCase} {i : UInt64}
    {it : Iteration} : iteration plan bases i = .ok it ↔
      (plan.defaultBases = true ∨ UInt64.ofNat bases.length ≠ 0) ∧
        selectedBase plan bases (firstDraw (iterationRng plan i)) = some it.base ∧
        ∃ rng, drawMutation it.base ⟨iterationSeed plan i + gamma⟩ = .ok (it, rng) := by
  have hiteration : iteration plan bases i = .ok it ↔
      ∃ rng, drawIteration plan bases (iterationRng plan i) = .ok (it, rng) := by
    unfold iteration iterationRng
    cases h : drawIteration plan bases (.new (iterationSeed plan i)) with
    | ok r =>
        refine ⟨fun hit => ⟨r.2, ?_⟩, fun hit => ?_⟩
        · cases hit
          rfl
        · obtain ⟨rng, hr⟩ := hit
          cases hr
          rfl
    | error e => exact iff_of_false (fun hit => by cases hit) fun hit => by cases hit.choose_spec
  rw [hiteration]
  refine ⟨fun h => ?_, fun h => ?_⟩
  · obtain ⟨rng, h⟩ := h
    obtain ⟨base, rng₁, hbase, h⟩ := Checks.state_bind_eq_ok.mp h
    obtain ⟨hguard, hselected, rfl⟩ := chooseBase_eq_ok.mp hbase
    obtain rfl : it.base = base := drawMutation_base h
    exact ⟨hguard, hselected, rng, h⟩
  · obtain ⟨hguard, hselected, rng, h⟩ := h
    have hbase := chooseBase_eq_ok.mpr ⟨hguard, hselected, rfl⟩
    exact ⟨rng, Checks.state_bind_eq_ok.mpr ⟨it.base, _, hbase, h⟩⟩

/-! ## The lines of a run -/

/-- A line is about an iteration of the run. -/
structure Line.Records (line : Line) (plan : SweepPlan) (it : Iteration) : Prop where
  base : line.base = it.base.name
  strategy : line.strategy = it.strategy
  mutationDesc : line.mutationDesc = it.mutated.desc
  currentTime : line.currentTime = it.mutated.currentTime
  repro : line.repro = Differ.repro plan.seed line.iter

section

variable {runCase : Bytes → Bytes → Int64 → DcapOutcome × QvlOutcome} {plan : SweepPlan}
  {bases : List BaseCase}

theorem iterationLine_records {i : UInt64} {it : Iteration} {line : Line}
    (h : iterationLine runCase plan i it = .ok (some line)) :
    line.iter = i ∧ line.Records plan it := by
  unfold iterationLine at h
  obtain ⟨bucket, -, h⟩ := Checks.bind_eq_ok.mp h
  by_cases hagree : bucket.isAgreement = true
  · rw [if_pos hagree] at h
    cases h
  · rw [if_neg hagree] at h
    cases h
    exact ⟨rfl, rfl, rfl, rfl, rfl, rfl⟩

/-- **A line of a run records an iteration in its window.** -/
theorem writtenLines_records (indices : List UInt64) :
    ∀ line ∈ writtenLines runCase plan bases indices, line.iter ∈ indices ∧
      ∃ it, iteration plan bases line.iter = .ok it ∧ line.Records plan it := by
  induction indices with
  | nil =>
      intro line hline
      cases hline
  | cons i indices ih =>
      intro line hline
      unfold writtenLines at hline
      split at hline
      · rename_i written hwritten
        rcases List.mem_append.mp hline with hhere | hlater
        · obtain ⟨it, hit, hrecord⟩ := Checks.bind_eq_ok.mp hwritten
          obtain rfl := Option.mem_toList.mp hhere
          obtain ⟨rfl, hrecords⟩ := iterationLine_records hrecord
          exact ⟨List.mem_cons_self, it, hit, hrecords⟩
        · obtain ⟨hmem, hit⟩ := ih line hlater
          exact ⟨List.mem_cons_of_mem i hmem, hit⟩
      · cases hline

end

/-! ## Replaying -/

/-- The default base cases load, and a draw selects the same one from them as from a run's own. -/
def DefaultsAgree (env : Environment) (bases : List BaseCase) (x : UInt64) : Prop :=
  ∃ prod debug, loadBase env.toFiles (joinPath env.fixturesRoot "prod-1") = .ok prod ∧
    loadBase env.toFiles (joinPath env.fixturesRoot "base-debug-enclave") = .ok debug ∧
    bases[(x % UInt64.ofNat bases.length).toNat]? = some (if x % 10 < 8 then prod else debug)

theorem selectedBase_replayPlan (env : Environment) (seed i x : UInt64) (prod debug : BaseCase) :
    selectedBase (replayPlan env seed i) [prod, debug] x =
      some (if x % 10 < 8 then prod else debug) := by
  show (if x % 10 < 8 then some prod else some debug) = _
  rw [apply_ite some]

theorem ofOutcome_eq_ok {α : Type} {m : Outcome α} {a : α} :
    ofOutcome m = .ok a ↔ m = .ok a := by
  cases m with
  | ok b => exact ⟨fun h => by cases h; rfl, fun h => by cases h; rfl⟩
  | error e => exact iff_of_false (fun h => by cases h) fun h => by cases h

theorem loadBases_replayPlan {env : Environment} {seed i : UInt64} {bases : List BaseCase} :
    loadBases env (replayPlan env seed i) = .ok bases ↔
      ∃ prod debug, loadBase env.toFiles (joinPath env.fixturesRoot "prod-1") = .ok prod ∧
        loadBase env.toFiles (joinPath env.fixturesRoot "base-debug-enclave") = .ok debug ∧
        bases = [prod, debug] := by
  show ofOutcome ((defaultBaseDirs env).mapM (loadBase env.toFiles)) = .ok bases ↔ _
  rw [ofOutcome_eq_ok, defaultBaseDirs, List.mapM_cons, List.mapM_cons, List.mapM_nil]
  refine ⟨fun h => ?_, fun h => ?_⟩
  · obtain ⟨prod, hprod, h⟩ := Checks.bind_eq_ok.mp h
    obtain ⟨rest, hrest, h⟩ := Checks.bind_eq_ok.mp h
    obtain ⟨debug, hdebug, hrest⟩ := Checks.bind_eq_ok.mp hrest
    cases hrest
    cases h
    exact ⟨prod, debug, hprod, hdebug, rfl⟩
  · obtain ⟨prod, debug, hprod, hdebug, rfl⟩ := h
    rw [hprod, hdebug]
    rfl

theorem replay_eq_ok {env : Environment} {plan : SweepPlan} {k : UInt64} {it : Iteration} :
    iterationsOf env (repro plan.seed k) = .ok [it] ↔
      ∃ bases, loadBases env (replayPlan env plan.seed k) = .ok bases ∧
        iteration (replayPlan env plan.seed k) bases k = .ok it := by
  rw [iterationsOf_repro, Checks.bind_eq_ok]
  refine exists_congr fun bases => and_congr_right fun _ => ?_
  rw [Checks.bind_eq_ok]
  refine ⟨fun h => ?_, fun h => ⟨it, ofOutcome_eq_ok.mpr h, rfl⟩⟩
  obtain ⟨it', hit', h⟩ := h
  cases h
  exact ofOutcome_eq_ok.mp hit'

/-- **An iteration replays exactly when the default base cases give it its base case.** -/
theorem replay_iff {env : Environment} {args : List String} {plan : SweepPlan}
    {bases : List BaseCase} (hplan : sweepPlan env args = .ok plan)
    (hbases : loadBases env plan = .ok bases) {k : UInt64} {it : Iteration}
    (hit : iteration plan bases k = .ok it) :
    iterationsOf env (repro plan.seed k) = .ok [it] ↔
      givenBases args = [] ∨ DefaultsAgree env bases (firstDraw (iterationRng plan k)) := by
  obtain ⟨hdefault, hdirs⟩ := sweepPlan_bases hplan
  obtain ⟨-, hselected, hdraws⟩ := iteration_eq_ok.mp hit
  have hrng : iterationRng (replayPlan env plan.seed k) k = iterationRng plan k := rfl
  have hreplay : (replayPlan env plan.seed k).defaultBases = true := rfl
  rw [replay_eq_ok]
  by_cases hgiven : givenBases args = []
  · rw [hgiven, List.isEmpty_nil] at hdefault hdirs
    rw [if_pos rfl] at hdirs
    have hsame : loadBases env (replayPlan env plan.seed k) = loadBases env plan := by
      rw [loadBases, loadBases, hdirs]
      rfl
    refine iff_of_true ⟨bases, hsame.trans hbases, iteration_eq_ok.mpr ⟨.inl rfl, ?_, hdraws⟩⟩
      (.inl hgiven)
    rw [hrng, ← hselected, selectedBase, selectedBase, if_pos hreplay, if_pos hdefault]
  · have hown : plan.defaultBases ≠ true := by
      rw [hdefault]
      simpa using hgiven
    rw [selectedBase, if_neg hown] at hselected
    rw [or_iff_right hgiven]
    refine ⟨fun h => ?_, fun h => ?_⟩
    · obtain ⟨bases', hload, hit'⟩ := h
      obtain ⟨prod, debug, hprod, hdebug, rfl⟩ := loadBases_replayPlan.mp hload
      obtain ⟨-, hselected', -⟩ := iteration_eq_ok.mp hit'
      rw [hrng, selectedBase_replayPlan] at hselected'
      exact ⟨prod, debug, hprod, hdebug, hselected.trans hselected'.symm⟩
    · obtain ⟨prod, debug, hprod, hdebug, hsame⟩ := h
      refine ⟨[prod, debug], loadBases_replayPlan.mpr ⟨prod, debug, hprod, hdebug, rfl⟩,
        iteration_eq_ok.mpr ⟨.inl rfl, ?_, hdraws⟩⟩
      rw [hrng, selectedBase_replayPlan, ← hselected, hsame]

/-- **What a run records replays exactly when its base case is found again.** Every line is about
an iteration in the window and carries its command; and running that command runs this iteration,
if and only if no base case was given, or the default ones agree on the first draw. -/
theorem replays_exactly_iff (env : Environment)
    (runCase : Bytes → Bytes → Int64 → DcapOutcome × QvlOutcome) (args : List String)
    (plan : SweepPlan) (bases : List BaseCase) (hplan : sweepPlan env args = .ok plan)
    (hbases : loadBases env plan = .ok bases) :
    (∀ line ∈ writtenLines runCase plan bases plan.indices, line.iter ∈ plan.indices ∧
      ∃ it, iteration plan bases line.iter = .ok it ∧ line.Records plan it) ∧
    ∀ k ∈ plan.indices, ∀ it, iteration plan bases k = .ok it →
      (iterationsOf env (repro plan.seed k) = .ok [it] ↔
        givenBases args = [] ∨ DefaultsAgree env bases (firstDraw (iterationRng plan k))) :=
  ⟨writtenLines_records plan.indices, fun _ _ _ hit => replay_iff hplan hbases hit⟩

/-! ## A run with a base case of its own -/

/-- A genuine quote whose directory is not one of the default ones. -/
def ownQuote : Bytes := (Synthetic.quote 5 Synthetic.pckChain).encode

/-- Another one, in the directory that a replay reads. -/
def prodQuote : Bytes := (Synthetic.quote 1 Synthetic.pckChain).encode

def ownEnv : Environment where
  read path :=
    if path = "/own/quote.bin" then .ok ⟨ownQuote, by decide +kernel⟩
    else if path = "/fixtures/prod-1/quote.bin" then .ok ⟨prodQuote, by decide +kernel⟩
    else .ok ⟨[0x7b, 0x7d], by decide⟩
  currentTimeUnix _ := some (some 1500)
  fixturesRoot := "/fixtures"
  reports := "/reports"
  loadAllowlist _ := .ok []

/-- This crate, and a QVL that only notes the expiry of the collateral. -/
def expiryCase (quote collateral : Bytes) (currentTime : Int64) : DcapOutcome × QvlOutcome :=
  (runDcap (Synthetic.crates (Synthetic.registry "UpToDate"))
    (fun _ => .ok (Synthetic.collateral "UpToDate")) quote collateral currentTime, .verdict 1 .ok)

/-- The plan of one iteration with seed 1. -/
def onePlan (bases : List String) (defaultBases : Bool) : SweepPlan where
  iters := 1
  onlyIter := none
  allowIters := ∅
  seed := 1
  bases := bases
  defaultBases := defaultBases
  out := "/reports"

def defaultCases : List BaseCase :=
  [⟨"prod-1", prodQuote, [0x7b, 0x7d], 1500, by decide +kernel⟩,
    ⟨"base-debug-enclave", [0x7b, 0x7d], [0x7b, 0x7d], 1500, by decide⟩]

/-- Without `--base` the line of an iteration replays it. -/
theorem default_run_replays :
    ∃ it, iteration (onePlan (defaultBaseDirs ownEnv) true) defaultCases 0 = .ok it ∧
      iterationsOf ownEnv (repro 1 0) = .ok [it] := by
  have hok : (iteration (onePlan (defaultBaseDirs ownEnv) true) defaultCases 0).isOk = true := by
    decide +kernel
  cases hit : iteration (onePlan (defaultBaseDirs ownEnv) true) defaultCases 0 with
  | ok it =>
      refine ⟨it, rfl, ?_⟩
      exact ((replays_exactly_iff ownEnv expiryCase ["--iters", "1", "--seed", "1"] _ defaultCases
        rfl (by decide +kernel)).2 0 (by decide) it hit).mpr (.inl rfl)
  | error e =>
      rw [hit] at hok
      cases hok

def ownBase : BaseCase := ⟨"own", ownQuote, [0x7b, 0x7d], 1500, by decide +kernel⟩

/-- Every line of a run replays. -/
def ReplaysExactly (env : Environment)
    (runCase : Bytes → Bytes → Int64 → DcapOutcome × QvlOutcome) (args : List String) : Prop :=
  ∀ plan bases, sweepPlan env args = .ok plan → loadBases env plan = .ok bases →
    ∀ line ∈ writtenLines runCase plan bases plan.indices,
      ∀ it, iteration plan bases line.iter = .ok it → iterationsOf env line.repro = .ok [it]

/-- The run moves the time of its own base case past the expiry of the certificates, and writes a
line. The command on the line moves the time of a default base case. -/
theorem own_base_lost :
    ¬ReplaysExactly ownEnv expiryCase ["--iters", "1", "--seed", "1", "--base", "/own"] := by
  intro h
  have hbases : loadBases ownEnv (onePlan ["/own"] false) = .ok [ownBase] := by
    decide +kernel
  have hlines : ((writtenLines expiryCase (onePlan ["/own"] false) [ownBase] [0]).map
      fun line => (line.iter, line.base)) = [(0, "own")] := by
    decide +kernel
  have hreplayed : (iterationsOf ownEnv (repro 1 0)).toOption.map
      (fun its => its.map fun it => it.base.name) = some ["prod-1"] := by
    decide +kernel
  obtain ⟨line, hline, hfields⟩ := List.mem_map.mp (hlines ▸ List.mem_singleton_self (0, "own"))
  obtain ⟨-, it, hit, hrecords⟩ := writtenLines_records _ line hline
  have hreplay := h _ _ rfl hbases line hline it hit
  have hiter : line.iter = 0 := congrArg Prod.fst hfields
  have hbase : line.base = "own" := congrArg Prod.snd hfields
  rw [hrecords.repro, hiter] at hreplay
  change iterationsOf ownEnv (repro 1 0) = _ at hreplay
  rw [hreplay, Except.toOption, Option.map_some, List.map_singleton, ← hrecords.base, hbase]
    at hreplayed
  exact absurd hreplayed (by decide)

end DcapVerify.Differ
