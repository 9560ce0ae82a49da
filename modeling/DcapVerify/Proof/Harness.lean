import DcapVerify.Differ.Harness
import DcapVerify.Proof.Marshal
import DcapVerify.Proof.Report

/-!
# What EXPECTED means

CI runs one script and looks at one exit status. Behind it are several processes, each
with arguments that are words for the tool to parse, an allowlist that the script and
each of them read for themselves, and an exit code that stands for a whole run. Put
together, the script ends with success exactly when the recorded findings are the
findings there are: of every corpus, and of the sweep, and each of them on its own.
-/

namespace DcapVerify.Differ

/-! ## Clean runs -/

/-- A case is no defect, and dangerous exactly if it is allowlisted. -/
def AsRecorded {κ : Type} [Ord κ] (allowed : Std.TreeMap κ String) (case : Case κ) : Prop :=
  ¬ Defect case.dcap case.qvl ∧ (Dangerous case.dcap case.qvl ↔ case.key ∈ allowed)

/-- **A run is CLEAN exactly when every case is as recorded.** -/
theorem Explained.clean_iff {κ : Type} [Ord κ] {allowed : Std.TreeMap κ String}
    {inScope : κ → Bool} {cases : List (Case κ)} {tally : Tally}
    (h : Explained allowed inScope cases tally) (hnodup : (cases.map Case.key).Nodup) :
    tally.exitCode = exitClean ↔ ∀ case ∈ cases, AsRecorded allowed case := by
  rw [h.clean, h.distinct hnodup]
  refine ⟨fun hclean case hcase => ?_, fun hall => ⟨?_, ?_, ?_⟩⟩
  · obtain ⟨hdefect, hunrecorded, hvanished⟩ := hclean
    refine ⟨fun hd => hdefect ⟨case, hcase, hd⟩, fun hd => ?_, fun hkey => ?_⟩
    · by_contra hkey
      exact hunrecorded ⟨case, hcase, hd, hkey⟩
    · by_contra hd
      exact hvanished ⟨case, hcase, hkey, hd⟩
  · rintro ⟨case, hcase, hd⟩
    exact (hall case hcase).1 hd
  · rintro ⟨case, hcase, hd, hkey⟩
    exact hkey ((hall case hcase).2.mp hd)
  · rintro ⟨case, hcase, hkey, hd⟩
    exact hd ((hall case hcase).2.mpr hkey)

section

variable {runCase : Bytes → Bytes → Int64 → DcapOutcome × QvlOutcome}
  {plan : SweepPlan} {bases : List BaseCase}

/-- An iteration with its outcomes. -/
def Iteration.case (runCase : Bytes → Bytes → Int64 → DcapOutcome × QvlOutcome) (i : UInt64)
    (it : Iteration) : Case UInt64 :=
  ⟨i, (runCase it.mutated.quote it.mutated.collateral it.mutated.currentTime).1,
    (runCase it.mutated.quote it.mutated.collateral it.mutated.currentTime).2⟩

theorem Judges.case_eq {j : Judged} (h : Judges runCase plan bases j) :
    j.it.case runCase j.iter = j.case := by
  rw [Iteration.case, h.outcomes]
  rfl

theorem Ran.explained {js : List Judged} {state : SweepState}
    (h : Ran runCase plan bases js state) :
    Explained plan.allowIters plan.inWindow (js.map Judged.case)
      (countVanished plan.allowIters plan.inWindow state.run) := by
  have hscope (k : UInt64) : plan.inWindow k = true ↔
      ∃ case ∈ js.map Judged.case, case.key = k := by
    rw [← SweepOpts.mem_indices, ← h.iters]
    simp only [List.mem_map, exists_exists_and_eq_and]
    rfl
  obtain ⟨tally, htally, hexplained⟩ := tallyRun_explained plan.allowIters hscope
  rw [tallyRun, h.run, Checks.ok_bind, Checks.pure_eq_ok] at htally
  rwa [htally]

/-- **A sweep is CLEAN exactly when every iteration is as recorded.** -/
theorem clean_sweep_iff :
    (∃ r, sweepReport runCase plan bases = .ok r ∧ r.tally.exitCode = exitClean) ↔
      ∀ i ∈ plan.indices, ∃ it, iteration plan bases i = .ok it ∧
        AsRecorded plan.allowIters (it.case runCase i) := by
  have hclean {js : List Judged} {state : SweepState} (h : Ran runCase plan bases js state) :
      (countVanished plan.allowIters plan.inWindow state.run).exitCode = exitClean ↔
        ∀ j ∈ js, AsRecorded plan.allowIters j.case := by
    have hkeys : ((js.map Judged.case).map Case.key).Nodup := by
      rw [List.map_map]
      exact nodup_iters h
    rw [h.explained.clean_iff hkeys, List.forall_mem_map]
  refine ⟨fun h => ?_, fun h => ?_⟩
  · obtain ⟨r, hr, hexit⟩ := h
    obtain ⟨js, state, hran, rfl⟩ := sweepReport_eq_ok hr
    intro i hi
    rw [← hran.iters] at hi
    obtain ⟨j, hj, rfl⟩ := List.mem_map.mp hi
    have hjudged := hran.judged j hj
    exact ⟨j.it, hjudged.drawn, hjudged.case_eq ▸ (hclean hran).mp hexit j hj⟩
  · obtain ⟨r, hr⟩ := sweepReport_returns.mpr fun i hi => (h i hi).imp fun it hit => hit.1
    obtain ⟨js, state, hran, rfl⟩ := sweepReport_eq_ok hr
    refine ⟨_, hr, (hclean hran).mpr fun j hj => ?_⟩
    have hjudged := hran.judged j hj
    obtain ⟨it, hit, hrecorded⟩ := h j.iter (hran.iters ▸ List.mem_map_of_mem hj)
    obtain rfl := Except.ok.inj (hjudged.drawn.symm.trans hit)
    exact hjudged.case_eq ▸ hrecorded

end

/-! ## The allowlist -/

/-- An entry is for a seed when its own parses to it. -/
def AllowSweep.For (k : AllowSweep) (seed : UInt64) : Prop := parseHexU64 k.seed = .ok seed

section

variable {env : Environment} {path : String} {seed : UInt64} {entries : List AllowSweep}

/-- The test that `allowIters` filters by. -/
def ofSeed (seed : UInt64) (k : AllowSweep) : Process Bool := do
  let entrySeed ← parseHexU64 k.seed
  .ok (entrySeed == seed)

/-- The allowlist of a seed is read when every entry has one. -/
theorem allowIters_eq_ok (hload : env.loadAllowlist path = .ok entries)
    {allowed : Std.TreeMap UInt64 String} : allowIters env (some path) seed = .ok allowed ↔
      (∀ k ∈ entries, ∃ seed', k.For seed') ∧
        allowed = Std.TreeMap.ofList ((entries.filter (Checks.holds (ofSeed seed))).map
          fun k => (k.iter, k.finding)) := by
  have hparses (k : AllowSweep) : (∃ b, ofSeed seed k = .ok b) ↔ ∃ seed', k.For seed' := by
    simp only [ofSeed, AllowSweep.For]
    cases parseHexU64 k.seed <;> simp
  rw [allowIters, hload]
  show ((entries.filterM (ofSeed seed)) >>= fun kept => _) = .ok allowed ↔ _
  rw [Checks.bind_eq_ok]
  simp only [Checks.filterM_eq_ok, hparses]
  refine ⟨fun h => ?_, fun h => ?_⟩
  · obtain ⟨kept, ⟨hall, rfl⟩, h⟩ := h
    exact ⟨hall, (Except.ok.inj h).symm⟩
  · obtain ⟨hall, rfl⟩ := h
    exact ⟨_, ⟨hall, rfl⟩, rfl⟩

theorem mem_allowIters (hload : env.loadAllowlist path = .ok entries)
    {allowed : Std.TreeMap UInt64 String} (h : allowIters env (some path) seed = .ok allowed)
    {i : UInt64} : i ∈ allowed ↔ ∃ k ∈ entries, k.For seed ∧ k.iter = i := by
  have hholds (k : AllowSweep) : Checks.holds (ofSeed seed) k = true ↔ k.For seed := by
    rw [Checks.holds, ofSeed, AllowSweep.For]
    cases parseHexU64 k.seed <;> simp [Except.toOption]
  obtain ⟨-, rfl⟩ := (allowIters_eq_ok hload).mp h
  rw [Std.TreeMap.mem_ofList, List.contains_iff_mem, List.map_map, List.mem_map]
  simp only [List.mem_filter, hholds, and_assoc]
  rfl

end

/-! ## Plans -/

/-- The plan of a run on the default base cases. -/
def defaultPlan (env : Environment) (seed iters : UInt64) (onlyIter : Option UInt64) (out : String)
    (allowed : Std.TreeMap UInt64 String) : SweepPlan where
  iters := iters
  onlyIter := onlyIter
  allowIters := allowed
  seed := seed
  bases := defaultBaseDirs env
  defaultBases := true
  out := out

section

variable (flags : SweepFlags)

theorem sweepFlag_iters (value : String) : sweepFlag flags "--iters" value = (do
    let iters ← expectNumber value "--iters takes a number"
    .ok { flags with iters := some iters }) := by
  simp [sweepFlag]

theorem sweepFlag_seed (value : String) : sweepFlag flags "--seed" value = (do
    let seed ← parseHexU64 value
    .ok { flags with seed }) := by
  simp [sweepFlag]

theorem sweepFlag_onlyIter (value : String) : sweepFlag flags "--only-iter" value = (do
    let onlyIter ← expectNumber value "--only-iter takes a number"
    .ok { flags with onlyIter := some onlyIter }) := by
  simp [sweepFlag]

theorem sweepFlag_out (value : String) :
    sweepFlag flags "--out" value = .ok { flags with out := value } := by
  simp [sweepFlag]

theorem sweepFlag_allow (value : String) :
    sweepFlag flags "--allow" value = .ok { flags with allow := some value } := by
  simp [sweepFlag]

end

theorem expectNumber_eq_ok {value msg : String} {n : UInt64} :
    expectNumber value msg = .ok n ↔ fromStrRadix 10 value = some n := by
  unfold expectNumber
  cases fromStrRadix 10 value <;> simp

theorem sweepPlan_replay (env : Environment) (k : ReplayEntry) :
    sweepPlan env (replayArgs k).tail = (do
      let seed ← parseHexU64 k.seed
      let i ← expectNumber k.iter "--only-iter takes a number"
      let allowed ← allowIters env (some allowFile) seed
      .ok (defaultPlan env seed 1 (some i) "dcap-differ/reports/mise-replay" allowed)) := by
  have hone (msg : String) : expectNumber "1" msg = .ok 1 := expectNumber_eq_ok.mpr (by decide)
  rw [sweepPlan, replayArgs, List.tail_cons]
  simp only [sweepFlags, sweepFlag_seed, sweepFlag_iters, sweepFlag_onlyIter, sweepFlag_allow,
    sweepFlag_out, hone, bind_assoc, Checks.ok_bind]
  rfl

theorem sweepPlan_sweep (env : Environment) (iters : String) :
    sweepPlan env (sweepArgs iters).tail = (do
      let n ← expectNumber iters "--iters takes a number"
      let allowed ← allowIters env (some allowFile) 0xDCAF00000011
      .ok (defaultPlan env 0xDCAF00000011 n none "dcap-differ/reports/mise-run" allowed)) := by
  have hseed : parseHexU64 harnessSeed = .ok 0xDCAF00000011 := by decide
  rw [sweepPlan, sweepArgs, List.tail_cons]
  simp only [sweepFlags, sweepFlag_seed, sweepFlag_iters, sweepFlag_allow, sweepFlag_out, hseed,
    bind_assoc, Checks.ok_bind]
  rfl

/-! ## The status of a process -/

/-- A process that ends early ends with 1, with 2 or in a panic. -/
def Halt.Fails (h : Halt) : Prop := ∀ code, h = .exit code → code = 1 ∨ code = 2

theorem Halt.fails_fault (f : Fault) : (Halt.fault f).Fails := by
  intro code h
  cases h

theorem Halt.fails_one : (Halt.exit 1).Fails := by
  intro code h
  cases h
  exact .inl rfl

theorem Halt.fails_two : (Halt.exit 2).Fails := by
  intro code h
  cases h
  exact .inr rfl

abbrev FailsOnly {α : Type} (m : Process α) : Prop := Checks.Raises Halt.Fails m

theorem failsOnly_ofOutcome {α : Type} (m : Outcome α) : FailsOnly (ofOutcome m) :=
  .mapError fun f _ => Halt.fails_fault f

theorem failsOnly_parseHexU64 (s : String) : FailsOnly (parseHexU64 s) := by
  simp only [parseHexU64]
  split
  · exact .ok _
  · exact .error Halt.fails_two

theorem failsOnly_expectNumber (value msg : String) : FailsOnly (expectNumber value msg) := by
  unfold expectNumber
  split
  · exact .ok _
  · exact .error (Halt.fails_fault _)

theorem failsOnly_sweepFlag (flags : SweepFlags) (flag value : String) :
    FailsOnly (sweepFlag flags flag value) := by
  unfold sweepFlag
  split_ifs
  · exact (failsOnly_expectNumber _ _).bind fun _ _ => .ok _
  · exact (failsOnly_parseHexU64 _).bind fun _ _ => .ok _
  · exact .ok _
  · exact (failsOnly_expectNumber _ _).bind fun _ _ => .ok _
  · exact .ok _
  · exact .ok _
  · exact .error Halt.fails_two

theorem failsOnly_sweepFlags (args : List String) :
    ∀ flags, FailsOnly (sweepFlags flags args) := by
  induction args using givenBases.induct with
  | case1 value args ih => exact fun flags => (failsOnly_sweepFlag _ _ _).bind fun _ _ => ih _
  | case2 flag value args _ ih =>
      exact fun flags => (failsOnly_sweepFlag _ _ _).bind fun _ _ => ih _
  | case3 flag => exact fun flags => .error Halt.fails_two
  | case4 => exact fun flags => .ok _

theorem failsOnly_allowIters (env : Environment) (allow : Option String) (seed : UInt64) :
    FailsOnly (allowIters env allow seed) := by
  cases allow with
  | none => exact .ok _
  | some path =>
      refine (failsOnly_ofOutcome _).bind fun entries _ => .bind ?_ fun _ _ => .ok _
      exact .filterM fun k _ => (failsOnly_parseHexU64 _).bind fun _ _ => .ok _

theorem failsOnly_sweepPlan (env : Environment) (args : List String) :
    FailsOnly (sweepPlan env args) := by
  refine (failsOnly_sweepFlags _ _).bind fun flags _ => ?_
  cases flags.iters with
  | none => exact .error Halt.fails_two
  | some iters => exact (failsOnly_allowIters _ _ _).bind fun _ _ => .ok _

theorem failsOnly_fixturesFlags (flags : World.FixturesFlags) (args : List String) :
    FailsOnly (World.fixturesFlags flags args) := by
  fun_induction World.fixturesFlags flags args with
  | case1 flags => exact .ok _
  | case2 flags flag => exact .error Halt.fails_two
  | case3 flags value args ih => exact ih
  | case4 flags value args _ ih => exact ih
  | case5 flags flag value args => exact .error Halt.fails_two

theorem failsOnly_calibrateFlags (caseDir : String) (args : List String) :
    FailsOnly (World.calibrateFlags caseDir args) := by
  fun_induction World.calibrateFlags caseDir args with
  | case1 caseDir => exact .ok _
  | case2 caseDir flag => exact .error Halt.fails_two
  | case3 caseDir value args ih => exact ih
  | case4 caseDir flag value args => exact .error Halt.fails_two

theorem failsOnly_command (args : List String) : FailsOnly (command args) := by
  cases args with
  | nil => exact .error Halt.fails_two
  | cons name args =>
      rw [command]
      split_ifs
      · exact .ok _
      · exact .ok _
      · exact .ok _
      · exact .error Halt.fails_two

section

variable (w : World)

theorem failsOnly_calibrateCmd (args : List String) : FailsOnly (w.calibrateCmd args) := by
  refine (failsOnly_calibrateFlags _ _).bind fun dir _ =>
    (failsOnly_ofOutcome _).bind fun cfg _ => ?_
  cases cfg with
  | some cfg => exact .ok _
  | none => exact .error Halt.fails_one

theorem failsOnly_fixtures (args : List String) : FailsOnly (w.fixtures args) := by
  refine (failsOnly_fixturesFlags _ _).bind fun flags _ => .bind ?_ fun allowlist _ =>
    (failsOnly_ofOutcome _).bind fun _ _ => (failsOnly_ofOutcome _).bind fun _ _ =>
      (failsOnly_ofOutcome _).bind fun _ _ => .ok _
  cases flags.allow with
  | none => exact .ok _
  | some path => exact failsOnly_ofOutcome _

theorem failsOnly_sweepCmd (args : List String) : FailsOnly (w.sweepCmd args) :=
  (failsOnly_sweepPlan _ _).bind fun _ _ => (failsOnly_ofOutcome _).bind fun _ _ =>
    (failsOnly_ofOutcome _).bind fun _ _ => .ok _

theorem failsOnly_differ (args : List String) : FailsOnly (w.differ args) := by
  refine (failsOnly_command args).bind fun cmd _ => ?_
  cases cmd with
  | calibrate args => exact failsOnly_calibrateCmd w args
  | fixtures args => exact failsOnly_fixtures w args
  | sweep args => exact failsOnly_sweepCmd w args

/-- **The status is CLEAN only of a run that ended and was.** -/
theorem status_eq_clean (args : List String) :
    w.status args = exitClean ↔ w.differ args = .ok exitClean := by
  cases hrun : w.differ args with
  | ok code =>
      rw [World.status, hrun]
      exact (Except.ok.injEq _ _).to_iff.symm
  | error halt =>
      rw [World.status, hrun]
      refine iff_of_false ?_ fun h => by cases h
      cases halt with
      | fault f => exact show (101 : Int32) ≠ exitClean by decide
      | exit code =>
          rcases failsOnly_differ w args _ hrun code rfl with rfl | rfl
          · exact show Int32.ofNat 1 ≠ exitClean by decide
          · exact show Int32.ofNat 2 ≠ exitClean by decide

end

/-! ## The legs -/

/-- A recorded verdict on a case: no defect, and dangerous exactly if there is an entry. -/
def Recorded {κ : Type} (case : Case κ) (entry : Prop) : Prop :=
  ¬ Defect case.dcap case.qvl ∧ (Dangerous case.dcap case.qvl ↔ entry)

namespace World

variable (w : World)

/-- Some cell of the table passes, which need not be the one that the other legs use. -/
def Calibrated : Prop := ∃ quote collateral time raw,
  w.readFile (joinPath (joinPath w.fixturesRoot "prod-1") "quote.bin") = .ok quote ∧
  w.readFile (joinPath (joinPath w.fixturesRoot "prod-1") "collateral.json") = .ok collateral ∧
  w.loadMeta (joinPath w.fixturesRoot "prod-1") = .ok time ∧
  rawCollateralFromSlice w.serde collateral = .ok raw ∧
  ∃ cfg ∈ calibrationCells, cellPasses w.qvl quote raw time cfg = true

/-- A corpus is as the allowlist has it. -/
def Matches (root : String) : Prop := ∃ allowlist dirs cases,
  w.loadAllowCases allowFile = .ok allowlist ∧ w.caseDirs root = .ok dirs ∧
  dirs.val.mapM w.fixtureCase = .ok cases ∧
  ∀ case ∈ cases, Recorded case (∃ entry ∈ allowlist, entry.case = case.key)

/-- What the default base cases give at an iteration of a seed. -/
def Draws (bases : List BaseCase) (seed i : UInt64) (it : Iteration) : Prop :=
  loadBases w.toEnvironment (replayPlan w.toEnvironment seed i) = .ok bases ∧
    iteration (replayPlan w.toEnvironment seed i) bases i = .ok it

/-- The `sweep` entries that the tool reads, each for some seed. -/
def Lists (entries : List AllowSweep) : Prop :=
  w.loadAllowlist allowFile = .ok entries ∧ ∀ k ∈ entries, ∃ seed, k.For seed

/-- An iteration of a seed is as the entries have it. -/
def AsListed (entries : List AllowSweep) (bases : List BaseCase) (seed i : UInt64) : Prop :=
  ∃ it, w.Draws bases seed i it ∧
    Recorded (it.case w.outcomes i) (∃ k ∈ entries, k.For seed ∧ k.iter = i)

/-- The iteration that the words of the script's entry name is as the tool has it. -/
def Reproduces (k : ReplayEntry) : Prop := ∃ seed i entries bases,
  parseHexU64 k.seed = .ok seed ∧ fromStrRadix 10 k.iter = some i ∧ w.Lists entries ∧
  w.AsListed entries bases seed i

/-- So are the iterations of the script's own seed, as many as the word says. -/
def Swept (iters : String) : Prop := ∃ n entries bases,
  fromStrRadix 10 iters = some n ∧ w.Lists entries ∧
  loadBases w.toEnvironment (replayPlan w.toEnvironment 0xDCAF00000011 0) = .ok bases ∧
  ∀ i < n, w.AsListed entries bases 0xDCAF00000011 i

/-- The corpora of the `fixtures` step. -/
def corpora (fullCorpus : Bool) : List String :=
  [w.fixturesRoot, "dcap-differ/corpus-committed"] ++
    if fullCorpus then ["dcap-differ/corpus"] else []

end World

section

variable {w : World}

theorem calibration_eq_ok {dir : String} {chosen : Option MarshalConfig} :
    w.calibration dir = .ok chosen ↔ ∃ quote collateral time raw,
      w.readFile (joinPath dir "quote.bin") = .ok quote ∧
      w.readFile (joinPath dir "collateral.json") = .ok collateral ∧
      w.loadMeta dir = .ok time ∧ rawCollateralFromSlice w.serde collateral = .ok raw ∧
      calibrate w.qvl quote raw time = chosen := by
  simp only [World.calibration, Checks.bind_eq_ok]
  refine ⟨fun h => ?_, fun h => ?_⟩
  · obtain ⟨quote, hquote, collateral, hcollateral, time, htime, h⟩ := h
    cases hraw : rawCollateralFromSlice w.serde collateral with
    | error e =>
        rw [hraw] at h
        cases h
    | ok raw =>
        rw [hraw] at h
        exact ⟨quote, collateral, time, raw, hquote, hcollateral, htime, hraw, Except.ok.inj h⟩
  · obtain ⟨quote, collateral, time, raw, hquote, hcollateral, htime, hraw, rfl⟩ := h
    exact ⟨quote, hquote, collateral, hcollateral, time, htime, by rw [hraw]⟩

theorem calibrate_clean : w.status ["calibrate"] = exitClean ↔ w.Calibrated := by
  have hrun : w.differ ["calibrate"] = .ok exitClean ↔
      ∃ cfg, w.calibration (joinPath w.fixturesRoot "prod-1") = .ok (some cfg) := by
    show (ofOutcome (w.calibration (joinPath w.fixturesRoot "prod-1")) >>= fun chosen => _) =
      .ok exitClean ↔ _
    rw [Checks.bind_eq_ok]
    simp only [ofOutcome_eq_ok]
    refine ⟨fun h => ?_, fun h => ?_⟩
    · obtain ⟨chosen, hchosen, h⟩ := h
      cases chosen with
      | none => cases h
      | some cfg => exact ⟨cfg, hchosen⟩
    · obtain ⟨cfg, hchosen⟩ := h
      exact ⟨some cfg, hchosen, rfl⟩
  rw [status_eq_clean, hrun, World.Calibrated]
  simp only [calibration_eq_ok]
  refine ⟨fun h => ?_, fun h => ?_⟩
  · obtain ⟨cfg, quote, collateral, time, raw, hquote, hcollateral, htime, hraw, hcfg⟩ := h
    exact ⟨quote, collateral, time, raw, hquote, hcollateral, htime, hraw, cfg,
      calibrate_passes hcfg⟩
  · obtain ⟨quote, collateral, time, raw, hquote, hcollateral, htime, hraw, cell, hcell, hpass⟩ := h
    obtain ⟨cfg, hcfg⟩ : ∃ cfg, calibrate w.qvl quote raw time = some cfg := by
      refine Option.ne_none_iff_exists'.mp fun hnone => ?_
      have hfail := calibrate_eq_none.mp hnone cell hcell
      rw [hpass] at hfail
      cases hfail
    exact ⟨cfg, quote, collateral, time, raw, hquote, hcollateral, htime, hraw, hcfg⟩

theorem sweepCmd_clean {args : List String} : w.sweepCmd args = .ok exitClean ↔
    ∃ plan bases, sweepPlan w.toEnvironment args = .ok plan ∧
      loadBases w.toEnvironment plan = .ok bases ∧
      ∀ i ∈ plan.indices, ∃ it, iteration plan bases i = .ok it ∧
        AsRecorded plan.allowIters (it.case w.outcomes i) := by
  rw [World.sweepCmd, Checks.bind_eq_ok]
  refine exists_congr fun plan => ?_
  simp only [Checks.bind_eq_ok, ofOutcome_eq_ok, Except.ok.injEq, ← clean_sweep_iff]
  refine ⟨fun h => ?_, fun h => ?_⟩
  · obtain ⟨hplan, bases, hbases, hrun⟩ := h
    exact ⟨bases, hplan, hbases, hrun⟩
  · obtain ⟨bases, hplan, hbases, hrun⟩ := h
    exact ⟨hplan, bases, hbases, hrun⟩

theorem lists_of_allowIters {seed : UInt64} {allowed : Std.TreeMap UInt64 String}
    (h : allowIters w.toEnvironment (some allowFile) seed = .ok allowed) :
    ∃ entries, w.Lists entries := by
  obtain ⟨entries, hload, -⟩ := Checks.bind_eq_ok.mp h
  rw [ofOutcome_eq_ok] at hload
  exact ⟨entries, hload, ((allowIters_eq_ok hload).mp h).1⟩

section

variable {entries : List AllowSweep} (hlists : w.Lists entries)

include hlists

theorem allowIters_of_lists (seed : UInt64) :
    ∃ allowed, allowIters w.toEnvironment (some allowFile) seed = .ok allowed :=
  ⟨_, (allowIters_eq_ok hlists.1).mpr ⟨hlists.2, rfl⟩⟩

theorem asRecorded_iff {seed : UInt64} {allowed : Std.TreeMap UInt64 String}
    (hallowed : allowIters w.toEnvironment (some allowFile) seed = .ok allowed)
    {case : Case UInt64} :
    AsRecorded allowed case ↔ Recorded case (∃ k ∈ entries, k.For seed ∧ k.iter = case.key) := by
  rw [AsRecorded, mem_allowIters hlists.1 hallowed, Recorded]

end

theorem replay_clean {k : ReplayEntry} :
    w.status (replayArgs k) = exitClean ↔ w.Reproduces k := by
  have hargs : w.differ (replayArgs k) = w.sweepCmd (replayArgs k).tail := rfl
  rw [status_eq_clean, hargs, sweepCmd_clean, sweepPlan_replay]
  refine ⟨fun h => ?_, fun h => ?_⟩
  · obtain ⟨plan, bases, hplan, hbases, hall⟩ := h
    obtain ⟨seed, hseed, hplan⟩ := Checks.bind_eq_ok.mp hplan
    obtain ⟨i, hi, hplan⟩ := Checks.bind_eq_ok.mp hplan
    obtain ⟨allowed, hallowed, hplan⟩ := Checks.bind_eq_ok.mp hplan
    cases hplan
    obtain ⟨entries, hlists⟩ := lists_of_allowIters hallowed
    obtain ⟨it, hit, hrecorded⟩ := hall i (List.mem_singleton_self _)
    exact ⟨seed, i, entries, bases, hseed, expectNumber_eq_ok.mp hi, hlists, it, ⟨hbases, hit⟩,
      (asRecorded_iff hlists hallowed).mp hrecorded⟩
  · obtain ⟨seed, i, entries, bases, hseed, hi, hlists, it, ⟨hbases, hit⟩, hrecorded⟩ := h
    obtain ⟨allowed, hallowed⟩ := allowIters_of_lists hlists seed
    refine ⟨_, bases, Checks.bind_eq_ok.mpr ⟨seed, hseed, Checks.bind_eq_ok.mpr
      ⟨i, expectNumber_eq_ok.mpr hi, Checks.bind_eq_ok.mpr ⟨allowed, hallowed, rfl⟩⟩⟩, hbases,
      fun i' hi' => ?_⟩
    obtain rfl := List.mem_singleton.mp hi'
    exact ⟨it, hit, (asRecorded_iff hlists hallowed).mpr hrecorded⟩

theorem mem_indices_sweep {env : Environment} {seed iters i : UInt64} {out : String}
    {allowed : Std.TreeMap UInt64 String} :
    i ∈ (defaultPlan env seed iters none out allowed).indices ↔ i < iters :=
  SweepOpts.mem_indices.trans decide_eq_true_iff

theorem sweep_clean {iters : String} : w.status (sweepArgs iters) = exitClean ↔ w.Swept iters := by
  have hargs : w.differ (sweepArgs iters) = w.sweepCmd (sweepArgs iters).tail := rfl
  rw [status_eq_clean, hargs, sweepCmd_clean, sweepPlan_sweep]
  refine ⟨fun h => ?_, fun h => ?_⟩
  · obtain ⟨plan, bases, hplan, hbases, hall⟩ := h
    obtain ⟨n, hn, hplan⟩ := Checks.bind_eq_ok.mp hplan
    obtain ⟨allowed, hallowed, hplan⟩ := Checks.bind_eq_ok.mp hplan
    cases hplan
    obtain ⟨entries, hlists⟩ := lists_of_allowIters hallowed
    refine ⟨n, entries, bases, expectNumber_eq_ok.mp hn, hlists, hbases, fun i hi => ?_⟩
    obtain ⟨it, hit, hrecorded⟩ := hall i (mem_indices_sweep.mpr hi)
    exact ⟨it, ⟨hbases, hit⟩, (asRecorded_iff hlists hallowed).mp hrecorded⟩
  · obtain ⟨n, entries, bases, hn, hlists, hbases, hall⟩ := h
    obtain ⟨allowed, hallowed⟩ := allowIters_of_lists hlists 0xDCAF00000011
    refine ⟨_, bases, Checks.bind_eq_ok.mpr ⟨n, expectNumber_eq_ok.mpr hn,
      Checks.bind_eq_ok.mpr ⟨allowed, hallowed, rfl⟩⟩, hbases, fun i hi => ?_⟩
    obtain ⟨it, ⟨-, hit⟩, hrecorded⟩ := hall i (mem_indices_sweep.mp hi)
    exact ⟨it, hit, (asRecorded_iff hlists hallowed).mpr hrecorded⟩

/-! ### Corpora -/

theorem fixtureCase_key {dir : String} {case : Case String}
    (h : w.fixtureCase dir = .ok case) : fileName dir = some case.key := by
  rw [World.fixtureCase] at h
  split at h
  · cases h
  · rename_i name hname
    obtain ⟨quote, -, h⟩ := Checks.bind_eq_ok.mp h
    obtain ⟨collateral, -, h⟩ := Checks.bind_eq_ok.mp h
    obtain ⟨time, -, h⟩ := Checks.bind_eq_ok.mp h
    cases h
    exact hname

/-- No two cases of a corpus have one name. -/
theorem nodup_keys {dirs : { dirs : List String // (dirs.map fileName).Nodup }}
    {cases : List (Case String)} (h : dirs.val.mapM w.fixtureCase = .ok cases) :
    (cases.map Case.key).Nodup := by
  have hnames : dirs.val.map fileName = (cases.map Case.key).map some := by
    have hcases := Checks.mapM_eq_ok.mp h
    clear h
    generalize dirs.val = ds at hcases
    induction hcases with
    | nil => rfl
    | cons hcase _ ih =>
        rw [List.map_cons, fixtureCase_key hcase, ih]
        rfl
  have hnodup := dirs.property
  rw [hnames] at hnodup
  exact hnodup.of_map

/-- What `fixtures` does after its flags. -/
theorem fixtures_clean {flags : World.FixturesFlags} {args : List String}
    (hflags : World.fixturesFlags { root := w.fixturesRoot } args = .ok flags)
    (hallow : flags.allow = some allowFile) :
    w.fixtures args = .ok exitClean ↔ w.Matches flags.root := by
  have hcmd (allowlist : List AllowCase) {cases : List (Case String)}
      {dirs : { dirs : List String // (dirs.map fileName).Nodup }}
      (hcases : dirs.val.mapM w.fixtureCase = .ok cases) :
      (∃ tally, fixturesCmd allowlist cases = .ok tally ∧ tally.exitCode = exitClean) ↔
        ∀ case ∈ cases, Recorded case (∃ entry ∈ allowlist, entry.case = case.key) := by
    have hscope (name : String) : present cases name = true ↔ ∃ case ∈ cases, case.key = name :=
      present_iff
    obtain ⟨tally, hrun, hexplained⟩ := tallyRun_explained (allowedCases allowlist) hscope
    have hclean := hexplained.clean_iff (nodup_keys hcases)
    simp only [AsRecorded, mem_allowedCases] at hclean
    refine ⟨fun h => ?_, fun h => ⟨tally, hrun, hclean.mpr h⟩⟩
    obtain ⟨tally', hrun', hexit⟩ := h
    obtain rfl := Except.ok.inj (hrun.symm.trans hrun')
    exact hclean.mp hexit
  rw [World.fixtures, hflags, Checks.ok_bind, hallow]
  simp only [World.allowCases, Checks.bind_eq_ok, ofOutcome_eq_ok, Except.ok.injEq]
  refine exists_congr fun allowlist => ⟨fun h => ?_, fun h => ?_⟩
  · obtain ⟨hload, dirs, hdirs, cases, hcases, hrun⟩ := h
    exact ⟨dirs, cases, hload, hdirs, hcases, (hcmd allowlist hcases).mp hrun⟩
  · obtain ⟨dirs, cases, hload, hdirs, hcases, hall⟩ := h
    exact ⟨hload, dirs, hdirs, cases, hcases, (hcmd allowlist hcases).mpr hall⟩

theorem corpora_clean {fullCorpus : Bool} :
    (∀ args ∈ fixturesArgs fullCorpus, w.status args = exitClean) ↔
      ∀ root ∈ w.corpora fullCorpus, w.Matches root := by
  have hdefault : w.status ["fixtures", "--allow", allowFile] = exitClean ↔
      w.Matches w.fixturesRoot := by
    have hflags : World.fixturesFlags { root := w.fixturesRoot } ["--allow", allowFile] =
        .ok ⟨w.fixturesRoot, some allowFile⟩ := by
      simp [World.fixturesFlags]
    exact (status_eq_clean w _).trans (fixtures_clean hflags rfl)
  have hroot (root : String) :
      w.status ["fixtures", "--root", root, "--allow", allowFile] = exitClean ↔ w.Matches root := by
    have hflags : World.fixturesFlags { root := w.fixturesRoot }
        ["--root", root, "--allow", allowFile] = .ok ⟨root, some allowFile⟩ := by
      simp [World.fixturesFlags]
    exact (status_eq_clean w _).trans (fixtures_clean hflags rfl)
  cases fullCorpus <;> simp [fixturesArgs, World.corpora, hdefault, hroot]

end

theorem forall_mem_leg {α : Type} {p : Prop} [Decidable p] {xs : List α} {P : α → Prop} :
    (∀ x ∈ if p then xs else [], P x) ↔ (p → ∀ x ∈ xs, P x) := by
  split_ifs with h <;> simp [h]

/--
**What EXPECTED means.**

The script ends with success exactly when the tool was built and each leg that the step
names found what is recorded: some marshaling passes calibration; in every corpus the
dangerous cases are the allowlisted ones and none is a defect; every iteration that the
script reads from the list is, run alone, no defect, and dangerous exactly if the tool
reads it there as well; and so are the iterations of the sweep. No failure on the way, of a
file, a flag, a seed, a number, a list that the script cannot read or a verifier that
panics, is taken for success.
-/
theorem harness_expected_iff (w : World) (s : Script) : harness w s = 0 ↔ s.build = 0 ∧
    (s.Runs "calibrate" → w.Calibrated) ∧
    (s.Runs "fixtures" → ∀ root ∈ w.corpora s.fullCorpus, w.Matches root) ∧
    (s.Runs "replay" → ∃ entries, s.entries = some entries ∧ ∀ k ∈ entries, w.Reproduces k) ∧
    (s.Runs "sweep" → w.Swept s.iters) := by
  have hlegs (entries : List ReplayEntry) :
      (∀ args ∈ s.legs entries, w.status args = exitClean) ↔
        (s.Runs "calibrate" → w.Calibrated) ∧
        (s.Runs "fixtures" → ∀ root ∈ w.corpora s.fullCorpus, w.Matches root) ∧
        (s.Runs "replay" → ∀ k ∈ entries, w.Reproduces k) ∧
        (s.Runs "sweep" → w.Swept s.iters) := by
    simp only [Script.legs, List.forall_mem_append, forall_mem_leg, List.forall_mem_map,
      List.forall_mem_singleton, and_assoc, calibrate_clean, corpora_clean, replay_clean,
      sweep_clean]
  have hverdict (entries : List ReplayEntry) :
      (if ∀ args ∈ s.legs entries, w.status args = exitClean then 0 else 1 : Int32) = 0 ↔ _ :=
    (ite_eq_left_iff.trans (by simp)).trans (hlegs entries)
  by_cases hbuild : s.build = 0
  · rw [harness, if_neg (not_not.mpr hbuild), and_iff_right hbuild]
    by_cases hreads : s.Runs "replay"
    · rw [if_pos hreads]
      cases hentries : s.entries with
      | none =>
          refine iff_of_false (show (1 : Int32) ≠ 0 by decide) fun h => ?_
          obtain ⟨entries, hsome, -⟩ := h.2.2.1 hreads
          cases hsome
      | some entries =>
          rw [hverdict]
          simp only [Option.some.injEq, exists_eq_left']
    · rw [if_neg hreads, hverdict]
      simp only [hreads, false_implies]
  · rw [harness, if_pos hbuild]
    exact iff_of_false hbuild fun h => hbuild h.1

end DcapVerify.Differ
