import DcapVerify.Proof.Report

/-!
# A sweep in parts

`--only-iter` runs one iteration. Every iteration seeds a generator of its own and is
judged alone, so a sweep is the sum of such runs: the same lines, the same dumps, the
same counters, and the worst of their exit codes. What needs an argument is the loop at
the end. A sweep goes through its allowlist once, and each part goes through it again.
-/

namespace DcapVerify.Differ

/-- The run of one iteration. -/
def SweepPlan.only (plan : SweepPlan) (k : UInt64) : SweepPlan :=
  { plan with iters := 1, onlyIter := some k }

/-! ## Sums of tallies -/

def Tally.plus (a b : Tally) : Tally where
  agreeAccept := a.agreeAccept + b.agreeAccept
  agreeReject := a.agreeReject + b.agreeReject
  knownDelta := a.knownDelta + b.knownDelta
  unexplainedSafe := a.unexplainedSafe + b.unexplainedSafe
  dangerous := a.dangerous + b.dangerous
  dangerousKnown := a.dangerousKnown + b.dangerousKnown
  vanished := a.vanished + b.vanished
  standingMismatch := a.standingMismatch + b.standingMismatch
  dcapPanic := a.dcapPanic + b.dcapPanic

def Tally.sum (tallies : List Tally) : Tally := tallies.foldr Tally.plus {}

/-- The worst of several exit codes. -/
def worst (codes : List Int32) : Int32 := codes.foldr max exitClean

theorem Tally.ext_count {a b : Tally} (hcount : ∀ counter, a.count counter = b.count counter)
    (hvanished : a.vanished = b.vanished) : a = b := by
  obtain ⟨⟩ := a
  obtain ⟨⟩ := b
  rw [Tally.mk.injEq]
  exact ⟨hcount .agreeAccept, hcount .agreeReject, hcount .knownDelta, hcount .unexplainedSafe,
    hcount .dangerous, hcount .dangerousKnown, hvanished, hcount .standingMismatch,
    hcount .dcapPanic⟩

theorem Tally.count_sum (tallies : List Tally) (counter : Counter) :
    (Tally.sum tallies).count counter = (tallies.map fun t => t.count counter).sum := by
  induction tallies with
  | nil => cases counter <;> rfl
  | cons t tallies ih =>
      rw [List.map_cons, List.sum_cons, ← ih]
      cases counter <;> rfl

theorem Tally.vanished_sum (tallies : List Tally) :
    (Tally.sum tallies).vanished = (tallies.map Tally.vanished).sum := by
  induction tallies with
  | nil => rfl
  | cons t tallies ih =>
      rw [List.map_cons, List.sum_cons, ← ih]
      rfl

theorem exitCode_plus (a b : Tally) :
    (a.plus b).exitCode = max a.exitCode b.exitCode := by
  have hfail : (a.plus b).dcapPanic > 0 ∨ (a.plus b).standingMismatch > 0 ↔
      (a.dcapPanic > 0 ∨ a.standingMismatch > 0) ∨ (b.dcapPanic > 0 ∨ b.standingMismatch > 0) := by
    simp only [Tally.plus]
    omega
  have hreview : (a.plus b).dangerous > 0 ∨ (a.plus b).vanished > 0 ↔
      (a.dangerous > 0 ∨ a.vanished > 0) ∨ (b.dangerous > 0 ∨ b.vanished > 0) := by
    simp only [Tally.plus]
    omega
  unfold Tally.exitCode
  simp only [hfail, hreview]
  by_cases hfa : a.dcapPanic > 0 ∨ a.standingMismatch > 0 <;>
    by_cases hfb : b.dcapPanic > 0 ∨ b.standingMismatch > 0 <;>
    by_cases hra : a.dangerous > 0 ∨ a.vanished > 0 <;>
    by_cases hrb : b.dangerous > 0 ∨ b.vanished > 0 <;>
    simp only [hfa, hfb, hra, hrb, if_true, if_false, or_true, true_or, or_self] <;> decide

theorem exitCode_sum (tallies : List Tally) :
    (Tally.sum tallies).exitCode = worst (tallies.map Tally.exitCode) := by
  induction tallies with
  | nil => rfl
  | cons t tallies ih => exact (exitCode_plus t _).trans (congrArg _ ih)

/-! ## Vanished entries -/

section

variable {runCase : Bytes → Bytes → Int64 → DcapOutcome × QvlOutcome}
  {plan : SweepPlan} {bases : List BaseCase} {js : List Judged} {state : SweepState}

/-- An iteration that the allowlist has and that is not dangerous. -/
def Judged.gone (allowed : Std.TreeMap UInt64 String) (j : Judged) : Bool :=
  allowed.contains j.iter && j.counter != .dangerousKnown

/-- What is remembered of a run. -/
theorem mem_reproduced (h : Ran runCase plan bases js state) {k : UInt64} :
    k ∈ state.run.reproduced ↔ ∃ j ∈ js, j.iter = k ∧ j.counter = .dangerousKnown := by
  obtain ⟨run, hrun, hcounted⟩ := foldlM_tallyCase plan.allowIters (js.map Judged.case) {}
  obtain rfl := Except.ok.inj (h.run.symm.trans hrun)
  have hempty : k ∉ ({} : RunState UInt64).reproduced := Std.TreeSet.not_mem_emptyc
  rw [hcounted.reproduced, or_iff_right hempty]
  refine ⟨fun hcase => ?_, fun hj => ?_⟩
  · obtain ⟨case, hmem, hkey, hcounter⟩ := hcase
    obtain ⟨j, hj, rfl⟩ := List.mem_map.mp hmem
    rw [(h.judged j hj).counterOf] at hcounter
    exact ⟨j, hj, hkey, Option.some.inj hcounter⟩
  · obtain ⟨j, hj, hiter, hcounter⟩ := hj
    exact ⟨j.case, List.mem_map_of_mem hj, hiter, by rw [(h.judged j hj).counterOf, hcounter]⟩

theorem gone_iff {allowed : Std.TreeMap UInt64 String} {j : Judged} :
    j.gone allowed = true ↔ j.iter ∈ allowed ∧ j.counter ≠ .dangerousKnown := by
  rw [Judged.gone, Bool.and_eq_true, bne_iff_ne, Std.TreeMap.mem_iff_contains]

/-- An entry vanishes when the iteration it names is not dangerous. -/
theorem vanishes_iff (h : Ran runCase plan bases js state) {k : UInt64} (hk : k ∈ plan.allowIters) :
    (plan.inWindow k && !state.run.reproduced.contains k) = true ↔
      ∃ j ∈ js, j.gone plan.allowIters = true ∧ j.iter = k := by
  rw [Bool.and_eq_true, Bool.not_eq_true', ← SweepOpts.mem_indices, ← h.iters, List.mem_map,
    Bool.eq_false_iff, ne_eq, ← Std.TreeSet.mem_iff_contains, mem_reproduced h]
  refine ⟨fun hentry => ?_, fun hentry => ?_⟩
  · obtain ⟨⟨j, hj, rfl⟩, hnone⟩ := hentry
    exact ⟨j, hj, gone_iff.mpr ⟨hk, fun hknown => hnone ⟨j, hj, rfl, hknown⟩⟩, rfl⟩
  · obtain ⟨j, hj, hgone, rfl⟩ := hentry
    refine ⟨⟨j, hj, rfl⟩, fun hother => ?_⟩
    obtain ⟨j', hj', hiter, hknown⟩ := hother
    rw [List.inj_on_of_nodup_map (nodup_iters h) hj' hj hiter] at hknown
    exact (gone_iff.mp hgone).2 hknown

/-- **The entries that vanished are counted by iterations.** -/
theorem vanished_eq (h : Ran runCase plan bases js state) :
    (countVanished plan.allowIters plan.inWindow state.run).vanished =
      js.countP (Judged.gone plan.allowIters) := by
  obtain ⟨run, hrun, hcounted⟩ := foldlM_tallyCase plan.allowIters (js.map Judged.case) {}
  obtain rfl := Except.ok.inj (h.run.symm.trans hrun)
  have hzero : state.run.tally.vanished = 0 := hcounted.vanished
  rw [countVanished, Std.TreeMap.foldl_eq_foldl_toList,
    foldl_vanished fun key => plan.inWindow key && !state.run.reproduced.contains key]
  show state.run.tally.vanished + _ = _
  rw [hzero, Nat.zero_add]
  -- two lists of iterations without repetitions, with the same members
  have hentries : (plan.allowIters.keys.filter fun k =>
      plan.inWindow k && !state.run.reproduced.contains k).Nodup :=
    Std.TreeMap.nodup_keys.filter _
  have hgone : ((js.filter (Judged.gone plan.allowIters)).map Judged.iter).Nodup :=
    (nodup_iters h).sublist (List.filter_sublist.map _)
  have hperm := (List.perm_ext_iff_of_nodup hentries hgone).mpr fun k => by
    rw [List.mem_filter, Std.TreeMap.mem_keys, List.mem_map]
    simp only [List.mem_filter, and_assoc]
    refine ⟨fun hk => (vanishes_iff h hk.1).mp hk.2, fun hj => ?_⟩
    obtain ⟨j, hj', hgone, rfl⟩ := hj
    have hk := (gone_iff.mp hgone).1
    exact ⟨hk, (vanishes_iff h hk).mpr ⟨j, hj', hgone, rfl⟩⟩
  have hlength := hperm.length_eq
  rwa [List.length_map, ← List.countP_eq_length_filter, ← List.countP_eq_length_filter,
    ← Std.TreeMap.map_fst_toList_eq_keys, List.countP_map] at hlength

/-! ## One iteration -/

/-- The report of the run of one iteration. -/
def Judged.report (plan : SweepPlan) (j : Judged) : SweepReport :=
  let state := ({} : SweepState).record plan j
  { tally := countVanished plan.allowIters (plan.only j.iter).inWindow state.run
    summary := printSummary state.counts state.bucketLabels 1
    jsonl := state.jsonl
    findings := state.findings }

theorem sweepReport_only (k : UInt64) : sweepReport runCase (plan.only k) bases = (do
    let j ← judge runCase plan bases k
    pure (j.report plan)) := by
  have hindices : (plan.only k).indices = [k] := rfl
  have hjudge : judge runCase (plan.only k) bases k = judge runCase plan bases k := rfl
  rw [sweepReport, hindices, List.foldlM_cons, sweepRound, hjudge]
  cases hj : judge runCase plan bases k with
  | error e => rfl
  | ok j =>
      obtain ⟨rfl, -⟩ := judge_eq_ok hj
      rfl

/-- The books of one iteration, by themselves. -/
theorem ran_only {j : Judged} (hj : judge runCase plan bases j.iter = .ok j) :
    Ran runCase (plan.only j.iter) bases [j] (({} : SweepState).record plan j) := by
  have hdrawn : [j.iter].mapM (judge runCase (plan.only j.iter) bases) = .ok [j] := by
    have hsame : judge runCase (plan.only j.iter) bases j.iter = .ok j := hj
    rw [List.mapM_cons, List.mapM_nil, hsame]
    rfl
  obtain ⟨hjudged, hiters⟩ := mapM_judge hdrawn
  exact ⟨hdrawn, hjudged, hiters, booked_record j {}, foldlM_tallyCase_record hjudged {}⟩

theorem count_report {j : Judged} (hj : judge runCase plan bases j.iter = .ok j)
    (counter : Counter) :
    (j.report plan).tally.count counter = [j].countP fun j => j.counter == counter := by
  have hran := ran_only hj
  have hcount := (countVanished_spec plan.allowIters (plan.only j.iter).inWindow
    (({} : SweepState).record plan j).run).1 counter
  refine (hcount.trans (count_tally hran counter)).trans ?_
  rw [List.count_eq_countP, List.countP_map]
  rfl

theorem vanished_report {j : Judged} (hj : judge runCase plan bases j.iter = .ok j) :
    (j.report plan).tally.vanished = [j].countP (Judged.gone plan.allowIters) :=
  vanished_eq (ran_only hj)

/-! ## All of them -/

/-- The runs of the iterations, one by one. -/
theorem mapM_sweepReport_only (ks : List UInt64) :
    ks.mapM (fun k => sweepReport runCase (plan.only k) bases) = (do
      let js ← ks.mapM (judge runCase plan bases)
      pure (js.map (Judged.report plan))) := by
  induction ks with
  | nil => rfl
  | cons k ks ih =>
      rw [List.mapM_cons, List.mapM_cons, sweepReport_only, ih]
      cases judge runCase plan bases k with
      | error e => rfl
      | ok j =>
          cases ks.mapM (judge runCase plan bases) with
          | error e => rfl
          | ok js => rfl

theorem sum_countP_singleton {α : Type} (p : α → Bool) (l : List α) :
    (l.map fun a => [a].countP p).sum = l.countP p := by
  induction l with
  | nil => rfl
  | cons a l ih =>
      rw [List.map_cons, List.sum_cons, ih, ← List.countP_append]
      rfl

theorem flatMap_filter_singleton {α β : Type} (p : α → Bool) (f : α → β) (l : List α) :
    (l.flatMap fun a => ([a].filter p).map f) = (l.filter p).map f := by
  induction l with
  | nil => rfl
  | cons a l ih =>
      rw [List.flatMap_cons, ih, ← List.map_append, ← List.filter_append]
      rfl

theorem Ran.tally_eq_sum (h : Ran runCase plan bases js state) :
    countVanished plan.allowIters plan.inWindow state.run =
      Tally.sum ((js.map (Judged.report plan)).map SweepReport.tally) := by
  refine Tally.ext_count (fun counter => ?_) ?_
  · have hcount := (countVanished_spec plan.allowIters plan.inWindow state.run).1 counter
    rw [hcount, count_tally h, Tally.count_sum, List.map_map, List.map_map, List.count_eq_countP,
      List.countP_map, ← sum_countP_singleton]
    refine congrArg List.sum (List.map_congr_left fun j hj => ?_)
    exact (count_report (h.judged j hj).judged counter).symm
  · rw [vanished_eq h, Tally.vanished_sum, List.map_map, List.map_map, ← sum_countP_singleton]
    refine congrArg List.sum (List.map_congr_left fun j hj => ?_)
    exact (vanished_report (h.judged j hj).judged).symm

/--
**A sweep is the sum of its iterations.**

A sweep ends exactly when each of its iterations does when it is run alone. It writes what
they write, in their order; its counters are the sums of theirs, the vanished entries of
the allowlist included; and it exits with the worst of their exit codes.
-/
theorem sweep_is_its_iterations
    (runCase : Bytes → Bytes → Int64 → DcapOutcome × QvlOutcome) (plan : SweepPlan)
    (bases : List BaseCase) :
    ((∃ r, sweepReport runCase plan bases = .ok r) ↔
      ∀ k ∈ plan.indices, ∃ r, sweepReport runCase (plan.only k) bases = .ok r) ∧
    ∀ r, sweepReport runCase plan bases = .ok r →
      ∃ rs, plan.indices.mapM (fun k => sweepReport runCase (plan.only k) bases) = .ok rs ∧
        r.tally = Tally.sum (rs.map SweepReport.tally) ∧
        r.jsonl = rs.flatMap SweepReport.jsonl ∧
        r.findings = rs.flatMap SweepReport.findings ∧
        r.tally.exitCode = worst (rs.map fun part => part.tally.exitCode) := by
  refine ⟨?_, fun r hr => ?_⟩
  · rw [sweepReport_returns]
    refine forall₂_congr fun k _ => ?_
    rw [sweepReport_returns]
    have hindices : (plan.only k).indices = [k] := rfl
    rw [hindices, List.forall_mem_singleton]
    rfl
  · obtain ⟨js, state, hran, rfl⟩ := sweepReport_eq_ok hr
    refine ⟨js.map (Judged.report plan), ?_, hran.tally_eq_sum, ?_, ?_, ?_⟩
    · rw [mapM_sweepReport_only, hran.drawn]
      rfl
    · have hpart (j : Judged) : (j.report plan).jsonl =
          ([j].filter fun j => !j.bucket.isAgreement).map (Judged.line plan) :=
        (booked_record j {}).jsonl
      simp only [List.flatMap_map, hpart, flatMap_filter_singleton]
      exact hran.books.jsonl
    · have hpart (j : Judged) : (j.report plan).findings =
          ([j].filter fun j => j.bucket.isFinding).map (Judged.finding plan) :=
        (booked_record j {}).findings
      simp only [List.flatMap_map, hpart, flatMap_filter_singleton]
      exact hran.books.findings
    · show (countVanished plan.allowIters plan.inWindow state.run).exitCode = _
      rw [hran.tally_eq_sum, exitCode_sum, List.map_map, List.map_map, List.map_map]
      rfl

end

/-- The iterations of the small sweep, run one by one: the first is clean, the third is to be
reviewed, and some of the others fail. -/
theorem small_sweep_splits : ∃ r rs, sweepReport mixedCase smallPlan [quotedBase] = .ok r ∧
    smallPlan.indices.mapM (fun k => sweepReport mixedCase (smallPlan.only k) [quotedBase]) =
      .ok rs ∧
    (rs.map fun part => part.tally.exitCode) =
      [exitClean, exitFail, exitReview, exitFail, exitFail, exitClean] ∧
    r.tally = Tally.sum (rs.map SweepReport.tally) := by
  have hparts : (smallPlan.indices.mapM fun k =>
      sweepReport mixedCase (smallPlan.only k) [quotedBase]).toOption.map
        (fun rs => rs.map fun part => part.tally.exitCode) =
      some [exitClean, exitFail, exitReview, exitFail, exitFail, exitClean] := by
    decide +kernel
  cases hr : sweepReport mixedCase smallPlan [quotedBase] with
  | error e =>
      have hok : (sweepReport mixedCase smallPlan [quotedBase]).isOk = true := by decide +kernel
      rw [hr] at hok
      cases hok
  | ok r =>
      obtain ⟨rs, hrs, htally, -⟩ :=
        (sweep_is_its_iterations mixedCase smallPlan [quotedBase]).2 r hr
      rw [hrs] at hparts
      exact ⟨r, rs, rfl, hrs, Option.some.inj hparts, htally⟩

end DcapVerify.Differ
