import DcapVerify.Differ.Report
import DcapVerify.Proof.Replay
import DcapVerify.Proof.Mutate
import DcapVerify.Proof.Differ

/-!
# The books of a sweep

A sweep keeps its books three times over. The tally decides the exit code; the table of
counts is what the summary is added up from, by reading the labels back; the files take
one entry a round. Nothing in the code compares them. All three are folds over the same
judged iterations, so it is enough to know what one iteration adds to each.
-/

namespace DcapVerify.Differ

/-! ## Judged iterations -/

/-- The case that the allowlist is asked about. -/
def Judged.case (j : Judged) : Case UInt64 := ⟨j.iter, j.dcap, j.qvl⟩

def Judged.counter (j : Judged) : Counter := bucketCounter j.allowlisted j.bucket

section

variable {runCase : Bytes → Bytes → Int64 → DcapOutcome × QvlOutcome}
  {plan : SweepPlan} {bases : List BaseCase}

variable (runCase plan bases) in
/-- What is known of an iteration that has been judged. -/
structure Judges (j : Judged) : Prop where
  judged : judge runCase plan bases j.iter = .ok j
  drawn : iteration plan bases j.iter = .ok j.it
  outcomes : runCase j.it.mutated.quote j.it.mutated.collateral j.it.mutated.currentTime =
    (j.dcap, j.qvl)
  classified : classify j.dcap j.qvl = .ok j.bucket
  known : j.allowlisted = true ↔ (∃ kind, j.bucket = .dangerous kind) ∧ j.iter ∈ plan.allowIters

theorem judge_eq_ok {i : UInt64} {j : Judged} (h : judge runCase plan bases i = .ok j) :
    j.iter = i ∧ Judges runCase plan bases j := by
  have hjudged := h
  obtain ⟨it, hit, h⟩ := Checks.bind_eq_ok.mp h
  obtain ⟨bucket, hbucket, h⟩ := Checks.bind_eq_ok.mp h
  cases h
  refine ⟨rfl, hjudged, hit, rfl, hbucket, ?_⟩
  rw [Std.TreeMap.mem_iff_contains]
  cases bucket <;> simp

/-- An iteration is allowlisted exactly when the allowlist has its dangerous bucket. -/
theorem Judges.counter_eq {j : Judged} (h : Judges runCase plan bases j) :
    bucketCounter (plan.allowIters.contains j.iter) j.bucket = j.counter := by
  have hknown := h.known
  rw [Std.TreeMap.mem_iff_contains] at hknown
  rw [Judged.counter]
  cases hb : j.bucket with
  | dangerous kind =>
      have hiff : j.allowlisted = true ↔ plan.allowIters.contains j.iter = true := by
        rw [hknown, hb]
        exact and_iff_right ⟨kind, rfl⟩
      rw [Bool.eq_iff_iff.mpr hiff]
  | _ => rfl

theorem Judges.counterOf {j : Judged} (h : Judges runCase plan bases j) :
    counterOf plan.allowIters j.case = some j.counter := by
  have hbucket : classify j.case.dcap j.case.qvl = .ok j.bucket := h.classified
  rw [Differ.counterOf, hbucket, ← h.counter_eq]
  rfl

/-- The tally of a round is the one of the plain loop. -/
theorem Judges.tallyCase {j : Judged} (h : Judges runCase plan bases j) (state : SweepState) :
    tallyCase plan.allowIters state.run j.case = .ok (state.record plan j).run := by
  have hbucket : classify j.case.dcap j.case.qvl = .ok j.bucket := h.classified
  have hcounter : bucketCounter (plan.allowIters.contains j.case.key) j.bucket = j.counter :=
    h.counter_eq
  rw [SweepState.record]
  by_cases hknown : j.allowlisted = true
  · obtain ⟨⟨kind, hkind⟩, -⟩ := h.known.mp hknown
    rw [if_pos hknown]
    refine tallyCase_known hbucket ?_
    rw [hcounter, Judged.counter, hknown, hkind]
    rfl
  · have hfalse : j.allowlisted = false := by simpa using hknown
    rw [if_neg hknown]
    refine (tallyCase_add state.run hbucket ?_).1
    rw [hcounter, Judged.counter, hfalse]
    cases j.bucket <;> simp [bucketCounter]

/-! ## Labels -/

/-- The buckets that occur, each with whether it is allowlisted. -/
def marks : List (Bool × Bucket) :=
  [(false, .agreeAccept), (false, .agreeReject), (false, .knownDelta "debug-gate"),
    (false, .knownDelta "format-gate"), (false, .knownDelta "expiry-model"),
    (false, .unexplainedSafe), (false, .dangerous "qvl-accept-expired"),
    (false, .dangerous "qvl-not-run"), (false, .dangerous "qvl-rejects"),
    (true, .dangerous "qvl-accept-expired"), (true, .dangerous "qvl-not-run"),
    (true, .dangerous "qvl-rejects"), (false, .standingMismatch), (false, .dcapPanic)]

theorem rejectDelta_mem (category : ErrorCategory) (detail : String) (expStatus : UInt32) :
    (false, rejectDelta category detail expStatus) ∈ marks := by
  unfold rejectDelta
  split_ifs <;> decide

theorem classify_mem {dcap : DcapOutcome} {qvl : QvlOutcome} {bucket : Bucket}
    (h : classify dcap qvl = .ok bucket) : (false, bucket) ∈ marks := by
  unfold classify at h
  simp only at h
  split at h
  · cases h
    decide
  · split at h
    · cases h
      split <;> decide
    · cases h
  · cases h
    decide
  · split at h <;> cases h <;> decide
  · cases h
    decide
  · cases h
    exact rejectDelta_mem ..

theorem Judges.mem_marks {j : Judged} (h : Judges runCase plan bases j) :
    (j.allowlisted, j.bucket) ∈ marks := by
  have hmem := classify_mem h.classified
  cases hallow : j.allowlisted with
  | false => exact hmem
  | true =>
      obtain ⟨⟨kind, hkind⟩, -⟩ := h.known.mp hallow
      rw [hkind] at hmem ⊢
      simpa [marks] using hmem

/-- Reading labels with `pred` selects the cases of `counters`. There are fourteen to look at. -/
def Selects (pred : String → Bool) (counters : List Counter) : Prop :=
  ∀ mark ∈ marks, pred (if mark.1 then "known-dangerous" else mark.2.label) =
    counters.contains (bucketCounter mark.1 mark.2)

instance (pred : String → Bool) (counters : List Counter) : Decidable (Selects pred counters) :=
  inferInstanceAs (Decidable (∀ mark ∈ marks, _))

theorem Selects.label {pred : String → Bool} {counters : List Counter}
    (h : Selects pred counters) {j : Judged} (hj : Judges runCase plan bases j) :
    pred j.label = counters.contains j.counter :=
  h _ hj.mem_marks

/-! ## The books of a run -/

/-- A run judges its iterations and then does the books. -/
theorem foldlM_sweepRound (indices : List UInt64) (state : SweepState) :
    indices.foldlM (sweepRound runCase plan bases) state = (do
      let js ← indices.mapM (judge runCase plan bases)
      pure (js.foldl (SweepState.record plan) state)) :=
  Checks.foldlM_eq_mapM ..

variable (plan) in
/-- What `js` adds to the books. -/
structure Booked (js : List Judged) (state state' : SweepState) : Prop where
  counts : state'.counts = (js.map fun j => (j.it.strategy, j.label)).foldl Histogram.bump
    state.counts
  labels : ∀ label, label ∈ state'.bucketLabels ↔ label ∈ state.bucketLabels ∨
    label ∈ js.map Judged.label
  jsonl : state'.jsonl = state.jsonl ++
    (js.filter fun j => !j.bucket.isAgreement).map (Judged.line plan)
  findings : state'.findings = state.findings ++
    (js.filter fun j => j.bucket.isFinding).map (Judged.finding plan)

theorem booked_record (j : Judged) (state : SweepState) :
    Booked plan [j] state (state.record plan j) := by
  refine ⟨rfl, fun label => ?_, ?_, ?_⟩
  · rw [SweepState.record, Std.TreeSet.mem_insert, Std.LawfulEqCmp.compare_eq_iff_eq]
    simp [or_comm, eq_comm]
  · rw [SweepState.record]
    cases hb : j.bucket.isAgreement <;> simp [hb]
  · rw [SweepState.record]
    cases hb : j.bucket.isFinding <;> simp [hb]

theorem Booked.cons {j : Judged} {js : List Judged} {state mid state' : SweepState}
    (hstep : Booked plan [j] state mid) (hrun : Booked plan js mid state') :
    Booked plan (j :: js) state state' where
  counts := by
    rw [hrun.counts, hstep.counts]
    rfl
  labels label := by
    rw [hrun.labels, hstep.labels, List.map_cons, List.mem_cons, or_assoc]
    simp
  jsonl := by
    have hsplit : j :: js = [j] ++ js := rfl
    rw [hrun.jsonl, hstep.jsonl, hsplit, List.filter_append, List.map_append, List.append_assoc]
  findings := by
    have hsplit : j :: js = [j] ++ js := rfl
    rw [hrun.findings, hstep.findings, hsplit, List.filter_append, List.map_append,
      List.append_assoc]

/-- **The books of a run** are about its judged iterations. -/
theorem foldl_record (js : List Judged) (state : SweepState) :
    Booked plan js state (js.foldl (SweepState.record plan) state) := by
  induction js generalizing state with
  | nil => exact ⟨rfl, fun label => by simp, by simp, by simp⟩
  | cons j js ih => exact (booked_record j state).cons (ih _)

/-- The tally of a run is the one of the plain loop. -/
theorem foldlM_tallyCase_record {js : List Judged} (h : ∀ j ∈ js, Judges runCase plan bases j)
    (state : SweepState) :
    (js.map Judged.case).foldlM (Differ.tallyCase plan.allowIters) state.run =
      .ok (js.foldl (SweepState.record plan) state).run := by
  induction js generalizing state with
  | nil => rfl
  | cons j js ih =>
      rw [List.map_cons, List.foldlM_cons, (h j List.mem_cons_self).tallyCase, Checks.ok_bind]
      exact ih (fun j hj => h j (List.mem_cons_of_mem _ hj)) _

/-! ## The files -/

theorem judge_line {i : UInt64} {j : Judged} (h : judge runCase plan bases i = .ok j) :
    (iteration plan bases i >>= iterationLine runCase plan i) =
      .ok (if j.bucket.isAgreement then none else some (j.line plan)) := by
  obtain ⟨it, hit, h⟩ := Checks.bind_eq_ok.mp h
  obtain ⟨bucket, hbucket, h⟩ := Checks.bind_eq_ok.mp h
  cases h
  rw [hit, Checks.ok_bind, iterationLine]
  simp only [hbucket, Checks.ok_bind]
  by_cases hagree : bucket.isAgreement = true
  · rw [if_pos hagree, if_pos hagree]
    rfl
  · rw [if_neg hagree, if_neg hagree]
    rfl

/-- The lines of a run are those that are written round by round. -/
theorem writtenLines_eq {indices : List UInt64} {js : List Judged}
    (h : indices.mapM (judge runCase plan bases) = .ok js) :
    writtenLines runCase plan bases indices =
      (js.filter fun j => !j.bucket.isAgreement).map (Judged.line plan) := by
  have hall := Checks.mapM_eq_ok.mp h
  clear h
  induction hall with
  | nil => rfl
  | cons hstep _ ih =>
      rename_i j _ _ _
      rw [writtenLines, judge_line hstep]
      simp only [ih]
      cases hb : j.bucket.isAgreement <;> simp [hb]

theorem toString_inj {n m : UInt64} (h : toString n = toString m) : n = m := by
  have hread := expectNumber_toString n ""
  rw [h, expectNumber_toString m] at hread
  exact (Except.ok.inj hread).symm

theorem joinPath_inj {dir a b : String} (h : joinPath dir a = joinPath dir b) : a = b := by
  unfold joinPath at h
  split at h <;> simpa using h

/-- No two iterations are dumped into one directory. -/
theorem caseDir_inj {j j' : Judged} (h : (j.finding plan).caseDir = (j'.finding plan).caseDir) :
    j.iter = j'.iter := by
  have hname : "case-" ++ toString j.iter = "case-" ++ toString j'.iter := joinPath_inj h
  exact toString_inj (by simpa using hname)

/-! ## Adding up -/

theorem mem_strategies {strategy : UInt64} (h : strategy < 9) : strategy ∈ strategies := by
  have hlt : ∀ n < 9, UInt64.ofNat n ∈ strategies := by decide
  rw [← UInt64.ofNat_toNat (x := strategy)]
  exact hlt _ (UInt64.lt_iff_toNat_lt.mp h)

/-- The table has a row for every strategy. -/
theorem Judges.strategy_mem {j : Judged} (h : Judges runCase plan bases j) :
    j.it.strategy ∈ strategies := by
  obtain ⟨-, -, rng, hdraw⟩ := iteration_eq_ok.mp h.drawn
  obtain ⟨strategy, rng₁, hstrategy, hdraw⟩ := Checks.state_bind_eq_ok.mp hdraw
  obtain ⟨mutated, rng₂, -, hdraw⟩ := Checks.state_bind_eq_ok.mp hdraw
  obtain ⟨hit, -⟩ := Prod.mk.inj (Except.ok.inj hdraw)
  rw [below_eq (by decide)] at hstrategy
  obtain ⟨rfl, -⟩ := Prod.mk.inj (Except.ok.inj hstrategy)
  rw [← hit]
  refine mem_strategies ?_
  rw [UInt64.lt_iff_toNat_lt, UInt64.toNat_mod]
  exact Nat.mod_lt _ (by decide)

variable (runCase plan bases) in
/-- How a run came to its report. -/
structure Ran (js : List Judged) (state : SweepState) : Prop where
  drawn : plan.indices.mapM (judge runCase plan bases) = .ok js
  judged : ∀ j ∈ js, Judges runCase plan bases j
  iters : js.map Judged.iter = plan.indices
  books : Booked plan js {} state
  run : (js.map Judged.case).foldlM (tallyCase plan.allowIters) {} = .ok state.run

theorem bucketLabels_nodup (state : SweepState) : state.bucketLabels.toList.Nodup :=
  Std.TreeSet.distinct_toList.imp fun hne => by simpa using hne

/-- What is printed with a name is printed of what has one. -/
theorem map_snd_filterMap {α β γ : Type} (f : α → Option β) (g : α → γ) (l : List α) :
    (l.filterMap fun a => (f a).map fun b => (b, g a)).map Prod.snd =
      (l.filter fun a => (f a).isSome).map g := by
  induction l with
  | nil => rfl
  | cons a l ih => cases hf : f a <;> simp [hf, ih]

theorem mapM_judge {indices : List UInt64} {js : List Judged}
    (h : indices.mapM (judge runCase plan bases) = .ok js) :
    (∀ j ∈ js, Judges runCase plan bases j) ∧ js.map Judged.iter = indices := by
  have hall := Checks.mapM_eq_ok.mp h
  clear h
  induction hall with
  | nil => exact ⟨by simp, rfl⟩
  | cons hstep _ ih =>
      obtain ⟨hiter, hjudges⟩ := judge_eq_ok hstep
      refine ⟨fun j hj => ?_, by rw [List.map_cons, hiter, ih.2]⟩
      rcases List.mem_cons.mp hj with rfl | hj
      · exact hjudges
      · exact ih.1 j hj

theorem sweepReport_eq_ok {r : SweepReport} (h : sweepReport runCase plan bases = .ok r) :
    ∃ js state, Ran runCase plan bases js state ∧
      r = ⟨countVanished plan.allowIters plan.inWindow state.run,
        printSummary state.counts state.bucketLabels plan.indices.length, state.jsonl,
        state.findings⟩ := by
  rw [sweepReport, foldlM_sweepRound] at h
  obtain ⟨state, hstate, h⟩ := Checks.bind_eq_ok.mp h
  obtain ⟨js, hjs, hstate⟩ := Checks.bind_eq_ok.mp hstate
  cases hstate
  cases h
  obtain ⟨hjudged, hiters⟩ := mapM_judge hjs
  exact ⟨js, _, ⟨hjs, hjudged, hiters, foldl_record js {}, foldlM_tallyCase_record hjudged {}⟩, rfl⟩

section

variable {js : List Judged} {state : SweepState} (h : Ran runCase plan bases js state)

include h

theorem sumFor_eq_countP (pred : String → Bool) :
    sumFor state.counts pred = js.countP fun j => pred j.label := by
  rw [sumFor, h.books.counts, Histogram.weight_foldl_bump, Histogram.weight_empty, Nat.zero_add,
    List.countP_map]
  rfl

theorem mem_bucketLabels {label : String} :
    label ∈ state.bucketLabels.toList ↔ label ∈ js.map Judged.label := by
  rw [Std.TreeSet.mem_toList, h.books.labels]
  exact or_iff_right Std.TreeSet.not_mem_emptyc

theorem count_tally (counter : Counter) :
    state.run.tally.count counter = (js.map Judged.counter).count counter := by
  obtain ⟨run, hrun, hcounted⟩ := foldlM_tallyCase plan.allowIters (js.map Judged.case) {}
  obtain rfl := Except.ok.inj (h.run.symm.trans hrun)
  have hzero : ({} : RunState UInt64).tally.count counter = 0 := by cases counter <;> rfl
  rw [hcounted.counts, hzero, Nat.zero_add, List.countP_map, List.count_eq_countP, List.countP_map]
  refine List.countP_congr fun j hj => ?_
  simp only [Function.comp_apply, (h.judged j hj).counterOf, Option.some.injEq, decide_eq_true_eq,
    beq_iff_eq]

theorem total_tally : state.run.tally.total = js.length := by
  obtain ⟨run, hrun, hcounted⟩ := foldlM_tallyCase plan.allowIters (js.map Judged.case) {}
  obtain rfl := Except.ok.inj (h.run.symm.trans hrun)
  rw [hcounted.total, List.length_map]
  exact Nat.zero_add _

theorem countP_counter {counters : List Counter} (hnodup : counters.Nodup) :
    (js.countP fun j => counters.contains j.counter) =
      (counters.map state.run.tally.count).sum := by
  have hcount : state.run.tally.count = fun counter => (js.map Judged.counter).count counter :=
    funext (count_tally h)
  rw [hcount, Histogram.sum_counts hnodup, List.countP_map]
  rfl

/-- **A line of the summary** is the sum of the counters it is about. -/
theorem sumFor_eq {pred : String → Bool} {counters : List Counter} (hnodup : counters.Nodup)
    (hselects : Selects pred counters) :
    sumFor state.counts pred = (counters.map state.run.tally.count).sum := by
  rw [← countP_counter h hnodup, sumFor_eq_countP h]
  refine List.countP_congr fun j hj => ?_
  rw [hselects.label (h.judged j hj)]

/-- The last row of the table counts the labels. -/
theorem totals_eq :
    (printSummary state.counts state.bucketLabels js.length).totals =
      state.bucketLabels.toList.map fun label => (js.map Judged.label).count label := by
  refine List.map_congr_left fun label _ => ?_
  have hnodup : (strategies.map fun strategy => (strategy, label)).Nodup :=
    List.Nodup.map (fun s s' heq => (Prod.mk.inj heq).1) (by decide)
  have hrow : (strategies.map fun strategy => state.counts.getD (strategy, label) 0) =
      (strategies.map fun strategy => (strategy, label)).map fun key =>
        (js.map fun j => (j.it.strategy, j.label)).count key := by
    rw [List.map_map]
    refine List.map_congr_left fun strategy _ => ?_
    have hempty : ({} : SweepState).counts.getD (strategy, label) 0 = 0 := rfl
    rw [h.books.counts, Histogram.getD_foldl_bump, hempty, Nat.zero_add]
    rfl
  rw [hrow, Histogram.sum_counts hnodup, List.countP_map, List.count_eq_countP, List.countP_map]
  refine List.countP_congr fun j hj => ?_
  have hmem := (h.judged j hj).strategy_mem
  rw [Function.comp_apply, List.contains_iff_mem, List.mem_map, Function.comp_apply, beq_iff_eq]
  refine ⟨fun hrow => ?_, fun hlabel => ⟨_, hmem, by rw [hlabel]⟩⟩
  obtain ⟨strategy, -, heq⟩ := hrow
  exact (Prod.mk.inj heq).2.symm

theorem sum_totals :
    (printSummary state.counts state.bucketLabels js.length).totals.sum = js.length := by
  have hall : ∀ label ∈ js.map Judged.label, state.bucketLabels.toList.contains label = true :=
    fun label hlabel => List.contains_iff_mem.mpr ((mem_bucketLabels h).mpr hlabel)
  rw [totals_eq h, Histogram.sum_counts (bucketLabels_nodup state), List.countP_eq_length.mpr hall,
    List.length_map]

/-- The known deltas that are printed are all of them, each once. -/
theorem sum_knownDeltas :
    ((printSummary state.counts state.bucketLabels js.length).knownDeltas.map Prod.snd).sum =
      state.run.tally.knownDelta := by
  have hprinted :
      (printSummary state.counts state.bucketLabels js.length).knownDeltas.map Prod.snd =
        (state.bucketLabels.toList.filter fun l => (knownDeltaKind l).isSome).map fun label =>
          (js.map Judged.label).count label := by
    refine (map_snd_filterMap ..).trans (List.map_congr_left fun label _ => ?_)
    rw [sumFor_eq_countP h, List.count_eq_countP, List.countP_map]
    rfl
  have hnodup := (bucketLabels_nodup state).filter fun l => (knownDeltaKind l).isSome
  have hselects : Selects (fun l => (knownDeltaKind l).isSome) [.knownDelta] := by decide
  have hone : state.run.tally.knownDelta =
      ([Counter.knownDelta].map state.run.tally.count).sum := rfl
  rw [hprinted, Histogram.sum_counts hnodup, List.countP_map, hone, ← countP_counter h (by decide)]
  refine List.countP_congr fun j hj => ?_
  have hmem := (mem_bucketLabels h).mpr (List.mem_map_of_mem hj)
  have hlabel := hselects.label (h.judged j hj)
  rw [Function.comp_apply, List.contains_iff_mem, List.mem_filter, and_iff_right hmem, hlabel]

/-! ## Agreement -/

theorem nodup_iters : (js.map Judged.iter).Nodup := by
  rw [h.iters]
  exact plan.indices_nodup

theorem length_eq : plan.indices.length = js.length := by
  rw [← h.iters, List.length_map]

/-- How many iterations are in the cases of `counters`. -/
theorem length_filter_eq {p : Judged → Bool} {counters : List Counter} (hnodup : counters.Nodup)
    (hp : ∀ j ∈ js, p j = counters.contains j.counter) :
    (js.filter p).length = (counters.map state.run.tally.count).sum := by
  rw [← countP_counter h hnodup, ← List.countP_eq_length_filter]
  exact List.countP_congr fun j hj => by rw [hp j hj]

theorem length_jsonl : state.jsonl.length + state.run.tally.agreeAccept +
    state.run.tally.agreeReject = js.length := by
  have hmarks : ∀ mark ∈ marks, (!mark.2.isAgreement) =
      [Counter.knownDelta, .unexplainedSafe, .dangerous, .dangerousKnown, .standingMismatch,
        .dcapPanic].contains (bucketCounter mark.1 mark.2) := by decide
  rw [h.books.jsonl, ← total_tally h, List.nil_append, List.length_map,
    length_filter_eq h (by decide) fun j hj => hmarks _ (h.judged j hj).mem_marks]
  simp only [Tally.total, Tally.count, List.map_cons, List.map_nil, List.sum_cons, List.sum_nil]
  omega

theorem length_findings : state.findings.length + state.run.tally.agreeAccept +
    state.run.tally.agreeReject + state.run.tally.knownDelta = js.length := by
  have hmarks : ∀ mark ∈ marks, mark.2.isFinding =
      [Counter.unexplainedSafe, .dangerous, .dangerousKnown, .standingMismatch,
        .dcapPanic].contains (bucketCounter mark.1 mark.2) := by decide
  rw [h.books.findings, ← total_tally h, List.nil_append, List.length_map,
    length_filter_eq h (by decide) fun j hj => hmarks _ (h.judged j hj).mem_marks]
  simp only [Tally.total, Tally.count, List.map_cons, List.map_nil, List.sum_cons, List.sum_nil]
  omega

/-- A case that is dumped has a line as well. -/
theorem finding_line {finding : Finding} (hfinding : finding ∈ state.findings) :
    ∃ line ∈ state.jsonl, line.iter = finding.iter ∧ line.bucket = finding.bucket := by
  rw [h.books.findings] at hfinding
  obtain ⟨j, hj, rfl⟩ := List.mem_map.mp hfinding
  obtain ⟨hmem, hbucket⟩ := List.mem_filter.mp hj
  refine ⟨j.line plan, ?_, rfl, rfl⟩
  rw [h.books.jsonl]
  refine List.mem_map_of_mem (List.mem_filter.mpr ⟨hmem, ?_⟩)
  cases hb : j.bucket <;> simp_all [Bucket.isFinding, Bucket.isAgreement]

theorem nodup_caseDirs : (state.findings.map Finding.caseDir).Nodup := by
  rw [h.books.findings, List.nil_append, List.map_map]
  have hiters : ((js.filter fun j => j.bucket.isFinding).map Judged.iter).Nodup :=
    (nodup_iters h).sublist (List.filter_sublist.map _)
  refine List.Nodup.map_on (fun j hj j' hj' heq => ?_) hiters.of_map
  exact List.inj_on_of_nodup_map hiters hj hj' (caseDir_inj heq)

end

/-- The parts of a report agree. -/
structure Agrees (r : SweepReport) : Prop where
  total : r.summary.total = r.tally.total
  totals : r.summary.totals.sum = r.tally.total
  agreements : r.summary.agreements = r.tally.agreeAccept + r.tally.agreeReject
  accept : r.summary.accept = r.tally.agreeAccept
  reject : r.summary.reject = r.tally.agreeReject
  knownDeltas : (r.summary.knownDeltas.map Prod.snd).sum = r.tally.knownDelta
  unexplainedSafe : r.summary.unexplainedSafe = r.tally.unexplainedSafe
  standingMismatch : r.summary.standingMismatch = r.tally.standingMismatch
  dcapPanic : r.summary.dcapPanic = r.tally.dcapPanic
  dangerous : r.summary.dangerous = r.tally.dangerous
  lines : r.jsonl.length + r.summary.agreements = r.tally.total
  findings : r.findings.length + r.summary.agreements + r.tally.knownDelta = r.tally.total
  recorded : ∀ finding ∈ r.findings, ∃ line ∈ r.jsonl,
    line.iter = finding.iter ∧ line.bucket = finding.bucket
  dumped : (r.findings.map Finding.caseDir).Nodup

theorem Ran.agrees {js : List Judged} {state : SweepState} (h : Ran runCase plan bases js state) :
    Agrees ⟨countVanished plan.allowIters plan.inWindow state.run,
      printSummary state.counts state.bucketLabels plan.indices.length, state.jsonl,
      state.findings⟩ := by
  obtain ⟨hcount, htotal, -⟩ := countVanished_spec plan.allowIters plan.inWindow state.run
  generalize countVanished plan.allowIters plan.inWindow state.run = tally at hcount htotal ⊢
  have hfold {pred : String → Bool} {counters : List Counter} (hnodup : counters.Nodup)
      (hselects : Selects pred counters) : sumFor state.counts pred =
        (counters.map tally.count).sum := by
    rw [sumFor_eq h hnodup hselects, funext hcount]
  have hone (pred : String → Bool) (counter : Counter) (hselects : Selects pred [counter]) :
      sumFor state.counts pred = tally.count counter := by
    rw [hfold (List.nodup_singleton _) hselects]
    exact List.sum_singleton
  have hagreements : sumFor state.counts (fun l => startsWith l "agree-") =
      tally.agreeAccept + tally.agreeReject := by
    rw [hfold (show [Counter.agreeAccept, .agreeReject].Nodup by decide) (by decide)]
    exact List.sum_pair
  have haccept : tally.agreeAccept = state.run.tally.agreeAccept := hcount .agreeAccept
  have hreject : tally.agreeReject = state.run.tally.agreeReject := hcount .agreeReject
  have hdelta : tally.knownDelta = state.run.tally.knownDelta := hcount .knownDelta
  have hlength : tally.total = js.length :=
    htotal.trans (total_tally h)
  have hjsonl := length_jsonl h
  have hfindings := length_findings h
  rw [length_eq h]
  refine {
    total := hlength.symm
    totals := (sum_totals h).trans hlength.symm
    agreements := hagreements
    accept := hone (fun l => l == "agree-accept") .agreeAccept (by decide)
    reject := hone (fun l => l == "agree-reject") .agreeReject (by decide)
    knownDeltas := (sum_knownDeltas h).trans hdelta.symm
    unexplainedSafe := hone (fun l => l == "unexplained-safe") .unexplainedSafe (by decide)
    standingMismatch := hone (fun l => l == "standing-mismatch") .standingMismatch (by decide)
    dcapPanic := hone (fun l => l == "dcap-panic") .dcapPanic (by decide)
    dangerous := hone (fun l => startsWith l "DANGEROUS") .dangerous (by decide)
    lines := ?_
    findings := ?_
    recorded := fun finding => finding_line h
    dumped := nodup_caseDirs h }
  · show state.jsonl.length + sumFor state.counts (fun l => startsWith l "agree-") = tally.total
    omega
  · show state.findings.length + sumFor state.counts (fun l => startsWith l "agree-") +
      tally.knownDelta = tally.total
    omega

/-- The cases of the plain loop are those that were judged. -/
theorem Ran.cases {js : List Judged} {state : SweepState} (h : Ran runCase plan bases js state)
    {outcome : UInt64 → DcapOutcome × QvlOutcome}
    (houtcome : ∀ i ∈ plan.indices, ∀ it, iteration plan bases i = .ok it →
      outcome i = runCase it.mutated.quote it.mutated.collateral it.mutated.currentTime) :
    plan.cases outcome = js.map Judged.case := by
  rw [SweepOpts.cases, ← h.iters, List.map_map]
  refine List.map_congr_left fun j hj => ?_
  have hindex : j.iter ∈ plan.indices := h.iters ▸ List.mem_map_of_mem hj
  have hjudged := h.judged j hj
  rw [Function.comp_apply, houtcome _ hindex _ hjudged.drawn, hjudged.outcomes]
  rfl

end

/-- A run ends unless drawing an iteration panics. -/
theorem sweepReport_returns {runCase : Bytes → Bytes → Int64 → DcapOutcome × QvlOutcome}
    {plan : SweepPlan} {bases : List BaseCase} :
    (∃ r, sweepReport runCase plan bases = .ok r) ↔
      ∀ i ∈ plan.indices, ∃ it, iteration plan bases i = .ok it := by
  refine ⟨fun h => ?_, fun h => ?_⟩
  · obtain ⟨r, hr⟩ := h
    obtain ⟨js, state, hran, -⟩ := sweepReport_eq_ok hr
    intro i hi
    rw [← hran.iters] at hi
    obtain ⟨j, hj, rfl⟩ := List.mem_map.mp hi
    exact ⟨j.it, (hran.judged j hj).drawn⟩
  · have hjudge : ∀ i ∈ plan.indices, ∀ e, judge runCase plan bases i ≠ .error e := by
      intro i hi e he
      obtain ⟨it, hit⟩ := h i hi
      obtain ⟨bucket, hbucket, -⟩ := classify_spec
        (runCase it.mutated.quote it.mutated.collateral it.mutated.currentTime).1
        (runCase it.mutated.quote it.mutated.collateral it.mutated.currentTime).2
      rw [judge, hit, Checks.ok_bind] at he
      simp only [hbucket, Checks.ok_bind, Checks.pure_ne_error] at he
    rw [sweepReport, foldlM_sweepRound]
    cases hjs : plan.indices.mapM (judge runCase plan bases) with
    | ok js => exact ⟨_, rfl⟩
    | error e =>
        obtain ⟨i, hi, he⟩ := Checks.mapM_eq_error hjs
        exact absurd he (hjudge i hi e)

/--
**The summary agrees with the verdict.**

A sweep ends unless an iteration cannot be drawn. Then whatever the two verifiers said, the
table that is printed adds up, each line of the summary is the counter that the exit code
is decided by, and the known deltas that are listed are all of them. The findings file has
a line for every case but the agreements; each case that is dumped is in it, under the same
name, and in a directory of its own. The tally and the lines are those of the plain loops.
-/
theorem summary_agrees_with_verdict
    (runCase : Bytes → Bytes → Int64 → DcapOutcome × QvlOutcome) (plan : SweepPlan)
    (bases : List BaseCase) :
    ((∃ r, sweepReport runCase plan bases = .ok r) ↔
      ∀ i ∈ plan.indices, ∃ it, iteration plan bases i = .ok it) ∧
    ∀ r, sweepReport runCase plan bases = .ok r → Agrees r ∧
      r.jsonl = writtenLines runCase plan bases plan.indices ∧
      ∀ outcome : UInt64 → DcapOutcome × QvlOutcome,
        (∀ i ∈ plan.indices, ∀ it, iteration plan bases i = .ok it →
          outcome i = runCase it.mutated.quote it.mutated.collateral it.mutated.currentTime) →
        sweepRun plan.toSweepOpts outcome = .ok r.tally := by
  refine ⟨sweepReport_returns, fun r hr => ?_⟩
  obtain ⟨js, state, hran, rfl⟩ := sweepReport_eq_ok hr
  refine ⟨hran.agrees, ?_, fun outcome houtcome => ?_⟩
  · rw [writtenLines_eq hran.drawn, hran.books.jsonl]
    rfl
  · rw [sweepRun, tallyRun, hran.cases houtcome, hran.run]
    rfl

/-! ## A small sweep -/

/-- Outcomes that depend on what a mutation changed. -/
def mixedCase (quote collateral : Bytes) (currentTime : Int64) : DcapOutcome × QvlOutcome :=
  if quote ≠ [0, 0] then (.reject .quoteParse "flipped", .error 0xE001)
  else (.accept .upToDate, .verdict (if currentTime = 0 then 0 else 1)
    (if collateral = quotedBrackets then .ok else .swHardeningNeeded))

/-- Six iterations, of which the allowlist has the first and the third. -/
def smallPlan : SweepPlan where
  iters := 6
  onlyIter := none
  allowIters := Std.TreeMap.ofList [((0 : UInt64), "F1"), (2, "F2")]
  seed := 1
  bases := ["quoted"]
  defaultBases := false
  out := "/reports"

/-- The first entry is reproduced and the other one is gone, which three mismatches outrank. -/
theorem small_sweep_agrees : ∃ r, sweepReport mixedCase smallPlan [quotedBase] = .ok r ∧
    Agrees r ∧ r.tally.dangerousKnown = 1 ∧ r.tally.vanished = 1 ∧ r.tally.exitCode = exitFail := by
  have hrun : (sweepReport mixedCase smallPlan [quotedBase]).toOption.map
      (fun r => (r.tally.dangerousKnown, r.tally.vanished, r.tally.exitCode)) =
        some (1, 1, exitFail) := by
    decide +kernel
  cases hr : sweepReport mixedCase smallPlan [quotedBase] with
  | error e =>
      rw [hr] at hrun
      cases hrun
  | ok r =>
      rw [hr] at hrun
      obtain ⟨hknown, hrest⟩ := Prod.mk.inj (Option.some.inj hrun)
      obtain ⟨hvanished, hexit⟩ := Prod.mk.inj hrest
      have hagrees := ((summary_agrees_with_verdict mixedCase smallPlan [quotedBase]).2 r hr).1
      exact ⟨r, rfl, hagrees, hknown, hvanished, hexit⟩

end DcapVerify.Differ
