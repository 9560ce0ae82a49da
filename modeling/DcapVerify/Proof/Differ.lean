import DcapVerify.Differ.Run
import Std.Data.TreeMap.Lemmas
import Std.Data.TreeSet.Lemmas

/-!
# What the exit code of the differ says

CI looks at one number. It is read back here into the cases of the run: which of them
make it FAIL, which make it REVIEW, and what is known about every case when it is CLEAN.
The outcomes of the two verifiers are arbitrary throughout. Each case is counted once;
the allowlist moves a case from one counter to another and hides no defect.
-/

namespace DcapVerify

/-- A standing without its advisories. -/
inductive StandingKind where
  | upToDate
  | swHardeningNeeded
  | configurationAndSwHardeningNeeded
  deriving DecidableEq

def TcbStanding.kind : TcbStanding → StandingKind
  | .upToDate => .upToDate
  | .swHardeningNeeded _ => .swHardeningNeeded
  | .configurationAndSwHardeningNeeded _ => .configurationAndSwHardeningNeeded

namespace Differ

/-! ## What the outcomes mean -/

/-- The standing a QVL result stands for, if it is an accepting one. -/
def SgxQlQvResult.standing? : SgxQlQvResult → Option StandingKind
  | .ok => some .upToDate
  | .swHardeningNeeded => some .swHardeningNeeded
  | .configAndSwHardeningNeeded => some .configurationAndSwHardeningNeeded
  | .other _ => none

/-- QVL accepts with the standing `kind`, and nothing has expired. -/
def QvlOutcome.AcceptsAs (qvl : QvlOutcome) (kind : StandingKind) : Prop :=
  ∃ result, qvl = .verdict 0 result ∧ result.standing? = some kind

/-- A crash, or two acceptances of different standing. -/
def Defect (dcap : DcapOutcome) (qvl : QvlOutcome) : Prop :=
  (∃ msg, dcap = .panic msg) ∨
    ∃ standing kind, dcap = .accept standing ∧ qvl.AcceptsAs kind ∧ kind ≠ standing.kind

/-- An acceptance that QVL does not share: it rejects, errs, did not run or finds something
expired. -/
def Dangerous (dcap : DcapOutcome) (qvl : QvlOutcome) : Prop :=
  ∃ standing, dcap = .accept standing ∧ ∀ kind, ¬ qvl.AcceptsAs kind

theorem qvlAccepts_iff {result : SgxQlQvResult} :
    qvlAccepts result = true ↔ ∃ kind, result.standing? = some kind := by
  cases result <;> simp [qvlAccepts, SgxQlQvResult.standing?]

theorem standingMatches_iff {result : SgxQlQvResult} {standing : TcbStanding} :
    standingMatches result standing = true ↔ result.standing? = some standing.kind := by
  cases result <;> cases standing <;>
    simp [standingMatches, SgxQlQvResult.standing?, TcbStanding.kind]

/-- The class of an outcome is whether QVL accepts, and whether unexpired. -/
theorem qvlClass_accept_iff {qvl : QvlOutcome} :
    (qvlClass qvl).1 = .accept ↔ ∃ kind, qvl.AcceptsAs kind := by
  cases qvl with
  | notRun reason => simp [qvlClass, QvlOutcome.AcceptsAs]
  | error code => simp [qvlClass, QvlOutcome.AcceptsAs]
  | verdict expStatus result =>
      by_cases hacc : qvlAccepts result = true
      · obtain ⟨kind, hkind⟩ := qvlAccepts_iff.mp hacc
        by_cases hexp : expStatus = 0
        · simp [qvlClass, QvlOutcome.AcceptsAs, hacc, hexp, hkind]
        · simp [qvlClass, QvlOutcome.AcceptsAs, hacc, hexp]
      · have hnone : ∀ kind, result.standing? ≠ some kind := fun kind hkind =>
          hacc (qvlAccepts_iff.mpr ⟨kind, hkind⟩)
        simp [qvlClass, QvlOutcome.AcceptsAs, hacc, hnone]

/-! ## Classification -/

/-- What the bucket of a case says about the two outcomes. -/
structure Classified (dcap : DcapOutcome) (qvl : QvlOutcome) (bucket : Bucket) : Prop where
  agreeAccept : bucket = .agreeAccept ↔
    ∃ standing, dcap = .accept standing ∧ qvl.AcceptsAs standing.kind
  standingMismatch : bucket = .standingMismatch ↔
    ∃ standing kind, dcap = .accept standing ∧ qvl.AcceptsAs kind ∧ kind ≠ standing.kind
  dangerous : (∃ kind, bucket = .dangerous kind) ↔ Dangerous dcap qvl
  dcapPanic : bucket = .dcapPanic ↔ ∃ msg, dcap = .panic msg

theorem QvlOutcome.AcceptsAs.unique {qvl : QvlOutcome} {kind kind' : StandingKind}
    (h : qvl.AcceptsAs kind) (h' : qvl.AcceptsAs kind') : kind = kind' := by
  obtain ⟨result, rfl, hkind⟩ := h
  obtain ⟨result', heq, hkind'⟩ := h'
  cases heq
  exact Option.some.inj (hkind.symm.trans hkind')

/-- Both accept. -/
theorem classify_accept {standing : TcbStanding} {qvl : QvlOutcome} {kind : StandingKind}
    (h : qvl.AcceptsAs kind) :
    classify (.accept standing) qvl =
      .ok (if kind = standing.kind then .agreeAccept else .standingMismatch) := by
  have hclass := qvlClass_accept_iff.mpr ⟨kind, h⟩
  obtain ⟨result, rfl, hkind⟩ := h
  have hmatch : standingMatches result standing = true ↔ kind = standing.kind := by
    rw [standingMatches_iff, hkind, Option.some.injEq]
  simp only [classify, hclass, hmatch]

/-- Only this crate accepts. -/
theorem classify_dangerous (standing : TcbStanding) {qvl : QvlOutcome}
    (h : ∀ kind, ¬ qvl.AcceptsAs kind) :
    ∃ kind, classify (.accept standing) qvl = .ok (.dangerous kind) := by
  have hclass : (qvlClass qvl).1 ≠ .accept := fun heq =>
    absurd (qvlClass_accept_iff.mp heq) (not_exists.mpr h)
  cases hcls : (qvlClass qvl).1 with
  | accept => exact absurd hcls hclass
  | acceptExpired => exact ⟨"qvl-accept-expired", by simp only [classify, hcls]⟩
  | reject =>
      cases qvl with
      | notRun reason => exact ⟨"qvl-not-run", by simp only [classify, hcls]⟩
      | error code => exact ⟨"qvl-rejects", by simp only [classify, hcls]⟩
      | verdict expStatus result => exact ⟨"qvl-rejects", by simp only [classify, hcls]⟩

theorem rejectDelta_cases (category : ErrorCategory) (detail : String) (expStatus : UInt32) :
    rejectDelta category detail expStatus = .unexplainedSafe ∨
      ∃ kind, rejectDelta category detail expStatus = .knownDelta kind := by
  unfold rejectDelta
  split
  · exact .inr ⟨_, rfl⟩
  · split
    · exact .inr ⟨_, rfl⟩
    · split
      · exact .inr ⟨_, rfl⟩
      · exact .inl rfl

/-- A rejection is never a finding of the kinds that fail a run. -/
theorem classify_reject (category : ErrorCategory) (detail : String) (qvl : QvlOutcome) :
    ∃ bucket, classify (.reject category detail) qvl = .ok bucket ∧
      (bucket = .agreeReject ∨ bucket = .unexplainedSafe ∨ ∃ kind, bucket = .knownDelta kind) := by
  cases hcls : (qvlClass qvl).1 with
  | reject => exact ⟨.agreeReject, by simp only [classify, hcls], .inl rfl⟩
  | accept =>
      refine ⟨rejectDelta category detail (qvlClass qvl).2, by simp only [classify, hcls], .inr ?_⟩
      exact rejectDelta_cases ..
  | acceptExpired =>
      refine ⟨rejectDelta category detail (qvlClass qvl).2, by simp only [classify, hcls], .inr ?_⟩
      exact rejectDelta_cases ..

/-- `unreachable!` is unreachable, and each bucket means what it is called. -/
theorem classify_spec (dcap : DcapOutcome) (qvl : QvlOutcome) :
    ∃ bucket, classify dcap qvl = .ok bucket ∧ Classified dcap qvl bucket := by
  cases dcap with
  | panic msg => exact ⟨.dcapPanic, rfl, by simp, by simp, by simp [Dangerous], by simp⟩
  | reject category detail =>
      obtain ⟨bucket, hclassify, hbucket⟩ := classify_reject category detail qvl
      refine ⟨bucket, hclassify, ?_⟩
      rcases hbucket with rfl | rfl | ⟨kind, rfl⟩
      · exact ⟨by simp, by simp, by simp [Dangerous], by simp⟩
      · exact ⟨by simp, by simp, by simp [Dangerous], by simp⟩
      · exact ⟨by simp, by simp, by simp [Dangerous], by simp⟩
  | accept standing =>
      by_cases hqvl : ∃ kind, qvl.AcceptsAs kind
      · obtain ⟨kind, hkind⟩ := hqvl
        have hunique : ∀ kind', qvl.AcceptsAs kind' ↔ kind' = kind := fun kind' =>
          ⟨fun h => h.unique hkind, fun h => h ▸ hkind⟩
        refine ⟨_, classify_accept hkind, ?_⟩
        by_cases hsame : kind = standing.kind
        · rw [if_pos hsame]
          exact ⟨by simp [hunique, hsame], by simp [hunique, hsame], by simp [Dangerous, hunique],
            by simp⟩
        · rw [if_neg hsame]
          exact ⟨by simp [hunique, Ne.symm hsame], by simp [hunique, hsame],
            by simp [Dangerous, hunique], by simp⟩
      · have hnone := not_exists.mp hqvl
        obtain ⟨kind, hclassify⟩ := classify_dangerous standing hnone
        exact ⟨_, hclassify, by simp [hnone], by simp [hnone], by simp [Dangerous, hnone], by simp⟩

/-! ## Counters -/

/-- The counters of a tally that count cases. -/
inductive Counter where
  | agreeAccept
  | agreeReject
  | knownDelta
  | unexplainedSafe
  | dangerous
  | dangerousKnown
  | standingMismatch
  | dcapPanic
  deriving DecidableEq

def Tally.count (tally : Tally) : Counter → Nat
  | .agreeAccept => tally.agreeAccept
  | .agreeReject => tally.agreeReject
  | .knownDelta => tally.knownDelta
  | .unexplainedSafe => tally.unexplainedSafe
  | .dangerous => tally.dangerous
  | .dangerousKnown => tally.dangerousKnown
  | .standingMismatch => tally.standingMismatch
  | .dcapPanic => tally.dcapPanic

/-- The sum of all the counters but `vanished`. -/
def Tally.total (tally : Tally) : Nat :=
  tally.agreeAccept + tally.agreeReject + tally.knownDelta + tally.unexplainedSafe +
    tally.dangerous + tally.dangerousKnown + tally.standingMismatch + tally.dcapPanic

/-- The counter of a case in `bucket` that is allowlisted or not. -/
def bucketCounter (known : Bool) : Bucket → Counter
  | .agreeAccept => .agreeAccept
  | .agreeReject => .agreeReject
  | .knownDelta _ => .knownDelta
  | .unexplainedSafe => .unexplainedSafe
  | .dangerous _ => if known then .dangerousKnown else .dangerous
  | .standingMismatch => .standingMismatch
  | .dcapPanic => .dcapPanic

theorem count_add (tally : Tally) (bucket : Bucket) (counter : Counter) :
    (tally.add bucket).count counter =
      tally.count counter + if bucketCounter false bucket = counter then 1 else 0 := by
  cases bucket <;> cases counter <;> simp [Tally.add, Tally.count, bucketCounter]

theorem total_add (tally : Tally) (bucket : Bucket) :
    (tally.add bucket).total = tally.total + 1 ∧ (tally.add bucket).vanished = tally.vanished := by
  cases bucket <;> simp only [Tally.add, Tally.total, and_true] <;> omega

theorem foldl_vanished {κ : Type} (p : κ → Bool) (entries : List (κ × String)) (tally : Tally) :
    entries.foldl (fun tally entry =>
        if p entry.1 then { tally with vanished := tally.vanished + 1 } else tally) tally =
      { tally with vanished := tally.vanished + entries.countP fun entry => p entry.1 } := by
  induction entries generalizing tally with
  | nil => rfl
  | cons entry entries ih =>
      rw [List.foldl_cons, ih, List.countP_cons]
      by_cases hp : p entry.1 = true
      · simp only [if_pos hp]
        rw [Nat.add_assoc, Nat.add_comm 1]
      · simp only [if_neg hp, Nat.add_zero]

/-- A crash or a mismatch outranks everything else. -/
theorem exitCode_spec (tally : Tally) :
    (tally.exitCode = exitFail ↔ tally.dcapPanic > 0 ∨ tally.standingMismatch > 0) ∧
    (tally.exitCode = exitReview ↔ ¬ (tally.dcapPanic > 0 ∨ tally.standingMismatch > 0) ∧
      (tally.dangerous > 0 ∨ tally.vanished > 0)) ∧
    (tally.exitCode = exitClean ↔ ¬ (tally.dcapPanic > 0 ∨ tally.standingMismatch > 0) ∧
      ¬ (tally.dangerous > 0 ∨ tally.vanished > 0)) := by
  have hfr : exitFail ≠ exitReview := by decide
  have hfc : exitFail ≠ exitClean := by decide
  have hrc : exitReview ≠ exitClean := by decide
  unfold Tally.exitCode
  by_cases hfail : tally.dcapPanic > 0 ∨ tally.standingMismatch > 0
  · simp [hfail, hfr, hfc]
  · by_cases hreview : tally.dangerous > 0 ∨ tally.vanished > 0
    · simp [hfail, hreview, hfr.symm, hrc]
    · simp [hfail, hreview, hfc.symm, hrc.symm]

section

variable {κ : Type} [Ord κ]

/-- The counter a case goes to. -/
def counterOf (allowed : Std.TreeMap κ String) (case : Case κ) : Option Counter :=
  match classify case.dcap case.qvl with
  | .ok bucket => some (bucketCounter (allowed.contains case.key) bucket)
  | .error _ => none

variable {allowed : Std.TreeMap κ String}

/-- Every case goes to a counter, and to which one says what its outcomes are. -/
theorem counterOf_spec (allowed : Std.TreeMap κ String) (case : Case κ) :
    (∃ counter, counterOf allowed case = some counter) ∧
    (counterOf allowed case = some .dcapPanic ∨ counterOf allowed case = some .standingMismatch ↔
      Defect case.dcap case.qvl) ∧
    (counterOf allowed case = some .dangerous ↔
      Dangerous case.dcap case.qvl ∧ case.key ∉ allowed) ∧
    (counterOf allowed case = some .dangerousKnown ↔
      Dangerous case.dcap case.qvl ∧ case.key ∈ allowed) := by
  obtain ⟨bucket, hclassify, hspec⟩ := classify_spec case.dcap case.qvl
  have hcounter : counterOf allowed case =
      some (bucketCounter (allowed.contains case.key) bucket) := by
    rw [counterOf, hclassify]
  refine ⟨⟨_, hcounter⟩, ?_⟩
  rw [hcounter, Defect, ← hspec.dcapPanic, ← hspec.standingMismatch, ← hspec.dangerous,
    Std.TreeMap.mem_iff_contains]
  cases bucket <;> cases allowed.contains case.key <;> simp [bucketCounter]

/-- The counters of `tally` are those of `cases`. -/
def Counts (allowed : Std.TreeMap κ String) (cases : List (Case κ)) (tally : Tally) : Prop :=
  ∀ counter, tally.count counter = cases.countP fun case => counterOf allowed case = some counter

/-- An acceptance that QVL does not share and the allowlist does not record. -/
def Unrecorded (allowed : Std.TreeMap κ String) (cases : List (Case κ)) : Prop :=
  ∃ case ∈ cases, Dangerous case.dcap case.qvl ∧ case.key ∉ allowed

/-- An allowlist entry in scope for which nothing came out dangerous. -/
def Vanished (allowed : Std.TreeMap κ String) (inScope : κ → Bool) (cases : List (Case κ)) : Prop :=
  ∃ key ∈ allowed, inScope key = true ∧
    ∀ case ∈ cases, case.key = key → ¬ Dangerous case.dcap case.qvl

variable {cases : List (Case κ)} {tally : Tally}

theorem Counts.pos_iff (h : Counts allowed cases tally) (counter : Counter) :
    tally.count counter > 0 ↔ ∃ case ∈ cases, counterOf allowed case = some counter := by
  rw [h, gt_iff_lt, List.countP_pos_iff]
  simp only [decide_eq_true_eq]

theorem Counts.defect_iff (h : Counts allowed cases tally) :
    tally.dcapPanic > 0 ∨ tally.standingMismatch > 0 ↔
      ∃ case ∈ cases, Defect case.dcap case.qvl := by
  have hpanic : tally.dcapPanic > 0 ↔ _ := h.pos_iff .dcapPanic
  have hmismatch : tally.standingMismatch > 0 ↔ _ := h.pos_iff .standingMismatch
  rw [hpanic, hmismatch, ← exists_or]
  refine exists_congr fun case => ?_
  rw [← and_or_left, (counterOf_spec allowed case).2.1]

theorem Counts.unrecorded_iff (h : Counts allowed cases tally) :
    tally.dangerous > 0 ↔ Unrecorded allowed cases := by
  have hdangerous : tally.dangerous > 0 ↔ _ := h.pos_iff .dangerous
  rw [hdangerous]
  refine exists_congr fun case => ?_
  rw [(counterOf_spec allowed case).2.2.1]

/-- Where no two cases share a key, an entry vanishes when its case is not dangerous. -/
theorem vanished_iff_of_nodup {inScope : κ → Bool}
    (hscope : ∀ key, inScope key = true ↔ ∃ case ∈ cases, case.key = key)
    (hnodup : (cases.map Case.key).Nodup) :
    Vanished allowed inScope cases ↔
      ∃ case ∈ cases, case.key ∈ allowed ∧ ¬ Dangerous case.dcap case.qvl := by
  refine ⟨fun h => ?_, fun h => ?_⟩
  · obtain ⟨key, hkey, hin, hnone⟩ := h
    obtain ⟨case, hmem, rfl⟩ := (hscope key).mp hin
    exact ⟨case, hmem, hkey, hnone case hmem rfl⟩
  · obtain ⟨case, hmem, hkey, hsafe⟩ := h
    refine ⟨case.key, hkey, (hscope _).mpr ⟨case, hmem, rfl⟩, fun other hother heq => ?_⟩
    rwa [List.inj_on_of_nodup_map hnodup hother hmem heq]

/-! ## Runs -/

/-- What counting `cases` adds to a state. -/
structure Counted (allowed : Std.TreeMap κ String) (cases : List (Case κ))
    (state state' : RunState κ) : Prop where
  counts : ∀ counter, state'.tally.count counter = state.tally.count counter +
    cases.countP fun case => counterOf allowed case = some counter
  total : state'.tally.total = state.tally.total + cases.length
  vanished : state'.tally.vanished = state.tally.vanished
  reproduced : ∀ key, key ∈ state'.reproduced ↔ key ∈ state.reproduced ∨
    ∃ case ∈ cases, case.key = key ∧ counterOf allowed case = some .dangerousKnown

theorem Counted.refl (state : RunState κ) : Counted allowed [] state state :=
  ⟨fun _ => rfl, rfl, rfl, fun key => by simp⟩

theorem Counted.cons {case : Case κ} {cases : List (Case κ)} {state mid state' : RunState κ}
    (hstep : Counted allowed [case] state mid) (hrun : Counted allowed cases mid state') :
    Counted allowed (case :: cases) state state' where
  counts counter := by
    have hsplit : case :: cases = [case] ++ cases := rfl
    rw [hrun.counts, hstep.counts, hsplit, List.countP_append, Nat.add_assoc]
  total := by
    have hsplit : case :: cases = [case] ++ cases := rfl
    rw [hrun.total, hstep.total, hsplit, List.length_append, Nat.add_assoc]
  vanished := hrun.vanished.trans hstep.vanished
  reproduced key := by
    rw [hrun.reproduced, hstep.reproduced]
    simp only [List.mem_cons, List.not_mem_nil, or_false, exists_eq_left, exists_eq_or_imp,
      or_assoc]

variable [Std.TransOrd κ]

/-- An allowlisted dangerous case is set apart and remembered. -/
theorem tallyCase_known {state : RunState κ} {case : Case κ} {bucket : Bucket}
    (hclassify : classify case.dcap case.qvl = .ok bucket)
    (hknown : bucketCounter (allowed.contains case.key) bucket = .dangerousKnown) :
    tallyCase allowed state case =
      .ok { tally := { state.tally with dangerousKnown := state.tally.dangerousKnown + 1 },
            reproduced := state.reproduced.insert case.key } := by
  rw [tallyCase, hclassify, Checks.ok_bind]
  cases bucket with
  | dangerous kind =>
      cases hcontains : allowed.contains case.key with
      | false =>
          rw [hcontains] at hknown
          cases hknown
      | true =>
          rw [Std.TreeMap.contains_eq_isSome_getElem?, Option.isSome_iff_exists] at hcontains
          obtain ⟨finding, hfinding⟩ := hcontains
          simp only [hfinding]
          rfl
  | _ => cases hknown

/-- Every other case goes to its bucket. -/
theorem tallyCase_add (state : RunState κ) {case : Case κ} {bucket : Bucket}
    (hclassify : classify case.dcap case.qvl = .ok bucket)
    (hother : bucketCounter (allowed.contains case.key) bucket ≠ .dangerousKnown) :
    tallyCase allowed state case = .ok { state with tally := state.tally.add bucket } ∧
      bucketCounter (allowed.contains case.key) bucket = bucketCounter false bucket := by
  rw [tallyCase, hclassify, Checks.ok_bind]
  cases bucket with
  | dangerous kind =>
      cases hcontains : allowed.contains case.key with
      | true =>
          rw [hcontains] at hother
          exact absurd rfl hother
      | false =>
          have hnone : allowed[case.key]? = none := by
            rw [Std.TreeMap.contains_eq_isSome_getElem?] at hcontains
            exact Option.not_isSome_iff_eq_none.mp (by simp [hcontains])
          simp only [hnone]
          exact ⟨rfl, trivial⟩
  | _ => exact ⟨rfl, rfl⟩

variable [Std.LawfulEqOrd κ]

/-- **One case is counted once.** -/
theorem tallyCase_counted (allowed : Std.TreeMap κ String) (state : RunState κ) (case : Case κ) :
    ∃ state', tallyCase allowed state case = .ok state' ∧ Counted allowed [case] state state' := by
  obtain ⟨bucket, hclassify, _⟩ := classify_spec case.dcap case.qvl
  have hcounter : counterOf allowed case =
      some (bucketCounter (allowed.contains case.key) bucket) := by
    rw [counterOf, hclassify]
  by_cases hknown : bucketCounter (allowed.contains case.key) bucket = .dangerousKnown
  · refine ⟨_, tallyCase_known hclassify hknown, ?_⟩
    rw [hknown] at hcounter
    refine ⟨fun counter => ?_, ?_, rfl, fun key => ?_⟩
    · cases counter <;> simp [Tally.count, hcounter]
    · simp only [Tally.total, List.length_singleton]
      omega
    · rw [Std.TreeSet.mem_insert, Std.LawfulEqCmp.compare_eq_iff_eq]
      simp [hcounter, or_comm]
  · obtain ⟨hrun, hsame⟩ := tallyCase_add state hclassify hknown
    obtain ⟨htotal, hvanished⟩ := total_add state.tally bucket
    refine ⟨_, hrun, fun counter => ?_, htotal, hvanished, fun key => ?_⟩
    · rw [count_add, ← hsame, List.countP_singleton, hcounter]
      simp only [Option.some.injEq, decide_eq_true_eq]
    · simp [hcounter, hknown]

/-- **A run counts every case.** -/
theorem foldlM_tallyCase (allowed : Std.TreeMap κ String) (cases : List (Case κ))
    (state : RunState κ) :
    ∃ state', cases.foldlM (tallyCase allowed) state = .ok state' ∧
      Counted allowed cases state state' := by
  induction cases generalizing state with
  | nil => exact ⟨state, rfl, .refl state⟩
  | cons case cases ih =>
      obtain ⟨mid, hstep, hcounted⟩ := tallyCase_counted allowed state case
      obtain ⟨state', hrun, hrest⟩ := ih mid
      refine ⟨state', ?_, hcounted.cons hrest⟩
      rw [List.foldlM_cons, hstep, Checks.ok_bind, hrun]

/-- The last loop counts the entries in scope that no case reproduced, and nothing else. -/
theorem countVanished_spec (allowed : Std.TreeMap κ String) (inScope : κ → Bool)
    (state : RunState κ) :
    (∀ counter, (countVanished allowed inScope state).count counter = state.tally.count counter) ∧
      (countVanished allowed inScope state).total = state.tally.total ∧
      ((countVanished allowed inScope state).vanished > 0 ↔ state.tally.vanished > 0 ∨
        ∃ key ∈ allowed, inScope key = true ∧ key ∉ state.reproduced) := by
  rw [countVanished, Std.TreeMap.foldl_eq_foldl_toList,
    foldl_vanished fun key => inScope key && !state.reproduced.contains key]
  refine ⟨fun counter => by cases counter <;> rfl, rfl, ?_⟩
  show 0 < state.tally.vanished + _ ↔ _
  rw [Nat.add_pos_iff_pos_or_pos, List.countP_pos_iff]
  refine or_congr_right ⟨fun h => ?_, fun h => ?_⟩
  · obtain ⟨entry, hmem, hentry⟩ := h
    rw [Bool.and_eq_true, Bool.not_eq_true'] at hentry
    have hkey : entry.1 ∈ allowed := by
      rw [← Std.TreeMap.mem_keys, ← Std.TreeMap.map_fst_toList_eq_keys]
      exact List.mem_map_of_mem hmem
    refine ⟨entry.1, hkey, hentry.1, fun hrep => ?_⟩
    rw [Std.TreeSet.mem_iff_contains, hentry.2] at hrep
    cases hrep
  · obtain ⟨key, hkey, hscope, hrep⟩ := h
    rw [← Std.TreeMap.mem_keys, ← Std.TreeMap.map_fst_toList_eq_keys] at hkey
    obtain ⟨entry, hmem, rfl⟩ := List.mem_map.mp hkey
    refine ⟨entry, hmem, ?_⟩
    rw [Bool.and_eq_true, Bool.not_eq_true']
    exact ⟨hscope, Bool.eq_false_iff.mpr fun h => hrep (Std.TreeSet.mem_iff_contains.mpr h)⟩

/-! ## The verdict -/

/-- What the tally of a run says about its cases. -/
structure Explained (allowed : Std.TreeMap κ String) (inScope : κ → Bool) (cases : List (Case κ))
    (tally : Tally) : Prop where
  counted : ∀ case ∈ cases, ∃ counter, counterOf allowed case = some counter
  counts : Counts allowed cases tally
  total : tally.total = cases.length
  fail : tally.exitCode = exitFail ↔ ∃ case ∈ cases, Defect case.dcap case.qvl
  review : tally.exitCode = exitReview ↔ (¬ ∃ case ∈ cases, Defect case.dcap case.qvl) ∧
    (Unrecorded allowed cases ∨ Vanished allowed inScope cases)
  clean : tally.exitCode = exitClean ↔ (¬ ∃ case ∈ cases, Defect case.dcap case.qvl) ∧
    ¬ Unrecorded allowed cases ∧ ¬ Vanished allowed inScope cases
  sound : tally.exitCode = exitClean → ∀ case ∈ cases, case.key ∉ allowed →
    ∀ standing, case.dcap = .accept standing → case.qvl.AcceptsAs standing.kind
  distinct : (cases.map Case.key).Nodup → (Vanished allowed inScope cases ↔
    ∃ case ∈ cases, case.key ∈ allowed ∧ ¬ Dangerous case.dcap case.qvl)

/-- The entries in scope that were not reproduced are those of which nothing was dangerous. -/
theorem vanished_iff {inScope : κ → Bool} {state : RunState κ}
    (h : Counted allowed cases {} state) :
    (countVanished allowed inScope state).vanished > 0 ↔ Vanished allowed inScope cases := by
  have hzero : ¬ state.tally.vanished > 0 := by
    rw [h.vanished]
    exact Nat.lt_irrefl 0
  rw [(countVanished_spec allowed inScope state).2.2, or_iff_right hzero, Vanished]
  refine exists_congr fun key => and_congr_right fun hkey => and_congr_right fun _ => ?_
  have hempty : key ∉ ({} : RunState κ).reproduced := Std.TreeSet.not_mem_emptyc
  rw [h.reproduced, or_iff_right hempty]
  refine ⟨fun hrep case hmem heq hdangerous => hrep ?_, fun hnone hrep => ?_⟩
  · subst heq
    exact ⟨case, hmem, rfl, (counterOf_spec allowed case).2.2.2.mpr ⟨hdangerous, hkey⟩⟩
  · obtain ⟨case, hmem, heq, hknown⟩ := hrep
    exact hnone case hmem heq ((counterOf_spec allowed case).2.2.2.mp hknown).1

/-- **Every run ends, and its tally is about its cases.** -/
theorem tallyRun_explained (allowed : Std.TreeMap κ String) {inScope : κ → Bool}
    (hscope : ∀ key, inScope key = true ↔ ∃ case ∈ cases, case.key = key) :
    ∃ tally, tallyRun allowed inScope cases = .ok tally ∧
      Explained allowed inScope cases tally := by
  obtain ⟨state, hrun, hcounted⟩ := foldlM_tallyCase allowed cases {}
  obtain ⟨hcount, htotal, _⟩ := countVanished_spec allowed inScope state
  have hcounts : Counts allowed cases (countVanished allowed inScope state) := by
    intro counter
    rw [hcount, hcounted.counts]
    cases counter <;> exact Nat.zero_add _
  obtain ⟨hfail, hreview, hclean⟩ := exitCode_spec (countVanished allowed inScope state)
  rw [hcounts.defect_iff] at hfail hreview hclean
  rw [hcounts.unrecorded_iff, vanished_iff hcounted] at hreview hclean
  rw [not_or] at hclean
  refine ⟨countVanished allowed inScope state, by rw [tallyRun, hrun]; rfl, ?_⟩
  exact {
    counted := fun case _ => (counterOf_spec allowed case).1
    counts := hcounts
    total := by rw [htotal, hcounted.total]; exact Nat.zero_add _
    fail := hfail
    review := hreview
    clean := hclean
    distinct := vanished_iff_of_nodup hscope
    sound := by
      intro hexit case hmem hkey standing haccept
      obtain ⟨hdefect, hunrecorded, _⟩ := hclean.mp hexit
      by_contra hnot
      by_cases hqvl : ∃ kind, case.qvl.AcceptsAs kind
      · obtain ⟨kind, hkind⟩ := hqvl
        refine hdefect ⟨case, hmem, .inr ⟨standing, kind, haccept, hkind, ?_⟩⟩
        rintro rfl
        exact hnot hkind
      · exact hunrecorded ⟨case, hmem, ⟨standing, haccept, not_exists.mp hqvl⟩, hkey⟩ }

end

/-! ## The two commands -/

theorem present_iff {cases : List (Case String)} {case : String} :
    present cases case = true ↔ ∃ dir ∈ cases, dir.key = case := by
  simp only [present, List.any_eq_true, beq_iff_eq]

theorem mem_allowedCases {allowlist : List AllowCase} {case : String} :
    case ∈ allowedCases allowlist ↔ ∃ entry ∈ allowlist, entry.case = case := by
  rw [allowedCases, Std.TreeMap.mem_ofList, List.contains_iff_mem, List.map_map, List.mem_map]
  rfl

theorem ofNat_toNat_of_lt {n : UInt64} {m : Nat} (h : m < n.toNat) : (UInt64.ofNat m).toNat = m :=
  UInt64.toNat_ofNat_of_lt' (h.trans n.toNat_lt)

/-- The window of a sweep is the list of its iterations. -/
theorem SweepOpts.mem_indices {opts : SweepOpts} {k : UInt64} :
    k ∈ opts.indices ↔ opts.inWindow k = true := by
  rw [SweepOpts.indices, SweepOpts.inWindow]
  cases opts.onlyIter with
  | some only => simp
  | none =>
      simp only [List.mem_map, List.mem_range, decide_eq_true_eq, UInt64.lt_iff_toNat_lt]
      refine ⟨fun h => ?_, fun h => ⟨k.toNat, h, UInt64.ofNat_toNat⟩⟩
      obtain ⟨m, hm, rfl⟩ := h
      rwa [ofNat_toNat_of_lt hm]

theorem SweepOpts.indices_nodup (opts : SweepOpts) : opts.indices.Nodup := by
  rw [SweepOpts.indices]
  cases opts.onlyIter with
  | some only => exact List.nodup_singleton only
  | none =>
      refine List.nodup_range.map_on fun m hm m' hm' heq => ?_
      have hnat := congrArg UInt64.toNat heq
      rwa [ofNat_toNat_of_lt (List.mem_range.mp hm), ofNat_toNat_of_lt (List.mem_range.mp hm')]
        at hnat

theorem SweepOpts.map_key_cases (opts : SweepOpts)
    (outcome : UInt64 → DcapOutcome × QvlOutcome) :
    (opts.cases outcome).map Case.key = opts.indices := by
  rw [SweepOpts.cases, List.map_map]
  exact List.map_id _

theorem SweepOpts.inWindow_iff (opts : SweepOpts) (outcome : UInt64 → DcapOutcome × QvlOutcome)
    (k : UInt64) : opts.inWindow k = true ↔ ∃ case ∈ opts.cases outcome, case.key = k := by
  rw [← SweepOpts.mem_indices, ← opts.map_key_cases outcome, List.mem_map]

/--
**The exit code hides nothing.**

Whatever the outcomes and the allowlist, a run of either command ends. Each case is in
one counter; the run FAILs exactly on a defect, allowlisted or not, asks for REVIEW
exactly on an unrecorded danger or a recorded one that is gone, and is CLEAN otherwise,
in which case every acceptance that is not allowlisted is one QVL shares. No two cases
of a sweep have one key.
-/
theorem exit_code_hides_nothing :
    (∀ (allowlist : List AllowCase) (cases : List (Case String)),
      ∃ tally, fixturesCmd allowlist cases = .ok tally ∧
        Explained (allowedCases allowlist) (present cases) cases tally ∧
        ∀ case, case ∈ allowedCases allowlist ↔ ∃ entry ∈ allowlist, entry.case = case) ∧
    ∀ (opts : SweepOpts) (outcome : UInt64 → DcapOutcome × QvlOutcome),
      ∃ tally, sweepRun opts outcome = .ok tally ∧
        Explained opts.allowIters opts.inWindow (opts.cases outcome) tally ∧
        ((opts.cases outcome).map Case.key).Nodup := by
  refine ⟨fun allowlist cases => ?_, fun opts outcome => ?_⟩
  · obtain ⟨tally, hrun, hexplained⟩ :=
      tallyRun_explained (allowedCases allowlist) fun _ => present_iff
    exact ⟨tally, hrun, hexplained, fun _ => mem_allowedCases⟩
  · obtain ⟨tally, hrun, hexplained⟩ :=
      tallyRun_explained opts.allowIters (opts.inWindow_iff outcome)
    refine ⟨tally, hrun, hexplained, ?_⟩
    rw [opts.map_key_cases]
    exact opts.indices_nodup

/-- An allowlist entry does not turn a mismatch of standings into a known finding. -/
example : (fixturesCmd [⟨"F1", "prod-1"⟩]
    [⟨"prod-1", .accept .upToDate, .verdict 0 .swHardeningNeeded⟩]).map Tally.exitCode =
      .ok exitFail := by
  decide +kernel

end Differ

end DcapVerify
