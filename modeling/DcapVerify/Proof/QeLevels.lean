import DcapVerify.Proof.Documents
import DcapVerify.Synthetic

/-!
# Which level a quoting enclave is judged by

Of the levels a QE report meets, `check_qe_identity` takes one with the greatest
ISVSVN. Where several share it, `max_by_key` takes the last of them, so conflicting
statuses are settled by the order of the document: an identity that lists an
out-of-date level before an up-to-date one at the same ISVSVN is accepted, and the
same identity the other way around is not.

The decision is a function of the levels as a set exactly when the levels that share
the greatest ISVSVN agree on being up to date.
-/

namespace DcapVerify

/-! ## The last of the greatest -/

theorem maxByKey_concat {α : Type} (key : α → UInt16) (xs : List α) (x : α) :
    maxByKey key (xs ++ [x]) =
      match maxByKey key xs with
      | none => some x
      | some b => if key b > key x then some b else some x := by
  rw [maxByKey, List.foldl_append]
  rfl

/-- What is selected is an element none exceeds, and nothing is only from the empty list. -/
theorem maxByKey_spec {α : Type} (key : α → UInt16) (xs : List α) :
    (maxByKey key xs = none ∧ xs = []) ∨
      ∃ m ∈ xs, maxByKey key xs = some m ∧ ∀ x ∈ xs, key x ≤ key m := by
  induction xs using List.reverseRecOn with
  | nil => exact .inl ⟨rfl, rfl⟩
  | append_singleton xs x ih =>
      refine .inr ?_
      rw [maxByKey_concat]
      rcases ih with ⟨hnone, rfl⟩ | ⟨m, hm, hsome, hmax⟩
      · rw [hnone]
        refine ⟨x, List.mem_singleton_self x, rfl, fun y hy => ?_⟩
        rw [List.mem_singleton.mp hy]
        exact UInt16.le_refl _
      · rw [hsome]
        dsimp only
        by_cases hgt : key m > key x
        · rw [if_pos hgt]
          refine ⟨m, List.mem_append_left _ hm, rfl, fun y hy => ?_⟩
          rcases List.mem_append.mp hy with hy | hy
          · exact hmax y hy
          · rw [List.mem_singleton.mp hy]
            exact UInt16.le_of_lt hgt
        · have hle : key m ≤ key x := UInt16.not_lt.mp hgt
          rw [if_neg hgt]
          refine ⟨x, List.mem_append_right _ (List.mem_singleton_self x), rfl, fun y hy => ?_⟩
          rcases List.mem_append.mp hy with hy | hy
          · exact UInt16.le_trans (hmax y hy) hle
          · rw [List.mem_singleton.mp hy]
            exact UInt16.le_refl _

/-- The last element is selected if none exceeds it. -/
theorem maxByKey_last {α : Type} {key : α → UInt16} {xs : List α} {x : α}
    (h : ∀ y ∈ xs, key y ≤ key x) : maxByKey key (xs ++ [x]) = some x := by
  rw [maxByKey_concat]
  rcases maxByKey_spec key xs with ⟨hnone, _⟩ | ⟨m, hm, hsome, _⟩
  · rw [hnone]
  · rw [hsome]
    exact if_neg (UInt16.not_lt.mpr (h m hm))

/-! ## What the identity should decide -/

/-- The level carries the greatest ISVSVN that the report meets. -/
structure Governs (levels : List QeTcbLevel) (report : SgxReportBody) (level : QeTcbLevel) :
    Prop where
  listed : level ∈ levels
  met : level.tcb.isvsvn ≤ report.isvSvn
  greatest : ∀ other ∈ levels, other.tcb.isvsvn ≤ report.isvSvn →
    other.tcb.isvsvn ≤ level.tcb.isvsvn

variable (C : Crates)

/-- Everything the identity requires of a report, except the level. -/
structure QeDescribes (identity : QeIdentity) (report : SgxReportBody) : Prop where
  id : identity.id = "QE"
  mrsigner : C.hexDecode identity.mrsigner = .ok report.mrsigner.toList
  isvprodid : identity.isvprodid = report.isvProdId
  miscselect : ∃ value mask : U8Array 4, C.hexDecode identity.miscselect = .ok value.toList ∧
    C.hexDecode identity.miscselectMask = .ok mask.toList ∧
    AgreesUnder mask report.miscSelect value
  attributes : ∃ value mask : U8Array 16, C.hexDecode identity.attributes = .ok value.toList ∧
    C.hexDecode identity.attributesMask = .ok mask.toList ∧
    AgreesUnder mask report.attributes value

/-- The fail-closed decision: every governing level is up to date, and there is one. -/
structure QeCurrent (identity : QeIdentity) (report : SgxReportBody) : Prop where
  describes : QeDescribes C identity report
  someMet : ∃ level ∈ identity.tcbLevels, level.tcb.isvsvn ≤ report.isvSvn
  allCurrent : ∀ level, Governs identity.tcbLevels report level → level.tcbStatus = "UpToDate"

/-- The check decides as it should, and the order of the levels does not matter. -/
structure QeDecisionSound (identity : QeIdentity) (report : SgxReportBody) : Prop where
  exact : checkQeIdentity C identity report = .ok () ↔ QeCurrent C identity report
  ordered : ∀ levels, levels.Perm identity.tcbLevels →
    (checkQeIdentity C { identity with tcbLevels := levels } report = .ok () ↔
      checkQeIdentity C identity report = .ok ())

variable {C} {identity : QeIdentity} {report : SgxReportBody}

theorem governs_perm {levels : List QeTcbLevel} (h : levels.Perm identity.tcbLevels)
    {level : QeTcbLevel} :
    Governs levels report level ↔ Governs identity.tcbLevels report level := by
  refine ⟨fun hg => ⟨h.mem_iff.mp hg.listed, hg.met, fun o ho => hg.greatest o (h.mem_iff.mpr ho)⟩,
    fun hg => ⟨h.mem_iff.mpr hg.listed, hg.met, fun o ho => hg.greatest o (h.mem_iff.mp ho)⟩⟩

/-- The level that is judged governs, and there is one as soon as some level is met. -/
theorem qeLevel_spec (identity : QeIdentity) (report : SgxReportBody) :
    (qeLevel identity report = none ∧
      ∀ level ∈ identity.tcbLevels, ¬ level.tcb.isvsvn ≤ report.isvSvn) ∨
    ∃ level, qeLevel identity report = some level ∧ Governs identity.tcbLevels report level := by
  have hmem (l : QeTcbLevel) : l ∈ identity.tcbLevels.filter (fun l => l.tcb.isvsvn ≤ report.isvSvn)
      ↔ l ∈ identity.tcbLevels ∧ l.tcb.isvsvn ≤ report.isvSvn := by
    rw [List.mem_filter, decide_eq_true_eq]
  rcases maxByKey_spec (fun l : QeTcbLevel => l.tcb.isvsvn)
    (identity.tcbLevels.filter fun l => l.tcb.isvsvn ≤ report.isvSvn) with
    ⟨hnone, hempty⟩ | ⟨m, hm, hsome, hmax⟩
  · refine .inl ⟨hnone, fun l hl hle => ?_⟩
    have hin := (hmem l).mpr ⟨hl, hle⟩
    rw [hempty] at hin
    cases hin
  · obtain ⟨hlisted, hmet⟩ := (hmem m).mp hm
    exact .inr ⟨m, hsome, hlisted, hmet, fun o ho hle => hmax o ((hmem o).mpr ⟨ho, hle⟩)⟩

/-- The check, with its level-independent part split off. -/
theorem checkQeIdentity_iff_level : checkQeIdentity C identity report = .ok () ↔
    QeDescribes C identity report ∧
      ∃ level, qeLevel identity report = some level ∧ level.tcbStatus = "UpToDate" := by
  rw [checkQeIdentity_eq_ok]
  refine ⟨fun h => ⟨⟨h.id, h.mrsigner, h.isvprodid, h.miscselect, h.attributes⟩, h.level⟩,
    fun h => ?_⟩
  obtain ⟨hd, hlevel⟩ := h
  exact ⟨hd.id, hd.mrsigner, hd.isvprodid, hd.miscselect, hd.attributes, hlevel⟩

theorem qeDescribes_levels (levels : List QeTcbLevel) :
    QeDescribes C { identity with tcbLevels := levels } report ↔ QeDescribes C identity report :=
  ⟨fun h => ⟨h.id, h.mrsigner, h.isvprodid, h.miscselect, h.attributes⟩,
    fun h => ⟨h.id, h.mrsigner, h.isvprodid, h.miscselect, h.attributes⟩⟩

/-- A governing level that is moved to the end is the one that is judged. -/
theorem exists_perm_judging {level : QeTcbLevel}
    (h : Governs identity.tcbLevels report level) :
    ∃ levels, levels.Perm identity.tcbLevels ∧
      qeLevel { identity with tcbLevels := levels } report = some level := by
  obtain ⟨pre, post, hsplit⟩ := List.append_of_mem h.listed
  have hperm : (pre ++ post ++ [level]).Perm identity.tcbLevels := by
    rw [hsplit, List.append_assoc]
    exact (List.perm_append_singleton level post).append_left pre
  refine ⟨pre ++ post ++ [level], hperm, ?_⟩
  have hlast : [level].filter (fun l => l.tcb.isvsvn ≤ report.isvSvn) = [level] := by
    rw [List.filter_singleton, decide_eq_true h.met]
    rfl
  rw [qeLevel, List.filter_append, hlast]
  refine maxByKey_last fun o ho => ?_
  rw [List.mem_filter, decide_eq_true_eq] at ho
  exact h.greatest o (hperm.mem_iff.mp (List.mem_append_left _ ho.1)) ho.2

/-- Levels that agree on being up to date: judging one of them is judging all. -/
theorem level_upToDate_iff
    (hagree : ∀ level level', Governs identity.tcbLevels report level →
      Governs identity.tcbLevels report level' →
      (level.tcbStatus = "UpToDate" ↔ level'.tcbStatus = "UpToDate"))
    {levels : List QeTcbLevel} (hperm : levels.Perm identity.tcbLevels) :
    (∃ level, qeLevel { identity with tcbLevels := levels } report = some level ∧
      level.tcbStatus = "UpToDate") ↔
    (∃ level ∈ identity.tcbLevels, level.tcb.isvsvn ≤ report.isvSvn) ∧
      ∀ level, Governs identity.tcbLevels report level → level.tcbStatus = "UpToDate" := by
  rcases qeLevel_spec { identity with tcbLevels := levels } report with
    ⟨hnone, hall⟩ | ⟨judged, hsome, hgov⟩
  · rw [hnone]
    refine ⟨fun h => ?_, fun h => ?_⟩
    · obtain ⟨_, hl, _⟩ := h
      cases hl
    · obtain ⟨⟨l, hl, hle⟩, _⟩ := h
      exact absurd hle (hall l (hperm.mem_iff.mpr hl))
  · rw [governs_perm hperm] at hgov
    rw [hsome]
    refine ⟨fun h => ?_, fun h => ⟨judged, rfl, h.2 judged hgov⟩⟩
    obtain ⟨_, hl, hstatus⟩ := h
    cases hl
    exact ⟨⟨judged, hgov.listed, hgov.met⟩, fun l hl => (hagree judged l hgov hl).mp hstatus⟩

variable (C)

/--
**When the QE's level is decided soundly.**

For every identity and report: the decision is the fail-closed one and the same in
every order of the levels, exactly if the levels that share the greatest ISVSVN met
agree on being up to date, or the identity does not describe the report anyway.
-/
theorem qe_decision_sound_iff (identity : QeIdentity) (report : SgxReportBody) :
    QeDecisionSound C identity report ↔
      (QeDescribes C identity report → ∀ level level',
        Governs identity.tcbLevels report level → Governs identity.tcbLevels report level' →
        (level.tcbStatus = "UpToDate" ↔ level'.tcbStatus = "UpToDate")) := by
  refine ⟨fun h hd => ?_, fun h => ?_⟩
  · -- an up-to-date level is judged in some order, so the check passes in every order
    have hall {level level' : QeTcbLevel} (hl : Governs identity.tcbLevels report level)
        (hl' : Governs identity.tcbLevels report level') (hstatus : level.tcbStatus = "UpToDate") :
        level'.tcbStatus = "UpToDate" := by
      obtain ⟨levels, hperm, hjudged⟩ := exists_perm_judging hl
      have hpass := checkQeIdentity_iff_level.mpr
        ⟨(qeDescribes_levels (C := C) levels).mpr hd, level, hjudged, hstatus⟩
      exact (h.exact.mp ((h.ordered levels hperm).mp hpass)).allCurrent level' hl'
    exact fun level level' hl hl' => ⟨hall hl hl', hall hl' hl⟩
  · have hdecide {levels : List QeTcbLevel} (hperm : levels.Perm identity.tcbLevels) :
        checkQeIdentity C { identity with tcbLevels := levels } report = .ok () ↔
          QeCurrent C identity report := by
      rw [checkQeIdentity_iff_level, qeDescribes_levels]
      refine ⟨fun hc => ?_, fun hc => ?_⟩
      · obtain ⟨hd, hlevel⟩ := hc
        obtain ⟨hmet, hcurrent⟩ := (level_upToDate_iff (h hd) hperm).mp hlevel
        exact ⟨hd, hmet, hcurrent⟩
      · exact ⟨hc.describes,
          (level_upToDate_iff (h hc.describes) hperm).mpr ⟨hc.someMet, hc.allCurrent⟩⟩
    have hself := hdecide (List.Perm.refl identity.tcbLevels)
    exact ⟨hself, fun levels hperm => (hdecide hperm).trans hself.symm⟩

namespace Synthetic

/-- The synthetic identity with two levels of conflicting status at ISVSVN 6. -/
def conflictingIdentity (first second : String) : QeIdentity :=
  { qeIdentity with tcbLevels := [⟨⟨6⟩, first⟩, ⟨⟨6⟩, second⟩] }

end Synthetic

/-- An out-of-date level at the greatest ISVSVN, accepted in one order and not in the other. -/
theorem conflicting_levels_accepted :
    let C := Synthetic.crates (Synthetic.registry "UpToDate")
    checkQeIdentity C (Synthetic.conflictingIdentity "OutOfDate" "UpToDate") Synthetic.qeReport =
        .ok () ∧
      ¬ QeCurrent C (Synthetic.conflictingIdentity "OutOfDate" "UpToDate") Synthetic.qeReport ∧
      checkQeIdentity C (Synthetic.conflictingIdentity "UpToDate" "OutOfDate") Synthetic.qeReport ≠
        .ok () := by
  refine ⟨by decide +kernel, fun h => ?_, by decide +kernel⟩
  have hstatus := h.allCurrent ⟨⟨6⟩, "OutOfDate"⟩ ⟨by simp [Synthetic.conflictingIdentity],
    by decide, by simp [Synthetic.conflictingIdentity]⟩
  exact absurd hstatus (by decide)

end DcapVerify
