import DcapVerify.Lib.Selection
import DcapVerify.Proof.Documents
import DcapVerify.Synthetic

/-!
# Which level a platform is judged by

`platform_standing` takes the first level of the TCB info that the platform meets, in
the order of the document. Intel's verifier collects the levels in a set sorted by
their components and PCESVN, greatest first, and takes the first that is met. On a
document that already descends in that order the two rules agree, down to which of
two equal levels is taken.

The rule is monotone in the platform: raising any SVN can only move it to an earlier
level.
-/

namespace DcapVerify

/-! ## Two selection rules -/

/-- The key Intel's set is sorted by: the component SVNs, then the PCESVN. -/
def levelKey (level : TcbLevel) : List Nat :=
  level.tcb.sgxtcbcomponents.map (fun component => component.svn.toNat) ++
    [level.tcb.pcesvn.toNat]

/-- The rule of `platform_standing`, over levels with their positions. -/
def documentSelection (info : TcbInfo) (pck : PckPlatformTcb) : Option (TcbLevel × Nat) :=
  info.tcbLevels.zipIdx.find? fun level => levelSatisfied level.1 pck

/-- Intel's rule, over levels with their positions. Of two equal keys the first inserted stays. -/
def sortedSelection (info : TcbInfo) (pck : PckPlatformTcb) : Option (TcbLevel × Nat) :=
  (Selection.setDesc (fun level => levelKey level.1) info.tcbLevels.zipIdx).find? fun level =>
    levelSatisfied level.1 pck

variable (C : Crates)

/-- The judgement of a platform under a given selection rule. -/
def standingBy (select : TcbInfo → PckPlatformTcb → Option (TcbLevel × Nat)) (info : TcbInfo)
    (pck : PckPlatformTcb) : Outcome TcbStanding := do
  let fmspc ← decodeHexField C 6 "TCB info fmspc" info.fmspc
  rejectIf (fmspc ≠ pck.fmspc) ⟨.tcbLevelUnsupported,
    s!"TCB info describes platform family {info.fmspc}, the quote's PCK certificate belongs to " ++
    s!"{C.hexEncode pck.fmspc.toList}"⟩
  let pceId ← decodeHexField C 2 "TCB info pceId" info.pceId
  rejectIf (pceId ≠ pck.pceId) ⟨.tcbLevelUnsupported,
    s!"TCB info describes PCE {info.pceId}, the quote's PCK certificate belongs to PCE " ++
    s!"{C.hexEncode pck.pceId.toList}"⟩
  let (selected, _) ← okOrReject (select info pck) ⟨.tcbLevelUnsupported,
    s!"platform TCB (components {debugList (pck.compSvns.toList.map toString)}, pcesvn " ++
    s!"{pck.pcesvn}) meets none of the {info.tcbLevels.length} levels in the TCB info"⟩
  statusStanding selected

variable {C}

/-- Forgetting the position gives the level `platform_standing` looks for. -/
theorem documentSelection_fst (info : TcbInfo) (pck : PckPlatformTcb) :
    (documentSelection info pck).map Prod.fst =
      info.tcbLevels.find? fun level => levelSatisfied level pck := by
  conv_rhs => rw [← List.zipIdx_map_fst 0 info.tcbLevels, List.find?_map]
  rfl

/-- **`platform_standing` judges by the document's order.** -/
theorem platformStanding_eq_document (info : TcbInfo) (pck : PckPlatformTcb) :
    platformStanding C info pck = standingBy C documentSelection info pck := by
  rw [platformStanding, standingBy, ← documentSelection_fst]
  refine bind_congr fun _ => bind_congr fun _ => bind_congr fun _ => bind_congr fun _ => ?_
  cases documentSelection info pck with
  | none => rfl
  | some selected => rfl

/-- A level's key is all that meeting it depends on. -/
theorem levelSatisfied_of_key {level level' : TcbLevel} (h : levelKey level = levelKey level')
    (pck : PckPlatformTcb) : levelSatisfied level pck = levelSatisfied level' pck := by
  obtain ⟨hcomponents, hpcesvn⟩ := List.append_inj' h rfl
  have hinj : Function.Injective fun component : TcbComponent => component.svn.toNat := by
    intro a b hab
    have hsvn : a.svn = b.svn := UInt32.toNat_inj.mp hab
    cases a
    exact congrArg TcbComponent.mk hsvn
  have hlist := List.map_injective_iff.mpr hinj hcomponents
  have hpce := UInt32.toNat_inj.mp (List.singleton_inj.mp hpcesvn)
  rw [levelSatisfied, levelSatisfied, hlist, hpce]

/-- `level` is at least `other` in every component and in the PCESVN, and above it somewhere. -/
structure Dominates (level other : TcbLevel) : Prop where
  components : List.Forall₂ (fun c d => d.svn ≤ c.svn) level.tcb.sgxtcbcomponents
    other.tcb.sgxtcbcomponents
  pcesvn : other.tcb.pcesvn ≤ level.tcb.pcesvn
  somewhere : level.tcb.pcesvn ≠ other.tcb.pcesvn ∨
    level.tcb.sgxtcbcomponents.map TcbComponent.svn ≠
      other.tcb.sgxtcbcomponents.map TcbComponent.svn

/-- The componentwise order refines into the lexicographic one. -/
theorem Dominates.key_lt {level other : TcbLevel} (h : Dominates level other) :
    levelKey other < levelKey level := by
  have hle : levelKey other ≤ levelKey level := by
    refine Selection.le_of_forall₂_le (List.rel_append ?_ (.cons h.pcesvn .nil))
    exact List.rel_map (R := fun d c => d.svn ≤ c.svn) (fun _ _ hsvn => hsvn) h.components.flip
  refine lt_of_le_of_ne hle fun heq => ?_
  obtain ⟨hcomponents, hpcesvn⟩ := List.append_inj' heq rfl
  rcases h.somewhere with hne | hne
  · exact hne (UInt32.toNat_inj.mp (List.singleton_inj.mp hpcesvn)).symm
  · have hinj : Function.Injective UInt32.toNat := fun _ _ => UInt32.toNat_inj.mp
    refine hne (List.map_injective_iff.mpr hinj ?_)
    rw [List.map_map, List.map_map]
    exact hcomponents.symm

/--
**On descending documents both rules select the same level.**

For levels listed in non-increasing order, duplicates included: the two rules pick the
same entry of the document or both find none, so the standing is the same, rejections
included; and no level that the platform meets dominates the selected one.
-/
theorem selection_agrees_on_descending (C : Crates) (info : TcbInfo)
    (hdesc : info.tcbLevels.Pairwise fun earlier later => levelKey later ≤ levelKey earlier)
    (pck : PckPlatformTcb) :
    documentSelection info pck = sortedSelection info pck ∧
      platformStanding C info pck = standingBy C sortedSelection info pck ∧
      ∀ selected, documentSelection info pck = some selected →
        ∀ level ∈ info.tcbLevels, levelSatisfied level pck = true →
          ¬ Dominates level selected.1 := by
  have hdesc' : Selection.Descending (fun level : TcbLevel × Nat => levelKey level.1)
      info.tcbLevels.zipIdx := by
    have hmap := List.pairwise_map (f := Prod.fst) (l := info.tcbLevels.zipIdx)
      (R := fun earlier later => levelKey later ≤ levelKey earlier)
    rw [List.zipIdx_map_fst] at hmap
    exact hmap.mp hdesc
  have hselect : documentSelection info pck = sortedSelection info pck :=
    (Selection.find?_setDesc (fun _ _ h => levelSatisfied_of_key h pck) hdesc').symm
  refine ⟨hselect, ?_, fun selected hselected level hlevel hmet hdom => ?_⟩
  · rw [platformStanding_eq_document, standingBy, standingBy, hselect]
  · obtain ⟨k, hk⟩ := List.mem_iff_getElem?.mp hlevel
    have hmem : (level, k) ∈ info.tcbLevels.zipIdx :=
      List.mem_zipIdx_iff_getElem?.mpr (by simpa using hk)
    have hle := Selection.key_le_of_find? hdesc' hselected _ hmem hmet
    exact absurd hdom.key_lt (not_lt.mpr hle)

namespace Synthetic

/-- Levels in descending order, the second key listed twice with conflicting statuses. -/
def descendingInfo : TcbInfo :=
  { tcbInfo "UpToDate" with
    tcbLevels := [level 6 "UpToDate" [], level 5 "SWHardeningNeeded" ["A"],
      level 5 "OutOfDate" ["B"], level 2 "OutOfDate" []] }

/-- A platform whose SVNs are all `svn`. -/
def platform (svn : UInt32) : PckPlatformTcb :=
  ⟨⟨[0, 0x90, 0x6e, 0xa1, 0, 0], rfl⟩, zeros 2, List.Vector.replicate 16 svn, svn⟩

end Synthetic

/-- On the synthetic document Intel's rule takes the first of the two equal levels as well. -/
theorem descending_duplicates_agree :
    let C := Synthetic.crates (Synthetic.registry "UpToDate")
    standingBy C sortedSelection Synthetic.descendingInfo (Synthetic.platform 5) =
      .ok (.swHardeningNeeded ["A"]) := by
  have hdesc : Synthetic.descendingInfo.tcbLevels.Pairwise fun earlier later =>
      levelKey later ≤ levelKey earlier := by decide +kernel
  have hagree := selection_agrees_on_descending
    (Synthetic.crates (Synthetic.registry "UpToDate")) Synthetic.descendingInfo hdesc
    (Synthetic.platform 5)
  refine hagree.2.1.symm.trans ?_
  decide +kernel

/-! ## Raising SVNs -/

/-- `after` is the same platform as `before` with no SVN lowered. -/
structure Patched (before after : PckPlatformTcb) : Prop where
  fmspc : after.fmspc = before.fmspc
  pceId : after.pceId = before.pceId
  compSvns : ∀ k, before.compSvns.get k ≤ after.compSvns.get k
  pcesvn : before.pcesvn ≤ after.pcesvn

/-- The index of the level `platform_standing` selects. -/
def selectedIndex (info : TcbInfo) (pck : PckPlatformTcb) : Option Nat :=
  info.tcbLevels.findIdx? fun level => levelSatisfied level pck

theorem LevelMet.mono {level : TcbLevel} {before after : PckPlatformTcb}
    (hpatch : Patched before after) (h : LevelMet level before) : LevelMet level after :=
  ⟨h.count, fun k component hk => UInt32.le_trans (h.components k component hk) (hpatch.compSvns k),
    UInt32.le_trans h.pcesvn hpatch.pcesvn⟩

theorem levelSatisfied_mono {level : TcbLevel} {before after : PckPlatformTcb}
    (hpatch : Patched before after) (h : levelSatisfied level before = true) :
    levelSatisfied level after = true :=
  levelSatisfied_iff.mpr ((levelSatisfied_iff.mp h).mono hpatch)

/-- The selected index is where the selected level is. -/
theorem find?_of_selectedIndex {info : TcbInfo} {pck : PckPlatformTcb} {i : Nat}
    (h : selectedIndex info pck = some i) :
    ∃ level, info.tcbLevels[i]? = some level ∧
      info.tcbLevels.find? (fun level => levelSatisfied level pck) = some level := by
  obtain ⟨hi, hmet, hfirst⟩ := List.findIdx?_eq_some_iff_getElem.mp h
  refine ⟨info.tcbLevels[i], List.getElem?_eq_getElem hi, ?_⟩
  rw [List.find?_eq_some_iff_getElem]
  refine ⟨hmet, i, hi, rfl, fun j hj => ?_⟩
  have hnot := Bool.eq_false_of_not_eq_true (hfirst j hj)
  rw [hnot]
  rfl

/-- Where the TCB info is about the platform, the standing is that of the selected level. -/
theorem platformStanding_of_selected {info : TcbInfo} {pck : PckPlatformTcb} {i : Nat}
    {level : TcbLevel} (hfmspc : C.hexDecode info.fmspc = .ok pck.fmspc.toList)
    (hpceId : C.hexDecode info.pceId = .ok pck.pceId.toList)
    (hindex : selectedIndex info pck = some i) (hlevel : info.tcbLevels[i]? = some level) :
    platformStanding C info pck = statusStanding level := by
  obtain ⟨level', hlevel', hfind⟩ := find?_of_selectedIndex hindex
  obtain rfl : level = level' := Option.some.inj (hlevel.symm.trans hlevel')
  rw [platformStanding, (decodeHexField_eq_ok C).mpr hfmspc, Checks.ok_bind, rejectIf,
    if_neg (not_not.mpr rfl), Checks.ok_bind, (decodeHexField_eq_ok C).mpr hpceId, Checks.ok_bind,
    rejectIf, if_neg (not_not.mpr rfl), Checks.ok_bind, hfind]
  rfl

/--
**Patching a platform never moves it to a later level.**

For any document, whatever the order and the shape of its levels: the level at the selected
index is the one a platform is judged by, and the index selected for the patched platform
is at most the one selected before. So an accepted platform
stays accepted where every earlier level carries an accepted status, and a platform
that meets some level still meets one.
-/
theorem patching_never_demotes (C : Crates) (info : TcbInfo) {before after : PckPlatformTcb}
    (hpatch : Patched before after) :
    (∀ pck i level, C.hexDecode info.fmspc = .ok pck.fmspc.toList →
      C.hexDecode info.pceId = .ok pck.pceId.toList → selectedIndex info pck = some i →
      info.tcbLevels[i]? = some level → platformStanding C info pck = statusStanding level) ∧
    (∀ i, selectedIndex info before = some i →
      ∃ j, j ≤ i ∧ selectedIndex info after = some j) ∧
    (∀ i standing, selectedIndex info before = some i →
      platformStanding C info before = .ok standing →
      (∀ j level, j < i → info.tcbLevels[j]? = some level → ∃ s, StandingOf level s) →
      ∃ s, platformStanding C info after = .ok s) ∧
    ((∃ level ∈ info.tcbLevels, levelSatisfied level before = true) →
      ∃ level ∈ info.tcbLevels, levelSatisfied level after = true) := by
  have hmono : ∀ i, selectedIndex info before = some i →
      ∃ j, j ≤ i ∧ selectedIndex info after = some j :=
    fun i hi => Selection.findIdx?_mono (fun _ _ h => levelSatisfied_mono hpatch h) hi
  refine ⟨fun _ _ _ => platformStanding_of_selected, hmono,
    fun i standing hi haccepted hearlier => ?_, fun h => ?_⟩
  · have hjudged := (platformStanding_eq_ok C).mp haccepted
    obtain ⟨j, hj, hindex⟩ := hmono i hi
    obtain ⟨level, hlevel, _⟩ := find?_of_selectedIndex hindex
    have hstanding : ∃ s, StandingOf level s := by
      rcases Nat.lt_or_eq_of_le hj with hlt | rfl
      · exact hearlier j level hlt hlevel
      · -- the same level as before
        have hsame := platformStanding_of_selected hjudged.fmspc hjudged.pceId hi hlevel
        rw [hsame] at haccepted
        exact ⟨standing, statusStanding_eq_ok.mp haccepted⟩
    obtain ⟨s, hs⟩ := hstanding
    refine ⟨s, ?_⟩
    rw [platformStanding_of_selected (hpatch.fmspc ▸ hjudged.fmspc) (hpatch.pceId ▸ hjudged.pceId)
      hindex hlevel]
    exact statusStanding_eq_ok.mpr hs
  · obtain ⟨level, hlevel, hmet⟩ := h
    exact ⟨level, hlevel, levelSatisfied_mono hpatch hmet⟩

/-- Patched from 5 to 6, the synthetic platform moves to the first level and stays accepted. -/
theorem patched_platform_promoted :
    let C := Synthetic.crates (Synthetic.registry "UpToDate")
    (∃ j, j ≤ 1 ∧ selectedIndex Synthetic.descendingInfo (Synthetic.platform 6) = some j) ∧
      ∃ s, platformStanding C Synthetic.descendingInfo (Synthetic.platform 6) = .ok s := by
  have hpatch : Patched (Synthetic.platform 5) (Synthetic.platform 6) :=
    ⟨rfl, rfl, by decide +kernel, by decide⟩
  have hindex : selectedIndex Synthetic.descendingInfo (Synthetic.platform 5) = some 1 := by
    decide +kernel
  obtain ⟨_, hmono, haccept, _⟩ := patching_never_demotes
    (Synthetic.crates (Synthetic.registry "UpToDate")) Synthetic.descendingInfo hpatch
  refine ⟨hmono 1 hindex, haccept 1 (.swHardeningNeeded ["A"]) hindex (by decide +kernel) ?_⟩
  intro j level hj hlevel
  obtain rfl := Nat.lt_one_iff.mp hj
  cases hlevel
  exact ⟨.upToDate, .upToDate rfl⟩

end DcapVerify
