import DcapVerify.Lib.Checks
import Mathlib.Data.Vector.Basic
import Mathlib.Data.List.Forall2

/-!
# Loops that fill fields

A decoder that walks a list of records and stores what it finds keeps, for each field
it fills, the last thing stored. What a record stores in a field is a list of attempts,
`none` for one that cannot be decoded; a record with an inner loop makes several. Both
questions about such a loop then have one answer at every depth: it goes through when
every attempt does, and a field ends up holding the last of them.
-/

namespace Fields

variable {ε σ ρ : Type} {α : Type}

/-- A step that goes through leaves in the field the last of the record's attempts. -/
def Fills (step : σ → ρ → Except ε σ) (get : σ → Option α) (attempts : ρ → List (Option α)) :
    Prop :=
  ∀ s r s', step s r = .ok s' → get s' = (attempts r).getLastD (get s)

/-- Whether a step goes through depends on the record alone. -/
def Admits (step : σ → ρ → Except ε σ) (good : ρ → Prop) : Prop :=
  ∀ s r, (∃ s', step s r = .ok s') ↔ good r

theorem getLastD_append (xs ys : List α) (a : α) :
    (xs ++ ys).getLastD a = ys.getLastD (xs.getLastD a) := by
  induction xs generalizing a with
  | nil => rfl
  | cons x xs ih => rw [List.cons_append, List.getLastD_cons, List.getLastD_cons, ih]

/-- **The run rule.** -/
theorem Fills.foldlM {step : σ → ρ → Except ε σ} {get : σ → Option α}
    {attempts : ρ → List (Option α)} (h : Fills step get attempts) {s s' : σ} {rs : List ρ}
    (hrun : rs.foldlM step s = .ok s') :
    get s' = (rs.flatMap attempts).getLastD (get s) := by
  induction rs generalizing s with
  | nil =>
      rw [List.foldlM_nil, Checks.pure_eq_ok] at hrun
      rw [hrun]
      rfl
  | cons r rs ih =>
      rw [List.foldlM_cons] at hrun
      obtain ⟨mid, hmid, hrun⟩ := Checks.bind_eq_ok.mp hrun
      rw [ih hrun, h s r mid hmid, List.flatMap_cons, getLastD_append]

/-- A loop whose records never store in a field leaves it alone. -/
theorem Fills.foldlM_nil {step : σ → ρ → Except ε σ} {get : σ → Option α}
    (h : Fills step get fun _ => []) {s s' : σ} {rs : List ρ}
    (hrun : rs.foldlM step s = .ok s') : get s' = get s := by
  have hlast := h.foldlM hrun
  rw [List.flatMap_eq_nil_iff.mpr fun _ _ => rfl] at hlast
  exact hlast

theorem Admits.foldlM {step : σ → ρ → Except ε σ} {good : ρ → Prop} (h : Admits step good)
    (s : σ) (rs : List ρ) : (∃ s', rs.foldlM step s = .ok s') ↔ ∀ r ∈ rs, good r := by
  induction rs generalizing s with
  | nil => exact ⟨fun _ _ hr => absurd hr List.not_mem_nil, fun _ => ⟨s, rfl⟩⟩
  | cons r rs ih =>
      rw [List.forall_mem_cons, ← h s r]
      refine ⟨fun hrun => ?_, fun hgood => ?_⟩
      · obtain ⟨s', hrun⟩ := hrun
        obtain ⟨mid, hmid, hrun⟩ := Checks.bind_eq_ok.mp hrun
        exact ⟨⟨mid, hmid⟩, (ih mid).mp ⟨s', hrun⟩⟩
      · obtain ⟨⟨mid, hmid⟩, hrest⟩ := hgood
        obtain ⟨s', hrun⟩ := (ih mid).mpr hrest
        exact ⟨s', Checks.bind_eq_ok.mpr ⟨mid, hmid, hrun⟩⟩

/-- Records that every state steps over can be left out. -/
theorem foldlM_filter_eq {step : σ → ρ → Except ε σ} (keep : ρ → Prop) [DecidablePred keep]
    (h : ∀ s r, ¬ keep r → step s r = .ok s) (s : σ) (rs : List ρ) :
    (rs.filter keep).foldlM step s = rs.foldlM step s := by
  induction rs generalizing s with
  | nil => rfl
  | cons r rs ih =>
      by_cases hr : keep r
      · rw [List.filter_cons_of_pos (by simpa using hr), List.foldlM_cons, List.foldlM_cons]
        exact bind_congr ih
      · rw [List.filter_cons_of_neg (by simpa using hr), List.foldlM_cons, h s r hr,
          Checks.ok_bind, ih]

/-- Lists of records that act alike pairwise are run alike. -/
theorem foldlM_congr_forall₂ {step : σ → ρ → Except ε σ} {rs rs' : List ρ}
    (h : List.Forall₂ (fun r r' => ∀ s, step s r = step s r') rs rs') (s : σ) :
    rs.foldlM step s = rs'.foldlM step s := by
  induction h generalizing s with
  | nil => rfl
  | cons hr _ ih =>
      rw [List.foldlM_cons, List.foldlM_cons, hr s]
      exact bind_congr ih

/-! ## Fields that are filled once -/

/-- A field goes from `old` to `new` over `raws`, each decoding as `R` says, without ever being
filled twice. -/
def Once {β : Type} (R : β → α → Prop) (old : Option α) (raws : List β) (new : Option α) : Prop :=
  ∃ as, List.Forall₂ R raws as ∧ old.toList ++ as = new.toList

section

variable {β : Type} {R : β → α → Prop} {old new : Option α}

theorem once_nil : Once R old [] new ↔ old = new := by
  simp only [Once, List.forall₂_nil_left_iff, exists_eq_left, List.append_nil]
  cases old <;> cases new <;> simp

theorem once_singleton {r : β} :
    Once R old [r] new ↔ old = none ∧ ∃ a, R r a ∧ new = some a := by
  refine ⟨fun h => ?_, fun h => ?_⟩
  · obtain ⟨as, has, happ⟩ := h
    obtain ⟨a, rest, hr, hrest, rfl⟩ := List.forall₂_cons_left_iff.mp has
    rw [List.forall₂_nil_left_iff] at hrest
    subst hrest
    cases old with
    | some b => cases new <;> simp at happ
    | none => cases new with
      | none => simp at happ
      | some b => exact ⟨rfl, a, hr, by simpa using happ.symm⟩
  · obtain ⟨rfl, a, hr, rfl⟩ := h
    exact ⟨[a], .cons hr .nil, rfl⟩

theorem forall₂_append_left {xs ys : List β} {as : List α} (h : List.Forall₂ R (xs ++ ys) as) :
    ∃ bs cs, List.Forall₂ R xs bs ∧ List.Forall₂ R ys cs ∧ as = bs ++ cs := by
  have hflip := h.flip
  exact ⟨as.take xs.length, as.drop xs.length, (List.forall₂_take_append _ _ _ hflip).flip,
    (List.forall₂_drop_append _ _ _ hflip).flip, (List.take_append_drop _ _).symm⟩

theorem once_append {xs ys : List β} :
    Once R old (xs ++ ys) new ↔ ∃ mid, Once R old xs mid ∧ Once R mid ys new := by
  refine ⟨fun h => ?_, fun h => ?_⟩
  · obtain ⟨as, has, happ⟩ := h
    obtain ⟨bs, cs, hbs, hcs, rfl⟩ := forall₂_append_left has
    rw [← List.append_assoc] at happ
    -- what stands after the first part is at most one value
    have hlen : (old.toList ++ bs).length ≤ 1 := by
      have htotal := congrArg List.length happ
      rw [List.length_append] at htotal
      have hnew : new.toList.length ≤ 1 := by cases new <;> simp
      omega
    have hmid : ∃ mid : Option α, old.toList ++ bs = mid.toList := by
      rcases Nat.le_one_iff_eq_zero_or_eq_one.mp hlen with hzero | hone
      · exact ⟨none, List.eq_nil_of_length_eq_zero hzero⟩
      · obtain ⟨a, ha⟩ := List.length_eq_one_iff.mp hone
        exact ⟨some a, ha⟩
    obtain ⟨mid, hmid⟩ := hmid
    exact ⟨mid, ⟨bs, hbs, hmid⟩, cs, hcs, hmid ▸ happ⟩
  · obtain ⟨mid, ⟨bs, hbs, hmid⟩, cs, hcs, happ⟩ := h
    exact ⟨bs ++ cs, List.rel_append hbs hcs, by rw [← List.append_assoc, hmid, happ]⟩

/-- A field that ends up filled was filled by the only thing there was. -/
theorem once_none_some {raws : List β} {a : α} :
    Once R none raws (some a) ↔ ∃ r, raws = [r] ∧ R r a := by
  simp only [Once, Option.toList_none, List.nil_append, Option.toList_some, exists_eq_right]
  refine ⟨fun h => ?_, fun h => ?_⟩
  · obtain ⟨r, rest, hr, hrest, rfl⟩ := List.forall₂_cons_right_iff.mp h
    rw [List.forall₂_nil_right_iff] at hrest
    exact ⟨r, by rw [hrest], hr⟩
  · obtain ⟨r, rfl, hr⟩ := h
    exact .cons hr .nil

end

/-! ## Members by key -/

section

variable {κ β : Type} [DecidableEq κ]

/-- The values of the members under a key, in order. -/
def under (key : κ) (members : List (κ × β)) : List β :=
  (members.filter fun member => member.1 = key).map Prod.snd

theorem under_cons (key : κ) (member : κ × β) (members : List (κ × β)) :
    under key (member :: members) = under key [member] ++ under key members := by
  rw [under, under, under, ← List.map_append, ← List.filter_append]
  rfl

/-- A field is filled over a list when it is filled over its parts. -/
theorem once_under_cons {R : β → α → Prop} {old new : Option α} (key : κ) (member : κ × β)
    (members : List (κ × β)) : Once R old (under key (member :: members)) new ↔
      ∃ mid, Once R old (under key [member]) mid ∧ Once R mid (under key members) new := by
  rw [under_cons, once_append]

end

/-! ## Arrays of fields -/

/-- An array of fields is complete when each of them is. -/
theorem mmap_eq_ok {β : Type} {f : α → Except ε β} :
    ∀ {n : Nat} {xs : List.Vector α n} {ys : List.Vector β n},
      xs.mmap f = .ok ys ↔ ∀ k, f (xs.get k) = .ok (ys.get k)
  | 0, xs, ys => by
      rw [xs.eq_nil, ys.eq_nil]
      exact ⟨fun _ k => k.elim0, fun _ => rfl⟩
  | n + 1, xs, ys => by
      rw [List.Vector.mmap, Fin.forall_fin_succ]
      refine ⟨fun h => ?_, fun h => ?_⟩
      · obtain ⟨y, hy, h⟩ := Checks.bind_eq_ok.mp h
        obtain ⟨tail, htail, h⟩ := Checks.bind_eq_ok.mp h
        rw [Checks.pure_eq_ok] at h
        subst h
        refine ⟨by simpa using hy, fun k => ?_⟩
        simpa using mmap_eq_ok.mp htail k
      · obtain ⟨hhead, htail⟩ := h
        rw [List.Vector.get_zero, List.Vector.get_zero] at hhead
        have hrest : xs.tail.mmap f = .ok ys.tail :=
          mmap_eq_ok.mpr fun k => by simpa using htail k
        rw [hhead, Checks.ok_bind, hrest, Checks.ok_bind, Checks.pure_eq_ok,
          List.Vector.cons_head_tail]

end Fields
