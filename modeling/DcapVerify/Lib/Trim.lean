import Mathlib.Data.List.DropRight

/-!
# Trimming a suffix

Dropping the longest suffix of elements that satisfy a predicate. What is left is the
longest prefix that does not end in such an element, and two lists leave the same
exactly when they differ in such a suffix only.
-/

namespace Trim

variable {α : Type} {p : α → Bool}

/-- The last element, if any, is one that trimming keeps. -/
def Clean (p : α → Bool) (xs : List α) : Prop := ∀ x, xs.getLast? = some x → p x = false

/-- Every element is one that trimming drops. -/
def Droppable (p : α → Bool) (xs : List α) : Prop := ∀ x ∈ xs, p x = true

/-- The two lists are one list with two suffixes to drop. -/
def SameUpTo (p : α → Bool) (xs ys : List α) : Prop :=
  ∃ base s t, Droppable p s ∧ Droppable p t ∧ xs = base ++ s ∧ ys = base ++ t

theorem clean_rdropWhile (xs : List α) : Clean p (xs.rdropWhile p) := by
  intro x hx
  have hne : xs.rdropWhile p ≠ [] := List.ne_nil_of_mem (List.mem_of_getLast? hx)
  rw [List.getLast?_eq_some_getLast hne, Option.some.injEq] at hx
  rw [← hx]
  exact Bool.eq_false_iff.mpr (List.rdropWhile_last_not p xs hne)

theorem rdropWhile_of_clean {xs : List α} (h : Clean p xs) : xs.rdropWhile p = xs := by
  rw [List.rdropWhile_eq_self_iff]
  intro hne
  rw [h _ (List.getLast?_eq_some_getLast hne)]
  exact Bool.false_ne_true

theorem rdropWhile_append {s : List α} (h : Droppable p s) (xs : List α) :
    (xs ++ s).rdropWhile p = xs.rdropWhile p := by
  induction s using List.reverseRecOn with
  | nil => rw [List.append_nil]
  | append_singleton s x ih =>
      have hx : p x = true := h x (List.mem_append_right _ (List.mem_singleton_self x))
      rw [← List.append_assoc, List.rdropWhile_concat_pos p _ x hx]
      exact ih fun y hy => h y (List.mem_append_left _ hy)

/-- Trimming is monotone for prefixes. -/
theorem rdropWhile_prefix_mono {xs ys : List α} (h : xs <+: ys) :
    xs.rdropWhile p <+: ys.rdropWhile p := by
  obtain ⟨s, rfl⟩ := h
  induction s using List.reverseRecOn with
  | nil => simp
  | append_singleton s x ih =>
      rw [← List.append_assoc, List.rdropWhile_concat]
      split
      · exact ih
      · rw [List.append_assoc]
        exact (List.rdropWhile_prefix p xs).trans (List.prefix_append xs _)

/-- **What trimming leaves is the longest clean prefix.** -/
theorem prefix_rdropWhile {xs q : List α} (hq : q <+: xs) (hclean : Clean p q) :
    q <+: xs.rdropWhile p := by
  have hmono := rdropWhile_prefix_mono (p := p) hq
  rwa [rdropWhile_of_clean hclean] at hmono

/-- **What trimming leaves determines a list up to what it drops.** -/
theorem rdropWhile_eq_iff {xs ys : List α} :
    xs.rdropWhile p = ys.rdropWhile p ↔ SameUpTo p xs ys := by
  refine ⟨fun h => ?_, fun h => ?_⟩
  · refine ⟨xs.rdropWhile p, xs.rtakeWhile p, ys.rtakeWhile p, fun x hx =>
      List.mem_rtakeWhile_imp hx, fun x hx => List.mem_rtakeWhile_imp hx,
      List.rdropWhile_append_rtakeWhile.symm, ?_⟩
    rw [h]
    exact List.rdropWhile_append_rtakeWhile.symm
  · obtain ⟨base, s, t, hs, ht, rfl, rfl⟩ := h
    rw [rdropWhile_append hs, rdropWhile_append ht]

end Trim
