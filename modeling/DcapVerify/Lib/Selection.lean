import Mathlib.Data.List.Basic
import Mathlib.Data.List.Lex
import Mathlib.Order.Lattice
import Mathlib.Tactic.Common

/-!
# Selecting from a list of candidates

Two rules for picking the first suitable element of a list. One goes by position. The
other collects the list in a set that is ordered by a key, greatest first, where an
element whose key is taken is not inserted, and goes by the order of the set.

On a list that already descends in the key the two rules pick the same element, as
long as suitability depends on the key alone. Going by position has a law of its
own: a laxer notion of suitability never leads further down the list.
-/

namespace Selection

variable {α κ : Type} [LinearOrder κ]

/-! ## The ordered set -/

/-- Insert into a set ordered by descending key. What is there already stays. -/
def insertDesc (key : α → κ) (x : α) : List α → List α
  | [] => [x]
  | y :: ys =>
      if key y < key x then x :: y :: ys
      else if key x < key y then y :: insertDesc key x ys
      else y :: ys

/-- The set of a list's elements, inserted in the order of the list. -/
def setDesc (key : α → κ) (xs : List α) : List α :=
  xs.foldl (fun s x => insertDesc key x s) []

/-- Each key is at most the keys before it. -/
def Descending (key : α → κ) (xs : List α) : Prop := xs.Pairwise fun a b => key b ≤ key a

variable {key : α → κ} {p : α → Bool}

/-- Below a descending set an element goes to the end, or its key is taken. -/
theorem insertDesc_of_le {x : α} {s : List α} (hs : Descending key s)
    (hx : ∀ y ∈ s, key x ≤ key y) :
    insertDesc key x s = s ++ [x] ∨
      insertDesc key x s = s ∧ ∃ y ∈ s, key y = key x := by
  induction s with
  | nil => exact .inl rfl
  | cons y ys ih =>
      obtain ⟨hy, hys⟩ := List.pairwise_cons.mp hs
      have hxy : key x ≤ key y := hx y (List.mem_cons_self ..)
      have hrest := ih hys fun z hz => hx z (List.mem_cons_of_mem _ hz)
      rw [insertDesc, if_neg (not_lt.mpr hxy)]
      by_cases hlt : key x < key y
      · rw [if_pos hlt]
        rcases hrest with hend | ⟨htaken, z, hz, hkey⟩
        · rw [hend]
          exact .inl rfl
        · rw [htaken]
          exact .inr ⟨rfl, z, List.mem_cons_of_mem _ hz, hkey⟩
      · rw [if_neg hlt]
        exact .inr ⟨rfl, y, List.mem_cons_self .., le_antisymm (not_lt.mp hlt) hxy⟩

omit [LinearOrder κ] in
/-- A repeated key makes no difference to a search that depends on keys alone. -/
theorem find?_append_of_taken {s xs : List α} {x : α}
    (hp : ∀ a b, key a = key b → p a = p b) (hx : ∃ y ∈ s, key y = key x) :
    (s ++ x :: xs).find? p = (s ++ xs).find? p := by
  rw [List.find?_append, List.find?_append, List.find?_cons]
  cases hpx : p x with
  | false => rfl
  | true =>
      obtain ⟨y, hy, hkey⟩ := hx
      have hpy : p y = true := (hp y x hkey).trans hpx
      have hsome : (s.find? p).isSome := List.find?_isSome.mpr ⟨y, hy, hpy⟩
      obtain ⟨z, hz⟩ := Option.isSome_iff_exists.mp hsome
      rw [hz]
      rfl

/-- Inserting a descending list below a descending set, step by step. -/
theorem find?_foldl_insertDesc (hp : ∀ a b, key a = key b → p a = p b) {xs s : List α}
    (h : Descending key (s ++ xs)) :
    (xs.foldl (fun s x => insertDesc key x s) s).find? p = (s ++ xs).find? p := by
  induction xs generalizing s with
  | nil => rw [List.foldl_nil, List.append_nil]
  | cons x xs ih =>
      have hsplit : Descending key (s ++ [x] ++ xs) := by rwa [List.append_assoc]
      obtain ⟨hs, hxxs, hcross⟩ := List.pairwise_append.mp h
      have hx : ∀ y ∈ s, key x ≤ key y := fun y hy => hcross y hy x (List.mem_cons_self ..)
      rw [List.foldl_cons]
      rcases insertDesc_of_le hs hx with hend | ⟨htaken, hkey⟩
      · rw [hend, ih hsplit, List.append_assoc]
        rfl
      · have hdrop : Descending key (s ++ xs) := List.pairwise_append.mpr
          ⟨hs, (List.pairwise_cons.mp hxxs).2, fun y hy z hz =>
            hcross y hy z (List.mem_cons_of_mem _ hz)⟩
        rw [htaken, ih hdrop, find?_append_of_taken hp hkey]

/-- **On a descending list the two rules pick the same element.** -/
theorem find?_setDesc (hp : ∀ a b, key a = key b → p a = p b) {xs : List α}
    (h : Descending key xs) : (setDesc key xs).find? p = xs.find? p :=
  find?_foldl_insertDesc (s := []) hp h

/-- What is picked from a descending list has the greatest key of all that would do. -/
theorem key_le_of_find? {xs : List α} (h : Descending key xs) {m : α} (hm : xs.find? p = some m) :
    ∀ x ∈ xs, p x = true → key x ≤ key m := by
  induction xs with
  | nil => cases hm
  | cons y ys ih =>
      obtain ⟨hy, hys⟩ := List.pairwise_cons.mp h
      intro x hx hpx
      rw [List.find?_cons] at hm
      cases hpy : p y with
      | true =>
          rw [hpy] at hm
          cases hm
          rcases List.mem_cons.mp hx with rfl | hx
          · exact le_rfl
          · exact hy x hx
      | false =>
          rw [hpy] at hm
          rcases List.mem_cons.mp hx with rfl | hx
          · rw [hpx] at hpy
            cases hpy
          · exact ih hys hm x hx hpx

/-! ## Laxer suitability -/

/-- **A laxer test stops no later.** -/
theorem findIdx?_mono {xs : List α} {q : α → Bool} (hpq : ∀ x ∈ xs, p x = true → q x = true)
    {i : Nat} (h : xs.findIdx? p = some i) : ∃ j, j ≤ i ∧ xs.findIdx? q = some j := by
  induction xs generalizing i with
  | nil => cases h
  | cons x xs ih =>
      rw [List.findIdx?_cons] at h ⊢
      by_cases hq : q x = true
      · rw [if_pos hq]
        exact ⟨0, Nat.zero_le _, rfl⟩
      · have hpx : ¬ p x = true := fun hp => hq (hpq x (List.mem_cons_self ..) hp)
        rw [if_neg hpx, Option.map_eq_some_iff] at h
        obtain ⟨k, hk, rfl⟩ := h
        obtain ⟨j, hj, hfind⟩ := ih (fun y hy => hpq y (List.mem_cons_of_mem _ hy)) hk
        rw [if_neg hq, hfind]
        exact ⟨j + 1, Nat.succ_le_succ hj, rfl⟩

/-! ## Lexicographic keys -/

/-- Where every entry is at most its counterpart, so is the list. -/
theorem le_of_forall₂_le {xs ys : List κ} (h : List.Forall₂ (· ≤ ·) xs ys) : xs ≤ ys := by
  induction h with
  | nil => exact le_rfl
  | @cons a b as bs hab _ ih =>
      rcases lt_or_eq_of_le hab with hlt | rfl
      · have hlex : a :: as < b :: bs := List.Lex.rel hlt
        exact le_of_lt hlex
      · exact List.cons_le_cons a ih

end Selection
