import Mathlib.Algebra.BigOperators.Group.List.Basic
import Mathlib.Algebra.GroupWithZero.Nat
import Std.Data.TreeMap

/-!
# Histograms in ordered maps

A program that counts keeps a map from keys to numbers and raises one of them at a
time. What it reports are sums over some of the keys. `weight` is such a sum, and
`weight_bump` says what raising one count does to all of them, so that after counting
a list every sum is the number of its elements with such a key.
-/

namespace Histogram

variable {α : Type} {cmp : α → α → Ordering}

/-- Raise the count of a key by one. -/
def bump (m : Std.TreeMap α Nat cmp) (k : α) : Std.TreeMap α Nat cmp :=
  m.insert k (m.getD k 0 + 1)

/-- The sum of the counts whose key satisfies `p`. -/
def weight (m : Std.TreeMap α Nat cmp) (p : α → Bool) : Nat :=
  ((m.toList.filter fun e => p e.1).map Prod.snd).sum

/-! ## Sums over lists of counts -/

section

variable [DecidableEq α] {l : List (α × Nat)} {k : α} {n : Nat} {p : α → Bool}

/-- The sum over the entries of one key, in a list with one entry a key. -/
theorem sum_filter_eq (hnodup : (l.map Prod.fst).Nodup) (hmem : (k, n) ∈ l) :
    ((l.filter fun e => e.1 = k).map Prod.snd).sum = n := by
  induction l with
  | nil => cases hmem
  | cons e l ih =>
      rw [List.map_cons, List.nodup_cons] at hnodup
      obtain ⟨hnot, hnodup⟩ := hnodup
      rcases List.mem_cons.mp hmem with rfl | hmem
      · have hrest : (l.filter fun e => e.1 = k) = [] := by
          rw [List.filter_eq_nil_iff]
          intro e he heq
          exact hnot (List.mem_map.mpr ⟨e, he, of_decide_eq_true heq⟩)
        simp [hrest]
      · have hne : e.1 ≠ k := by
          rintro rfl
          exact hnot (List.mem_map.mpr ⟨_, hmem, rfl⟩)
        rw [List.filter_cons_of_neg (by simp [hne])]
        exact ih hnodup hmem

/-- A sum splits into one key's part and the rest. -/
theorem sum_split :
    ((l.filter fun e => p e.1).map Prod.snd).sum =
      (if p k then ((l.filter fun e => e.1 = k).map Prod.snd).sum else 0) +
        (((l.filter fun e => e.1 ≠ k).filter fun e => p e.1).map Prod.snd).sum := by
  induction l with
  | nil => simp
  | cons e l ih =>
      by_cases he : e.1 = k
      · subst he
        cases hp : p e.1 <;> simp_all
        omega
      · cases hp : p e.1 <;> simp_all
        omega

end

theorem weight_empty (p : α → Bool) : weight (∅ : Std.TreeMap α Nat cmp) p = 0 := by
  have hnil : (∅ : Std.TreeMap α Nat cmp).toList = [] := rfl
  rw [weight, hnil]
  rfl

variable [Std.TransCmp cmp] [Std.LawfulEqCmp cmp]

theorem getD_bump [DecidableEq α] (m : Std.TreeMap α Nat cmp) (k j : α) :
    (bump m k).getD j 0 = m.getD j 0 + if k = j then 1 else 0 := by
  rw [bump, Std.TreeMap.getD_insert]
  by_cases h : k = j
  · rw [if_pos h, if_pos (Std.LawfulEqCmp.compare_eq_iff_eq.mpr h), h]
  · rw [if_neg h, if_neg (mt Std.LawfulEqCmp.compare_eq_iff_eq.mp h), Nat.add_zero]

theorem sum_filter_key [DecidableEq α] (m : Std.TreeMap α Nat cmp) (k : α) :
    ((m.toList.filter fun e => e.1 = k).map Prod.snd).sum = m.getD k 0 := by
  rw [Std.TreeMap.getD_eq_getD_getElem?]
  cases hget : m[k]? with
  | some n =>
      have hnodup : (m.toList.map Prod.fst).Nodup := by
        rw [Std.TreeMap.map_fst_toList_eq_keys]
        exact Std.TreeMap.nodup_keys
      exact sum_filter_eq hnodup (Std.TreeMap.mem_toList_iff_getElem?_eq_some.mpr hget)
  | none =>
      have hempty : (m.toList.filter fun e => e.1 = k) = [] := by
        rw [List.filter_eq_nil_iff]
        rintro ⟨k', n⟩ he heq
        obtain rfl : k' = k := of_decide_eq_true heq
        rw [Std.TreeMap.mem_toList_iff_getElem?_eq_some.mp he] at hget
        cases hget
      rw [hempty]
      rfl

/-- **Raising one count** raises the sums it is part of. -/
theorem weight_bump [DecidableEq α] (m : Std.TreeMap α Nat cmp) (k : α) (p : α → Bool) :
    weight (bump m k) p = weight m p + if p k then 1 else 0 := by
  have hperm : (bump m k).toList.Perm
      ((k, m.getD k 0 + 1) :: m.toList.filter fun e => e.1 ≠ k) := by
    refine Std.TreeMap.toList_insert_perm.trans (.of_eq ?_)
    congr 2
    funext e
    exact decide_eq_decide.mpr (not_congr (beq_iff_eq.trans eq_comm))
  have hbumped : weight (bump m k) p =
      (if p k then m.getD k 0 + 1 else 0) +
        (((m.toList.filter fun e => e.1 ≠ k).filter fun e => p e.1).map Prod.snd).sum := by
    rw [weight, ((hperm.filter _).map _).sum_eq]
    cases hp : p k <;> simp [hp]
  have hbefore : weight m p = (if p k then m.getD k 0 else 0) +
      (((m.toList.filter fun e => e.1 ≠ k).filter fun e => p e.1).map Prod.snd).sum := by
    rw [weight, sum_split (k := k), sum_filter_key]
  rw [hbumped, hbefore]
  cases p k with
  | true =>
      simp only [if_true]
      omega
  | false => rfl

/-! ## Counting a list -/

section

variable [DecidableEq α] (ks : List α)

theorem weight_foldl_bump (m : Std.TreeMap α Nat cmp) (p : α → Bool) :
    weight (ks.foldl bump m) p = weight m p + ks.countP p := by
  induction ks generalizing m with
  | nil => rfl
  | cons k ks ih => rw [List.foldl_cons, ih, weight_bump, List.countP_cons, Nat.add_assoc,
      Nat.add_comm (ks.countP p)]

theorem getD_foldl_bump [BEq α] [LawfulBEq α] (m : Std.TreeMap α Nat cmp) (j : α) :
    (ks.foldl bump m).getD j 0 = m.getD j 0 + ks.count j := by
  induction ks generalizing m with
  | nil => rfl
  | cons k ks ih =>
      rw [List.foldl_cons, ih, getD_bump, List.count_cons, Nat.add_assoc, Nat.add_comm (ks.count j)]
      simp only [beq_iff_eq]

end

/-- **The counts of a table** add up to the number of elements it covers. -/
theorem sum_counts {α : Type} [BEq α] [LawfulBEq α] {table : List α} (hnodup : table.Nodup)
    (ks : List α) : (table.map fun k => ks.count k).sum = ks.countP table.contains := by
  have hone (k : α) : (table.map fun j => if k == j then 1 else 0).sum = table.count k := by
    clear hnodup
    induction table with
    | nil => rfl
    | cons j table ih =>
        rw [List.map_cons, List.sum_cons, ih, List.count_cons, Nat.add_comm, BEq.comm]
  induction ks with
  | nil => simp
  | cons k ks ih =>
      have hsplit : (table.map fun j => (k :: ks).count j).sum =
          (table.map fun j => ks.count j).sum +
            (table.map fun j => if k == j then 1 else 0).sum := by
        rw [← List.sum_map_add]
        exact congrArg List.sum (List.map_congr_left fun j _ => List.count_cons)
      rw [hsplit, hone, ih, hnodup.count, List.countP_cons]
      simp only [List.contains_iff_mem]

end Histogram
