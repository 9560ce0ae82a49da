import Mathlib.Data.List.Nodup
import Mathlib.Tactic.Common

/-!
# Rooted paths

A list of elements, each related to the one after it, that ends in an anchor
related to itself. This is the shape of a certificate chain, where the relation
is "was issued by", but nothing here knows that.

Programs check such a list by index, comparing the element at `i` with the one at
`i + 1` and the last with itself. `rooted_iff_index` says that this loop and the
inductive reading agree, at every length.

An element may also limit how many others stand below it. `budget` is the countdown
that enforces such limits in one walk down from the anchor.
-/

namespace Path

variable {α : Type} {R : α → α → Prop} {A : α → Prop}

/-- Each element is related to the next, and the last is an anchor related to itself. -/
inductive Rooted (R : α → α → Prop) (A : α → Prop) : List α → Prop where
  | root {r : α} : A r → R r r → Rooted R A [r]
  | link {c p : α} {rest : List α} : R c p → Rooted R A (p :: rest) → Rooted R A (c :: p :: rest)

namespace Rooted

variable {xs : List α}

theorem ne_nil (h : Rooted R A xs) : xs ≠ [] := by
  cases h <;> exact List.cons_ne_nil _ _

theorem exists_anchor (h : Rooted R A xs) : ∃ r, xs.getLast? = some r ∧ A r ∧ R r r := by
  induction h with
  | root ha hr => exact ⟨_, rfl, ha, hr⟩
  | link _ _ ih => simpa only [List.getLast?_cons_cons] using ih

end Rooted

/-- The element an index loop compares `xs[i]` with: the next one, or itself at the end. -/
def parentOf (xs : List α) (i : Nat) (x : α) : α := xs[i + 1]?.getD x

theorem rooted_cons_cons {c p : α} {rest : List α} :
    Rooted R A (c :: p :: rest) ↔ R c p ∧ Rooted R A (p :: rest) := by
  refine ⟨fun h => ?_, fun h => ?_⟩
  · rcases h with _ | ⟨hcp, h⟩
    exact ⟨hcp, h⟩
  · obtain ⟨hcp, h⟩ := h
    exact .link hcp h

/-- **The index loop is the path.** -/
theorem rooted_iff_index : ∀ {xs : List α}, Rooted R A xs ↔
    (∃ r, xs.getLast? = some r ∧ A r) ∧ ∀ i c, xs[i]? = some c → R c (parentOf xs i c)
  | [] => by
      refine ⟨fun h => absurd rfl h.ne_nil, ?_⟩
      intro h
      obtain ⟨⟨r, hr, _⟩, _⟩ := h
      cases hr
  | [r] => by
      refine ⟨fun h => ?_, fun h => ?_⟩
      · rcases h with ⟨ha, hr⟩ | _
        refine ⟨⟨r, rfl, ha⟩, fun i c hc => ?_⟩
        cases i with
        | zero => cases hc; exact hr
        | succ i => simp at hc
      · obtain ⟨⟨r', hr', ha⟩, h⟩ := h
        cases hr'
        exact .root ha (h 0 r rfl)
  | c :: p :: rest => by
      rw [rooted_cons_cons, rooted_iff_index, List.getLast?_cons_cons]
      refine ⟨fun h => ?_, fun h => ?_⟩
      · obtain ⟨hcp, hlast, h⟩ := h
        refine ⟨hlast, fun i x hx => ?_⟩
        cases i with
        | zero => cases hx; exact hcp
        | succ i => exact h i x hx
      · obtain ⟨hlast, h⟩ := h
        exact ⟨h 0 c rfl, hlast, fun i x hx => h (i + 1) x hx⟩

/-- A loop over `enumerate().skip(1)` visits every element but the first, with its index. -/
theorem forall_mem_drop_zipIdx {P : α → Nat → Prop} {xs : List α} :
    (∀ x ∈ xs.zipIdx.drop 1, P x.1 x.2) ↔ ∀ i x, 1 ≤ i → xs[i]? = some x → P x i := by
  have hget (k : Nat) : (xs.zipIdx.drop 1)[k]? = xs[k + 1]?.map fun x => (x, k + 1) := by
    rw [List.getElem?_drop, List.getElem?_zipIdx, Nat.add_comm 1 k, Nat.zero_add]
  refine ⟨fun h i x hi hx => ?_, fun h x hm => ?_⟩
  · obtain ⟨k, rfl⟩ := Nat.exists_eq_add_of_le' hi
    exact h (x, k + 1) (List.mem_iff_getElem?.mpr ⟨k, by rw [hget, hx]; rfl⟩)
  · obtain ⟨k, hk⟩ := List.mem_iff_getElem?.mp hm
    rw [hget, Option.map_eq_some_iff] at hk
    obtain ⟨y, hy, rfl⟩ := hk
    exact h _ y (Nat.succ_pos k) hy

/-! ## Rearrangements -/

section

variable {xs ys : List α} {r : α}

/-- A tail of a path is a path to the same anchor. -/
theorem Rooted.drop (h : Rooted R A xs) {k : Nat} (hk : k < xs.length) :
    Rooted R A (xs.drop k) := by
  induction h generalizing k with
  | root ha hr =>
      obtain rfl : k = 0 := by simpa using hk
      exact .root ha hr
  | link hcp htail ih =>
      cases k with
      | zero => exact .link hcp htail
      | succ k => exact ih (by simpa using hk)

/-- The anchor may be repeated. -/
theorem Rooted.append_replicate (h : Rooted R A xs) (hlast : xs.getLast? = some r) (n : Nat) :
    Rooted R A (xs ++ List.replicate n r) := by
  induction h with
  | root ha hr =>
      cases hlast
      induction n with
      | zero => exact .root ha hr
      | succ n ih => exact .link hr ih
  | link hcp _ ih =>
      rw [List.getLast?_cons_cons] at hlast
      exact .link hcp (ih hlast)

/-- The last element of a path, by its index. -/
theorem drop_eq_singleton {i : Nat} {x : α} (hx : xs[i]? = some x) (hnext : xs[i + 1]? = none) :
    xs.drop i = [x] := by
  obtain ⟨hi, rfl⟩ := List.getElem?_eq_some_iff.mp hx
  rw [List.drop_eq_getElem_cons hi, List.drop_eq_nil_of_le (List.getElem?_eq_none_iff.mp hnext)]

/--
**The only rearrangements.** In a path without repetitions, where each element has
one parent among the others, the paths that its elements form are its tails with
the anchor repeated.
-/
theorem rooted_rearranged_iff (h : Rooted R A xs) (hlast : xs.getLast? = some r)
    (hnodup : xs.Nodup)
    (hparent : ∀ c ∈ xs, ∀ p ∈ xs, ∀ q ∈ xs, R c p → R c q → p = q) (hmem : ∀ y ∈ ys, y ∈ xs) :
    Rooted R A ys ↔ ∃ k < xs.length, ∃ n, ys = xs.drop k ++ List.replicate n r := by
  obtain ⟨_, hindex⟩ := rooted_iff_index.mp h
  have hinj {i j : Nat} {x : α} (hi : xs[i]? = some x) (hj : xs[j]? = some x) : i = j := by
    obtain ⟨hi', hix⟩ := List.getElem?_eq_some_iff.mp hi
    obtain ⟨hj', hjx⟩ := List.getElem?_eq_some_iff.mp hj
    exact hnodup.getElem_inj_iff.mp (hix.trans hjx.symm)
  -- an element that has no successor is the anchor, and is its own parent
  have hend {i : Nat} {x : α} (hx : xs[i]? = some x) (hnext : xs[i + 1]? = none) : x = r := by
    have hdrop := drop_eq_singleton hx hnext
    have hgetLast := List.getLast?_drop (i := i) (l := xs)
    obtain ⟨hi, _⟩ := List.getElem?_eq_some_iff.mp hx
    rw [if_neg (by omega), hlast, hdrop] at hgetLast
    exact Option.some.inj hgetLast
  have hnext {i : Nat} {c p : α} (hc : xs[i]? = some c) (hp : p ∈ xs) (hcp : R c p) :
      xs[i + 1]? = some p ∨ xs[i + 1]? = none ∧ p = c := by
    have hstep := hindex i c hc
    rw [parentOf] at hstep
    cases hq : xs[i + 1]? with
    | none =>
        rw [hq] at hstep
        have hcmem := List.mem_of_getElem? hc
        exact .inr ⟨rfl, hparent c hcmem p hp c hcmem hcp hstep⟩
    | some q =>
        rw [hq] at hstep
        exact .inl (congrArg some
          (hparent c (List.mem_of_getElem? hc) q (List.mem_of_getElem? hq) p hp hstep hcp))
  refine ⟨fun hys => ?_, fun hform => ?_⟩
  · induction hys with
    | @root y _ hyy =>
        have hy := hmem y (List.mem_singleton_self y)
        obtain ⟨i, hi⟩ := List.mem_iff_getElem?.mp hy
        rcases hnext hi hy hyy with hsucc | ⟨hnone, _⟩
        · exact absurd (hinj hi hsucc) (by omega)
        · obtain ⟨hlt, _⟩ := List.getElem?_eq_some_iff.mp hi
          exact ⟨i, hlt, 0, by rw [drop_eq_singleton hi hnone]; rfl⟩
    | @link c p rest hcp _ ih =>
        obtain ⟨k, hk, n, hform⟩ := ih fun y hy => hmem y (List.mem_cons_of_mem c hy)
        obtain ⟨i, hi⟩ := List.mem_iff_getElem?.mp (hmem c List.mem_cons_self)
        obtain ⟨hlt, hget⟩ := List.getElem?_eq_some_iff.mp hi
        have hp : p ∈ xs := hmem p (List.mem_cons_of_mem c List.mem_cons_self)
        -- the tail starts where the parent stands
        have hkp : xs[k]? = some p := by
          rw [List.drop_eq_getElem_cons hk, List.cons_append] at hform
          rw [List.getElem?_eq_getElem hk, ← (List.cons_eq_cons.mp hform).1]
        rcases hnext hi hp hcp with hsucc | ⟨hnone, rfl⟩
        · obtain rfl := hinj hsucc hkp
          refine ⟨i, hlt, n, ?_⟩
          rw [hform, List.drop_eq_getElem_cons hlt, hget, List.cons_append]
        · obtain rfl := hinj hi hkp
          refine ⟨i, hlt, n + 1, ?_⟩
          rw [hform, drop_eq_singleton hi hnone, hend hi hnone, List.replicate_succ]
          rfl
  · obtain ⟨k, hk, n, rfl⟩ := hform
    refine (h.drop hk).append_replicate ?_ n
    rw [List.getLast?_drop, if_neg (by omega), hlast]

end

/-! ## Budgets -/

section

variable (free : α → Bool) (limit : α → Option Nat)

/-- Going past an element costs one unit, unless it is free. -/
def pay (x : α) (b : Nat) : Option Nat :=
  if free x then some b else if 0 < b then some (b - 1) else none

/-- An element's limit caps what is left below it. -/
def cap (x : α) (b : Nat) : Nat :=
  match limit x with
  | some p => min b p
  | none => b

/-- What is left of `n` units after walking from the far end of the list to its head. -/
def budget (n : Nat) : List α → Option Nat
  | [] => some n
  | x :: xs => do
      let b ← budget n xs
      let b ← pay free x b
      pure (cap limit x b)

/-- With `k` elements that are not free still to come, no limit of the list is exceeded. -/
def Within (xs : List α) (k : Nat) : Prop :=
  ∀ (i : Nat) (x : α) (p : Nat), xs[i]? = some x → limit x = some p →
    (xs.take i).countP (fun y => !free y) + k ≤ p

variable {free limit}

theorem pay_eq_some {x : α} {b c : Nat} :
    pay free x b = some c ↔ b = c + (if free x then 0 else 1) := by
  unfold pay
  by_cases hx : free x = true
  · rw [if_pos hx, if_pos hx, Option.some.injEq]
    omega
  · rw [if_neg hx, if_neg hx]
    by_cases hb : 0 < b
    · rw [if_pos hb, Option.some.injEq]
      omega
    · rw [if_neg hb]
      refine ⟨fun h => ?_, fun h => ?_⟩
      · cases h
      · omega

theorem le_cap_iff {x : α} {k b : Nat} :
    k ≤ cap limit x b ↔ k ≤ b ∧ ∀ p, limit x = some p → k ≤ p := by
  unfold cap
  cases limit x with
  | none => simp
  | some p => simp only [Nat.le_min, Option.some.injEq, forall_eq']

theorem within_cons {x : α} {xs : List α} {k : Nat} :
    Within free limit (x :: xs) k ↔
      (∀ p, limit x = some p → k ≤ p) ∧ Within free limit xs (k + if free x then 0 else 1) := by
  have hcount (i : Nat) : ((x :: xs).take (i + 1)).countP (fun y => !free y) + k =
      (xs.take i).countP (fun y => !free y) + (k + if free x then 0 else 1) := by
    rw [List.take_succ_cons, List.countP_cons]
    cases free x with
    | true => simp
    | false => simp; omega
  refine ⟨fun h => ⟨fun p hp => ?_, fun i y p hy hp => ?_⟩, fun h => ?_⟩
  · have h0 := h 0 x p rfl hp
    rw [List.take_zero, List.countP_nil] at h0
    omega
  · have hi := h (i + 1) y p hy hp
    rwa [hcount] at hi
  · obtain ⟨hx, hxs⟩ := h
    intro i y p hy hp
    cases i with
    | zero =>
        cases hy
        rw [List.take_zero, List.countP_nil, Nat.zero_add]
        exact hx p hp
    | succ i =>
        rw [hcount]
        exact hxs i y p hy hp

/-- **The countdown leaves `k` exactly when there is room for `k` more.** -/
theorem le_budget_iff {n : Nat} {xs : List α} {k : Nat} :
    (∃ b, budget free limit n xs = some b ∧ k ≤ b) ↔
      xs.countP (fun y => !free y) + k ≤ n ∧ Within free limit xs k := by
  induction xs generalizing k with
  | nil => simp [budget, Within]
  | cons x xs ih =>
      have hstep : (∃ b, budget free limit n (x :: xs) = some b ∧ k ≤ b) ↔
          (∀ p, limit x = some p → k ≤ p) ∧
            ∃ b, budget free limit n xs = some b ∧ (k + if free x then 0 else 1) ≤ b := by
        simp only [budget, Option.bind_eq_bind, Option.bind_eq_some_iff, Option.pure_def,
          Option.some.injEq, pay_eq_some]
        refine ⟨fun h => ?_, fun h => ?_⟩
        · obtain ⟨_, ⟨b, hb, c, rfl, rfl⟩, hk⟩ := h
          obtain ⟨hc, hp⟩ := le_cap_iff.mp hk
          exact ⟨hp, _, hb, by omega⟩
        · obtain ⟨hp, b, hb, hk⟩ := h
          refine ⟨_, ⟨b, hb, b - (if free x then 0 else 1), by omega, rfl⟩, ?_⟩
          exact le_cap_iff.mpr ⟨by omega, hp⟩
      have hcount : (x :: xs).countP (fun y => !free y) + k =
          xs.countP (fun y => !free y) + (k + if free x then 0 else 1) := by
        rw [List.countP_cons]
        cases free x with
        | true => simp
        | false => simp; omega
      rw [hstep, ih, within_cons, hcount]
      tauto

/-- Started with as many units as there are elements, the countdown only fails on a limit. -/
theorem budget_isSome_iff {xs : List α} :
    (budget free limit xs.length xs).isSome = true ↔ Within free limit xs 0 := by
  have h := @le_budget_iff α free limit xs.length xs 0
  rw [Option.isSome_iff_exists]
  have hlen : xs.countP (fun y => !free y) + 0 ≤ xs.length := List.countP_le_length
  refine ⟨fun hb => ?_, fun hw => ?_⟩
  · obtain ⟨b, hb⟩ := hb
    exact (h.mp ⟨b, hb, Nat.zero_le _⟩).2
  · obtain ⟨b, hb, _⟩ := h.mpr ⟨hlen, hw⟩
    exact ⟨b, hb⟩

end

end Path
