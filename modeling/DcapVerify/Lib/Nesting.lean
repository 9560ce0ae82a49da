import Mathlib.Data.List.Count
import Mathlib.Tactic.Common
import Mathlib.Tactic.Ring

/-!
# Brackets outside quotes

A text has quoted stretches, inside which an escape makes the next symbol literal, and
brackets, which count only outside them. `depth` is the number of opening brackets less
the closing ones; a text whose first symbol opens a bracket is closed where the depth
first returns to zero.

`scan` finds that place in one pass with a counter that is never asked to go below zero:
from a positive depth the first return to zero comes before any negative depth.
-/

namespace Nesting

/-- The symbols that matter. -/
structure Marks (β : Type) where
  quote : β
  escape : β
  opening : β
  closing : β
  opening_ne_closing : opening ≠ closing

/-- Where in the text a symbol stands. -/
inductive Mode where
  | outside
  | inside
  | escaped
  deriving DecidableEq

variable {β : Type} [DecidableEq β] (m : Marks β)

/-- The mode after a symbol. -/
def Mode.step : Mode → β → Mode
  | .outside, b => if b = m.quote then .inside else .outside
  | .inside, b => if b = m.escape then .escaped else if b = m.quote then .outside else .inside
  | .escaped, _ => .inside

/-- The symbols outside quotes, the quotes themselves left out. -/
def unquoted : Mode → List β → List β
  | _, [] => []
  | mode, b :: text =>
      if mode = .outside ∧ b ≠ m.quote then b :: unquoted (mode.step m b) text
      else unquoted (mode.step m b) text

/-- Opening brackets less closing ones, in a text that starts in the given mode. -/
def weight (mode : Mode) (text : List β) : Int :=
  (unquoted m mode text).count m.opening - (unquoted m mode text).count m.closing

/-- The bracket depth at the end of a text. -/
def depth (text : List β) : Int := weight m .outside text

/-- The first place at which the depth is zero. -/
structure ClosesAt (text : List β) (n : Nat) : Prop where
  lt : n < text.length
  zero : depth m (text.take (n + 1)) = 0
  first : ∀ k < n, depth m (text.take (k + 1)) ≠ 0

theorem ClosesAt.append {m : Marks β} {text : List β} {n : Nat} (h : ClosesAt m text n)
    (rest : List β) : ClosesAt m (text ++ rest) n := by
  have htake (k : Nat) (hk : k ≤ n) : (text ++ rest).take (k + 1) = text.take (k + 1) :=
    List.take_append_of_le_length (Nat.le_trans (Nat.succ_le_succ hk) h.lt)
  refine ⟨?_, ?_, fun k hk => ?_⟩
  · rw [List.length_append]
    exact Nat.lt_add_right _ h.lt
  · rw [htake n (Nat.le_refl n)]
    exact h.zero
  · rw [htake k (Nat.le_of_lt hk)]
    exact h.first k hk

/-! ## One symbol -/

/-- What one symbol contributes. -/
def symbolWeight (mode : Mode) (b : β) : Int :=
  if mode = .outside ∧ b ≠ m.quote then
    if b = m.opening then 1 else if b = m.closing then -1 else 0
  else 0

@[simp] theorem weight_nil (mode : Mode) : weight m mode [] = 0 := rfl

theorem weight_cons (mode : Mode) (b : β) (text : List β) :
    weight m mode (b :: text) = symbolWeight m mode b + weight m (mode.step m b) text := by
  have hne := m.opening_ne_closing
  rw [weight, weight, unquoted, symbolWeight]
  split
  · rw [List.count_cons, List.count_cons]
    by_cases ho : b = m.opening
    · subst ho
      rw [if_pos rfl]
      simp [hne]
      ring
    · by_cases hc : b = m.closing
      · subst hc
        rw [if_neg ho, if_pos rfl]
        simp [ho]
        ring
      · rw [if_neg ho, if_neg hc]
        simp [ho, hc]
  · rw [Int.zero_add]

theorem symbolWeight_neg {mode : Mode} {b : β} (h : symbolWeight m mode b < 0) :
    mode = .outside ∧ b = m.closing ∧ symbolWeight m mode b = -1 := by
  unfold symbolWeight at h ⊢
  split at h
  · rename_i hout
    rw [if_pos hout]
    split at h
    · omega
    · split at h
      · rename_i ho hc
        rw [if_neg ho, if_pos hc]
        exact ⟨hout.1, hc, rfl⟩
      · omega
  · omega

theorem neg_one_le_symbolWeight (mode : Mode) (b : β) : -1 ≤ symbolWeight m mode b := by
  by_cases h : symbolWeight m mode b < 0
  · rw [(symbolWeight_neg m h).2.2]
  · omega

/-! ## Scanning -/

/-- The distance to the place where the depth, now `d`, is zero for the first time. -/
def scan : Mode → Nat → List β → Option Nat
  | _, _, [] => none
  | mode, d, b :: text =>
      let d' := (d : Int) + symbolWeight m mode b
      if d' = 0 then some 0 else (scan (mode.step m b) d'.toNat text).map (· + 1)

variable {m} in
/-- What follows that place does not matter. -/
theorem scan_append {mode : Mode} {d : Nat} {text : List β} {n : Nat}
    (h : scan m mode d text = some n) (rest : List β) :
    scan m mode d (text ++ rest) = some n := by
  induction text generalizing mode d n with
  | nil => cases h
  | cons b text ih =>
      rw [scan] at h
      rw [List.cons_append, scan]
      by_cases hzero : (d : Int) + symbolWeight m mode b = 0
      · rw [if_pos hzero] at h ⊢
        exact h
      · rw [if_neg hzero, Option.map_eq_some_iff] at h
        obtain ⟨k, hk, rfl⟩ := h
        rw [if_neg hzero, ih hk]
        rfl

/-- The depth is `d` at the start of `text`, and zero for the first time after `n`. -/
structure ReturnsAt (mode : Mode) (d : Nat) (text : List β) (n : Nat) : Prop where
  lt : n < text.length
  zero : (d : Int) + weight m mode (text.take (n + 1)) = 0
  first : ∀ k < n, (d : Int) + weight m mode (text.take (k + 1)) ≠ 0

variable {m}

theorem ReturnsAt.cons_iff {mode : Mode} {d d' : Nat} {b : β} {text : List β}
    (hd : (d : Int) + symbolWeight m mode b = d') (hne : d' ≠ 0) {n : Nat} :
    ReturnsAt m mode d (b :: text) (n + 1) ↔ ReturnsAt m (mode.step m b) d' text n := by
  have hshift (k : Nat) : (d : Int) + weight m mode ((b :: text).take (k + 1)) =
      d' + weight m (mode.step m b) (text.take k) := by
    rw [List.take_succ_cons, weight_cons, ← hd]
    ring
  refine ⟨fun h => ⟨?_, ?_, fun k hk => ?_⟩, fun h => ⟨?_, ?_, fun k hk => ?_⟩⟩
  · have hlt := h.lt
    rw [List.length_cons] at hlt
    omega
  · rw [← hshift]
    exact h.zero
  · rw [← hshift]
    exact h.first (k + 1) (by omega)
  · have hlt := h.lt
    rw [List.length_cons]
    omega
  · rw [hshift]
    exact h.zero
  · rw [hshift]
    cases k with
    | zero =>
        rw [List.take_zero, weight_nil]
        omega
    | succ k => exact h.first k (by omega)

/-- **From a positive depth the scan finds the first return to zero.** -/
theorem scan_eq_some_iff {text : List β} : ∀ {mode : Mode} {d n : Nat}, 0 < d →
    (scan m mode d text = some n ↔ ReturnsAt m mode d text n) := by
  induction text with
  | nil =>
      intro mode d n _
      exact iff_of_false (by simp [scan]) fun h => absurd h.lt (Nat.not_lt_zero n)
  | cons b text ih =>
      intro mode d n hpos
      have hge := neg_one_le_symbolWeight m mode b
      rw [scan]
      by_cases hzero : (d : Int) + symbolWeight m mode b = 0
      · have hhere : (d : Int) + weight m mode ((b :: text).take 1) = 0 := by
          rw [List.take_succ_cons, weight_cons, List.take_zero, weight_nil]
          omega
        rw [if_pos hzero, Option.some.injEq]
        refine ⟨fun h => ?_, fun h => ?_⟩
        · subst h
          exact ⟨Nat.zero_lt_succ _, hhere, fun k hk => absurd hk (Nat.not_lt_zero k)⟩
        · by_contra hn
          exact h.first 0 (by omega) hhere
      · have hd' : (d : Int) + symbolWeight m mode b =
            ((d : Int) + symbolWeight m mode b).toNat := by omega
        rw [if_neg hzero]
        cases n with
        | zero =>
            refine iff_of_false (by simp) fun h => hzero ?_
            have hhere := h.zero
            rw [List.take_succ_cons, weight_cons, List.take_zero, weight_nil] at hhere
            omega
        | succ n =>
            rw [ReturnsAt.cons_iff hd' (by omega), ← ih (by omega)]
            simp

/-- The scan stops at a closing bracket. -/
theorem scan_getElem? {text : List β} : ∀ {mode : Mode} {d n : Nat}, 0 < d →
    scan m mode d text = some n → text[n]? = some m.closing := by
  induction text with
  | nil =>
      intro mode d n _ h
      cases h
  | cons b text ih =>
      intro mode d n hpos h
      rw [scan] at h
      by_cases hzero : (d : Int) + symbolWeight m mode b = 0
      · rw [if_pos hzero] at h
        cases h
        have hneg : symbolWeight m mode b < 0 := by omega
        rw [List.getElem?_cons_zero, (symbolWeight_neg m hneg).2.1]
      · rw [if_neg hzero, Option.map_eq_some_iff] at h
        obtain ⟨k, hk, rfl⟩ := h
        have hge := neg_one_le_symbolWeight m mode b
        have hd' : 0 < ((d : Int) + symbolWeight m mode b).toNat := by omega
        rw [List.getElem?_cons_succ]
        exact ih hd' hk

/-- **A text that opens a bracket is closed where the scan of its rest says.** -/
theorem closesAt_cons_iff {text : List β} {n : Nat} (hquote : m.opening ≠ m.quote) :
    ClosesAt m (m.opening :: text) (n + 1) ↔ scan m .outside 1 text = some n := by
  have hweight : symbolWeight m .outside m.opening = 1 := by
    rw [symbolWeight, if_pos ⟨rfl, hquote⟩, if_pos rfl]
  have hstep : Mode.step m .outside m.opening = .outside := if_neg hquote
  have hreturns : ClosesAt m (m.opening :: text) (n + 1) ↔
      ReturnsAt m .outside 0 (m.opening :: text) (n + 1) := by
    refine ⟨fun h => ⟨h.lt, ?_, fun k hk => ?_⟩, fun h => ⟨h.lt, ?_, fun k hk => ?_⟩⟩
    · rw [Int.natCast_zero, Int.zero_add]
      exact h.zero
    · rw [Int.natCast_zero, Int.zero_add]
      exact h.first k hk
    · have hz := h.zero
      rwa [Int.natCast_zero, Int.zero_add] at hz
    · have hf := h.first k hk
      rwa [Int.natCast_zero, Int.zero_add] at hf
  have hone : ((0 : Nat) : Int) + symbolWeight m .outside m.opening = (1 : Nat) := by
    rw [hweight]
    rfl
  rw [hreturns, ReturnsAt.cons_iff hone (by omega), hstep, scan_eq_some_iff (by omega)]

end Nesting
