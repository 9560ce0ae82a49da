import Mathlib.Order.Interval.Set.OrdConnected
import Mathlib.Tactic.Common

/-!
# Validity windows

A dated object is in force from an inclusive lower end to an exclusive upper end,
or for ever. Several objects are in force together exactly on the meet of their
windows, which is a window again: however many dates a verifier looks at, the
times it accepts have no gaps.
-/

/-- A half-open window; without an upper end it never closes. -/
@[ext]
structure Window (τ : Type) where
  lower : τ
  upper : Option τ

namespace Window

section

variable {τ : Type} [Preorder τ]

/-- `lower ≤ t < upper`. -/
def Contains (w : Window τ) (t : τ) : Prop := w.lower ≤ t ∧ ∀ u ∈ w.upper, t < u

@[simp] theorem contains_some {l u t : τ} :
    (⟨l, some u⟩ : Window τ).Contains t ↔ l ≤ t ∧ t < u := by
  simp [Contains]

@[simp] theorem contains_none {l t : τ} : (⟨l, none⟩ : Window τ).Contains t ↔ l ≤ t := by
  simp [Contains]

theorem Contains.between {w : Window τ} {a b t : τ} (ha : w.Contains a) (hb : w.Contains b)
    (hat : a ≤ t) (htb : t ≤ b) : w.Contains t :=
  ⟨ha.1.trans hat, fun u hu => htb.trans_lt (hb.2 u hu)⟩

/-- The times at which every window of a list is open. -/
def common (ws : List (Window τ)) : Set τ := {t | ∀ w ∈ ws, w.Contains t}

theorem mem_common {ws : List (Window τ)} {t : τ} : t ∈ common ws ↔ ∀ w ∈ ws, w.Contains t :=
  Iff.rfl

/-- **Windows have no gaps in common.** -/
theorem ordConnected_common (ws : List (Window τ)) : (common ws).OrdConnected :=
  ⟨fun _ ha _ hb _ ht w hw => (ha w hw).between (hb w hw) ht.1 ht.2⟩

/-- Reading the time off a monotone clock opens no gaps either. -/
theorem ordConnected_clock {σ : Type} [Preorder σ] {clock : σ → τ} (h : Monotone clock)
    (ws : List (Window τ)) : (Set.preimage clock (common ws)).OrdConnected :=
  (ordConnected_common ws).preimage_mono h

end

section

variable {τ : Type} [LinearOrder τ]

instance (w : Window τ) (t : τ) : Decidable (w.Contains t) :=
  inferInstanceAs (Decidable (_ ∧ ∀ u ∈ w.upper, t < u))

/-- The window on which both are open. -/
def meet (v w : Window τ) : Window τ :=
  ⟨max v.lower w.lower, match v.upper, w.upper with
    | some a, some b => some (min a b)
    | some a, none => some a
    | none, b => b⟩

theorem meet_contains {v w : Window τ} {t : τ} :
    (v.meet w).Contains t ↔ v.Contains t ∧ w.Contains t := by
  obtain ⟨a, _ | u⟩ := v <;> obtain ⟨b, _ | w⟩ := w <;>
    simp only [meet, contains_some, contains_none, max_le_iff, lt_min_iff] <;> tauto

/-- **The common times of a non-empty list are one window.** -/
theorem exists_common_eq : ∀ {ws : List (Window τ)}, ws ≠ [] →
    ∃ w : Window τ, ∀ t, t ∈ common ws ↔ w.Contains t
  | [], h => absurd rfl h
  | [w], _ => ⟨w, fun t => by simp [common]⟩
  | v :: w :: ws, _ => by
      obtain ⟨m, hm⟩ := exists_common_eq (List.cons_ne_nil w ws)
      refine ⟨v.meet m, fun t => ?_⟩
      rw [meet_contains, ← hm]
      simp only [mem_common, List.forall_mem_cons]

/-- **One window that closes makes the common times a half-open interval.** -/
theorem common_eq_Ico {ws : List (Window τ)} {v : Window τ} (hv : v ∈ ws) {u : τ}
    (hu : v.upper = some u) : ∃ a b : τ, common ws = Set.Ico a b := by
  obtain ⟨⟨a, upper⟩, hm⟩ := exists_common_eq (List.ne_nil_of_mem hv)
  cases upper with
  | some b => exact ⟨a, b, Set.ext fun t => (hm t).trans contains_some⟩
  | none =>
      -- an interval without an end would reach past `u`
      have hmem : max a u ∈ common ws := (hm _).mpr (contains_none.mpr (le_max_left a u))
      exact absurd ((hmem v hv).2 u hu) (not_lt.mpr (le_max_right a u))

end

end Window
