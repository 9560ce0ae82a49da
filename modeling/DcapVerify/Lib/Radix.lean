import Mathlib.Data.List.Basic
import Mathlib.Tactic.Common

/-!
# Numbers in a base

A reader of digits undoes `Nat.toDigits` as soon as it knows every digit by the character
that stands for it. The spelling of the digits is a parameter, so one round trip serves
both cases of a hexadecimal alphabet.
-/

namespace Radix

variable (base : Nat) (value : Char → Option Nat)

/-- The number that the digits stand for, most significant first, after `acc`. -/
def read : List Char → Nat → Option Nat
  | [], acc => some acc
  | c :: cs, acc => do
      let d ← value c
      read cs (base * acc + d)

/-- The digits of a number, each spelt another way. -/
def spelt (spell : Char → Char) (n : Nat) : List Char := (Nat.toDigits base n).map spell

variable {base value}

theorem read_append (xs ys : List Char) : ∀ acc,
    read base value (xs ++ ys) acc = (read base value xs acc).bind (read base value ys) := by
  induction xs with
  | nil =>
      intro acc
      rfl
  | cons c cs ih =>
      intro acc
      rw [List.cons_append, read, read]
      cases value c with
      | none => rfl
      | some d => exact ih _

variable {spell : Char → Char}

theorem spelt_of_lt {n : Nat} (h : n < base) : spelt base spell n = [spell n.digitChar] := by
  rw [spelt, Nat.toDigits_of_lt_base h]
  rfl

theorem spelt_of_le (hbase : 1 < base) {n : Nat} (h : base ≤ n) :
    spelt base spell n = spelt base spell (n / base) ++ [spell (n % base).digitChar] := by
  rw [spelt, Nat.toDigits_of_base_le hbase h, List.map_append]
  rfl

theorem spelt_ne_nil (n : Nat) : spelt base spell n ≠ [] := by
  rw [spelt, ne_eq, List.map_eq_nil_iff]
  exact Nat.toDigits_ne_nil

/-- **A number is read back from its digits.** -/
theorem read_spelt (hbase : 1 < base)
    (hvalue : ∀ d < base, value (spell d.digitChar) = some d) (n : Nat) :
    read base value (spelt base spell n) 0 = some n := by
  induction n using Nat.strongRecOn with
  | ind n ih =>
      by_cases h : n < base
      · rw [spelt_of_lt h, read, hvalue n h]
        simp [read]
      · have hlt : n / base < n := Nat.div_lt_self (by omega) hbase
        have hmod : n % base < base := Nat.mod_lt n (by omega)
        rw [spelt_of_le hbase (by omega), read_append, ih _ hlt, Option.bind_some, read,
          hvalue _ hmod]
        simp [read, Nat.div_add_mod]

/-- The characters of a number are digits. -/
theorem value_of_mem_spelt (hbase : 1 < base)
    (hvalue : ∀ d < base, value (spell d.digitChar) = some d) (n : Nat) :
    ∀ c ∈ spelt base spell n, ∃ d < base, value c = some d := by
  induction n using Nat.strongRecOn with
  | ind n ih =>
      intro c hc
      by_cases h : n < base
      · rw [spelt_of_lt h, List.mem_singleton] at hc
        rw [hc]
        exact ⟨n, h, hvalue n h⟩
      · have hmod : n % base < base := Nat.mod_lt n (by omega)
        rw [spelt_of_le hbase (by omega), List.mem_append, List.mem_singleton] at hc
        rcases hc with hc | rfl
        · exact ih _ (Nat.div_lt_self (by omega) hbase) c hc
        · exact ⟨_, hmod, hvalue _ hmod⟩

end Radix
