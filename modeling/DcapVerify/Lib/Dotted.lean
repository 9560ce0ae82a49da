import Mathlib.Data.List.Basic
import Mathlib.Tactic.Common

/-!
# Dotted decimal

Object identifiers are compared as text: their arcs in decimal, separated by dots. A
program that strips a textual prefix and looks at what is left is only right if the
text determines the arcs. It does: a dot never occurs inside an arc, so a prefix that
ends in one ends between two arcs.
-/

namespace Dotted

/-- The arcs in decimal, separated by dots. -/
def render (arcs : List Nat) : List Char := ['.'].intercalate (arcs.map (Nat.toDigits 10))

theorem isDigit_of_mem_toDigits {n : Nat} {c : Char} (h : c ∈ Nat.toDigits 10 n) :
    c.isDigit = true :=
  Nat.isDigit_of_mem_toDigits (by decide) (by decide) h

theorem dot_notMem_toDigits (n : Nat) : '.' ∉ Nat.toDigits 10 n := by
  intro h
  exact absurd (isDigit_of_mem_toDigits h) (by decide)

theorem toDigits_injective : Function.Injective (Nat.toDigits 10) := by
  intro m n h
  have hval := congrArg (fun cs => Nat.ofDigitChars 10 cs 0) h
  simpa using hval

@[simp] theorem render_singleton (n : Nat) : render [n] = Nat.toDigits 10 n :=
  List.intercalate_singleton

theorem render_cons_cons (m n : Nat) (rest : List Nat) :
    render (m :: n :: rest) = Nat.toDigits 10 m ++ '.' :: render (n :: rest) := by
  rw [render, List.map_cons, List.map_cons, List.intercalate_cons_cons, List.append_assoc]
  rfl

theorem splitOn_render {arcs : List Nat} (h : arcs ≠ []) :
    (render arcs).splitOn '.' = arcs.map (Nat.toDigits 10) := by
  refine List.splitOn_intercalate '.' (fun cs hcs => ?_) (by simpa using h)
  obtain ⟨n, _, rfl⟩ := List.mem_map.mp hcs
  exact dot_notMem_toDigits n

theorem render_append {pre rest : List Nat} (hpre : pre ≠ []) (hrest : rest ≠ []) :
    render (pre ++ rest) = render pre ++ '.' :: render rest := by
  induction pre with
  | nil => exact absurd rfl hpre
  | cons m pre ih =>
      cases pre with
      | nil =>
          obtain ⟨n, rest', rfl⟩ := List.exists_cons_of_ne_nil hrest
          rw [List.singleton_append, render_cons_cons, render_singleton]
      | cons n pre =>
          have htail := ih (List.cons_ne_nil n pre)
          rw [List.cons_append] at htail
          rw [List.cons_append, List.cons_append, render_cons_cons, render_cons_cons, htail,
            List.append_assoc, List.cons_append]

/-- **A textual prefix is a prefix of the arcs.** -/
theorem render_eq_append_iff {arcs pre : List Nat} {s : List Char} (hpre : pre ≠ []) :
    render arcs = render pre ++ '.' :: s ↔
      ∃ rest, rest ≠ [] ∧ arcs = pre ++ rest ∧ s = render rest := by
  refine ⟨fun h => ?_, fun h => ?_⟩
  · have harcs : arcs ≠ [] := by
      rintro rfl
      exact absurd h.symm (by simp [render])
    have hsplit := congrArg (List.splitOn '.') h
    rw [splitOn_render harcs, List.splitOn_append_cons_self, splitOn_render hpre,
      List.map_eq_append_iff] at hsplit
    obtain ⟨front, rest, rfl, hfront, hrest⟩ := hsplit
    obtain rfl := List.map_injective_iff.mpr toDigits_injective hfront
    refine ⟨rest, ?_, rfl, ?_⟩
    · rintro rfl
      exact List.splitOn_ne_nil '.' s hrest.symm
    · rw [render, hrest, List.intercalate_splitOn]
  · obtain ⟨rest, hrest, rfl, rfl⟩ := h
    exact render_append hpre hrest

/-- The text of a single arc is that of no other arcs. -/
theorem render_eq_toDigits {rest : List Nat} {n : Nat} (hrest : rest ≠ []) :
    render rest = Nat.toDigits 10 n ↔ rest = [n] := by
  refine ⟨fun h => ?_, fun h => ?_⟩
  · have hsplit := congrArg (List.splitOn '.') h
    rw [splitOn_render hrest, List.splitOn_eq_singleton (dot_notMem_toDigits n),
      List.map_eq_singleton_iff] at hsplit
    obtain ⟨m, rfl, hm⟩ := hsplit
    rw [toDigits_injective hm]
  · rw [h, render_singleton]

/-- Where there is no dot there is one arc. -/
theorem exists_singleton_of_dot_notMem {rest : List Nat} (hrest : rest ≠ [])
    (hdot : '.' ∉ render rest) : ∃ n, rest = [n] := by
  cases rest with
  | nil => exact absurd rfl hrest
  | cons m rest =>
      cases rest with
      | nil => exact ⟨m, rfl⟩
      | cons n rest =>
          rw [render_cons_cons] at hdot
          exact absurd (List.mem_append_right _ (List.mem_cons_self ..)) hdot

/-- Every text begins with a digit. -/
theorem head_isDigit {rest : List Nat} (hrest : rest ≠ []) :
    ∃ c cs, render rest = c :: cs ∧ c.isDigit = true := by
  obtain ⟨m, tail, rfl⟩ := List.exists_cons_of_ne_nil hrest
  obtain ⟨c, cs, hdigits⟩ := List.exists_cons_of_ne_nil (Nat.toDigits_ne_nil (n := m) (b := 10))
  have hc : c.isDigit = true :=
    isDigit_of_mem_toDigits (n := m) (by rw [hdigits]; exact List.mem_cons_self ..)
  cases tail with
  | nil => exact ⟨c, cs, by rw [render_singleton, hdigits], hc⟩
  | cons n tail => exact ⟨c, _, by rw [render_cons_cons, hdigits]; rfl, hc⟩

end Dotted
