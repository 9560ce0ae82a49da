import Mathlib.Data.List.Infix
import Mathlib.Data.List.TakeDrop
import Mathlib.Tactic.Common

/-!
# Quoted words in a text

A program that looks for a key in a text it has not parsed searches for the key between
two quotes. Where it finds it first can be read off the pieces of the text, if the pieces
meet in quotes: a quoted word has a quote at either end and none in between, so it does
not reach across one.
-/

namespace Quoted

variable {α : Type}

/-- The word between two quotes. -/
def token (q : α) (word : List α) : List α := q :: (word ++ [q])

/-- The quoted word is nowhere in the text. -/
def Avoids (q : α) (word text : List α) : Prop := ¬ token q word <:+: text

variable {q : α} {word : List α}

instance [DecidableEq α] (text : List α) : Decidable (Avoids q word text) :=
  inferInstanceAs (Decidable (¬ _ <:+: _))

/-- A word up to its closing quote does not reach across a quote. -/
theorem prefix_of_prefix_append (hword : q ∉ word) {a b : List α}
    (h : word ++ [q] <+: a ++ q :: b) : word ++ [q] <+: a ++ [q] := by
  induction word generalizing a with
  | nil =>
      cases a with
      | nil => exact List.prefix_refl [q]
      | cons x a =>
          rw [List.nil_append, List.cons_append, List.cons_prefix_cons] at h
          rw [List.nil_append, List.cons_append, List.cons_prefix_cons]
          exact ⟨h.1, List.nil_prefix⟩
  | cons k word ih =>
      rw [List.mem_cons, not_or] at hword
      cases a with
      | nil =>
          rw [List.nil_append, List.cons_append, List.cons_prefix_cons] at h
          exact absurd h.1.symm hword.1
      | cons x a =>
          rw [List.cons_append, List.cons_append, List.cons_prefix_cons] at h ⊢
          exact ⟨h.1, ih hword.2 h.2⟩

/-- So a quoted word that starts before a quote ends there at the latest. -/
theorem token_prefix_append (hword : q ∉ word) {a b : List α} (ha : a ≠ [])
    (h : token q word <+: a ++ q :: b) : token q word <+: a ++ [q] := by
  obtain ⟨x, a, rfl⟩ := List.exists_cons_of_ne_nil ha
  rw [token, List.cons_append, List.cons_prefix_cons] at h ⊢
  exact ⟨h.1, prefix_of_prefix_append hword h.2⟩

theorem Avoids.of_infix {a b : List α} (hb : Avoids q word b) (h : a <:+: b) : Avoids q word a :=
  fun hwithin => hb (hwithin.trans h)

/-- Nor does it reach across a symbol that is not in it. -/
theorem Avoids.append_of_notMem {x : α} (hx : x ∉ token q word) {a b : List α}
    (ha : Avoids q word a) (hb : Avoids q word b) : Avoids q word (a ++ x :: b) := by
  have hstop {a : List α} (h : token q word <+: a ++ x :: b) : token q word <+: a := by
    have hpre : a ++ [x] <+: a ++ x :: b := by simp
    rcases List.prefix_or_prefix_of_prefix hpre h with h | h
    · exact absurd (h.subset (by simp)) hx
    · rcases List.prefix_concat_iff.mp h with h | h
      · exact absurd (h ▸ by simp) hx
      · exact h
  induction a with
  | nil =>
      intro h
      rw [List.nil_append, List.infix_cons_iff] at h
      rcases h with h | h
      · exact ha (hstop (a := []) h).isInfix
      · exact hb h
  | cons y a ih =>
      intro h
      rw [List.cons_append, List.infix_cons_iff] at h
      rcases h with h | h
      · exact ha (hstop (a := y :: a) h).isInfix
      · exact ih (ha.of_infix (List.infix_cons (List.infix_refl a))) h

/-- **Texts that meet in a quote** avoid a word together when each does. -/
theorem Avoids.append (hword : q ∉ word) {a b : List α} (ha : Avoids q word (a ++ [q]))
    (hb : Avoids q word (q :: b)) : Avoids q word (a ++ q :: b) := by
  induction a with
  | nil => exact hb
  | cons x a ih =>
      intro h
      rw [List.cons_append, List.infix_cons_iff] at h
      rcases h with h | h
      · have hpre : token q word <+: (x :: a) ++ [q] :=
          token_prefix_append hword (List.cons_ne_nil x a) h
        exact ha hpre.isInfix
      · exact ih (ha.of_infix (List.infix_cons (List.infix_refl _))) h

/-- Between two quotes, a text without quotes is the word or avoids it. -/
theorem avoids_token {text : List α} (htext : q ∉ text) (hne : text ≠ word) :
    Avoids q word (token q text) := by
  intro h
  rw [token, token, List.infix_cons_iff, List.cons_prefix_cons, List.infix_concat_iff,
    List.prefix_concat_iff] at h
  rcases h with ⟨-, h | h⟩ | h | h
  · exact hne (List.append_cancel_right h).symm
  · exact htext (h.subset (by simp))
  · obtain ⟨pre, h⟩ := h
    rw [← List.cons_append, ← List.append_assoc] at h
    have hpre := List.append_cancel_right h
    exact htext (hpre ▸ by simp)
  · exact htext (h.subset (by simp))

/-- **The first place of a quoted word.** -/
theorem findIdx?_token [DecidableEq α] (hword : q ∉ word) {pre : List α} (post : List α)
    (havoid : Avoids q word (pre ++ [q])) :
    (pre ++ (token q word ++ post)).tails.findIdx? (token q word).isPrefixOf = some pre.length := by
  rw [List.findIdx?_eq_some_iff_getElem]
  refine ⟨?_, ?_, fun n hn => ?_⟩
  · rw [List.length_tails, List.length_append]
    omega
  · rw [List.getElem_tails, List.isPrefixOf_iff_prefix, List.drop_left]
    exact List.prefix_append _ _
  · rw [List.getElem_tails, Bool.not_eq_true, ← Bool.not_eq_true, List.isPrefixOf_iff_prefix,
      List.drop_append_of_le_length (by omega)]
    intro h
    have hne : pre.drop n ≠ [] := by
      rw [Ne, List.drop_eq_nil_iff]
      omega
    have hpre : token q word <+: pre.drop n ++ [q] := token_prefix_append hword hne h
    refine havoid (hpre.isInfix.trans ?_)
    rw [← List.drop_append_of_le_length (by omega)]
    exact (List.drop_suffix n _).isInfix

/-- **Where the quoted word is found**, nothing before it brings it. -/
theorem split_of_findIdx?_token [DecidableEq α] {text : List α} {n : Nat}
    (h : text.tails.findIdx? (token q word).isPrefixOf = some n) :
    ∃ pre post, text = pre ++ (token q word ++ post) ∧ pre.length = n ∧
      Avoids q word (pre ++ [q]) := by
  obtain ⟨hlt, hstart, hfirst⟩ := List.findIdx?_eq_some_iff_getElem.mp h
  rw [List.getElem_tails, List.isPrefixOf_iff_prefix] at hstart
  obtain ⟨post, hpost⟩ := hstart
  rw [List.length_tails] at hlt
  have hsplit : text = text.take n ++ (token q word ++ post) := by
    rw [hpost, List.take_append_drop]
  have hlen : (text.take n).length = n := List.length_take_of_le (by omega)
  refine ⟨text.take n, post, hsplit, hlen, ?_⟩
  rintro ⟨before, after, hwithin⟩
  have hwidth := congrArg List.length hwithin
  simp only [List.length_append, hlen, token, List.length_cons, List.length_nil] at hwidth
  have hbefore : before.length < n := by omega
  refine hfirst before.length hbefore ?_
  rw [List.getElem_tails, List.isPrefixOf_iff_prefix]
  have hwhole : before ++ (token q word ++ after) <+: text := by
    rw [hsplit, ← List.append_assoc, hwithin]
    exact ⟨word ++ [q] ++ post, by simp [token]⟩
  obtain ⟨rest, hrest⟩ := hwhole
  rw [← hrest, List.append_assoc, List.drop_left, List.append_assoc]
  exact List.prefix_append _ _

end Quoted
