import DcapVerify.Lib.Checks

/-!
# Total correctness of state-passing computations

A computation with a hidden state and errors is *total* for a postcondition when from every
state it returns a value that satisfies it. Nothing is said about the state, so the rules
suit computations whose state is a source of choices: a generator of random numbers, an
oracle, a schedule. Two computations that make the same choices are compared step by step.
-/

namespace Total

variable {σ ε : Type} {α β : Type}

/-- From every state `m` returns, and what it returns satisfies `P`. -/
def Returns (P : α → Prop) (m : StateT σ (Except ε) α) : Prop :=
  ∀ s, ∃ a s', m s = .ok (a, s') ∧ P a

namespace Returns

variable {P : α → Prop} {Q : β → Prop}

theorem pure {a : α} (h : P a) : Returns P (Pure.pure a : StateT σ (Except ε) α) :=
  fun s => ⟨a, s, rfl, h⟩

theorem mono {P' : α → Prop} {m : StateT σ (Except ε) α} (h : Returns P m)
    (hP : ∀ a, P a → P' a) : Returns P' m := by
  intro s
  obtain ⟨a, s', hm, ha⟩ := h s
  exact ⟨a, s', hm, hP a ha⟩

theorem bind {m : StateT σ (Except ε) α} {f : α → StateT σ (Except ε) β} (hm : Returns P m)
    (hf : ∀ a, P a → Returns Q (f a)) : Returns Q (m >>= f) := by
  intro s
  obtain ⟨a, s', hm, ha⟩ := hm s
  obtain ⟨b, s'', hb, hq⟩ := hf a ha s'
  exact ⟨b, s'', Checks.state_bind_eq_ok.mpr ⟨a, s', hm, hb⟩, hq⟩

theorem lift_bind {m : Except ε α} {a : α} {f : α → StateT σ (Except ε) β} (hm : m = .ok a)
    (hf : Returns Q (f a)) : Returns Q (liftM m >>= f) := by
  rw [hm]
  exact hf

end Returns

/-- Whatever `m` returns, `n` returns something related to it, and both leave the same state. -/
def Follows (R : α → β → Prop) (m : StateT σ (Except ε) α) (n : StateT σ (Except ε) β) : Prop :=
  ∀ s a s', m s = .ok (a, s') → ∃ b, n s = .ok (b, s') ∧ R a b

namespace Follows

variable {γ δ : Type} {R : α → β → Prop} {Q : γ → δ → Prop}

theorem pure {a : α} {b : β} (h : R a b) :
    Follows R (Pure.pure a : StateT σ (Except ε) α) (Pure.pure b) := by
  intro s a' s' heq
  cases heq
  exact ⟨b, rfl, h⟩

theorem bind {m : StateT σ (Except ε) α} {n : StateT σ (Except ε) β}
    {f : α → StateT σ (Except ε) γ} {g : β → StateT σ (Except ε) δ} (h : Follows R m n)
    (hfg : ∀ a b, R a b → Follows Q (f a) (g b)) : Follows Q (m >>= f) (n >>= g) := by
  intro s c s'' heq
  obtain ⟨a, s', hm, hf⟩ := Checks.state_bind_eq_ok.mp heq
  obtain ⟨b, hn, hab⟩ := h s a s' hm
  obtain ⟨d, hg, hcd⟩ := hfg a b hab s' c s'' hf
  exact ⟨d, Checks.state_bind_eq_ok.mpr ⟨b, s', hn, hg⟩, hcd⟩

theorem lift_bind {m : Except ε α} {n : Except ε β} {a : α} {b : β}
    {f : α → StateT σ (Except ε) γ} {g : β → StateT σ (Except ε) δ} (hm : m = .ok a)
    (hn : n = .ok b) (h : Follows Q (f a) (g b)) :
    Follows Q (liftM m >>= f) (liftM n >>= g) := by
  rw [hm, hn]
  exact h

/-- Both make the same choice. -/
theorem choose {P : α → Prop} {m : StateT σ (Except ε) α} {f : α → StateT σ (Except ε) γ}
    {g : α → StateT σ (Except ε) δ} (hm : Returns P m) (h : ∀ a, P a → Follows Q (f a) (g a)) :
    Follows Q (m >>= f) (m >>= g) := by
  refine bind (R := fun a b => a = b ∧ P a) (fun s a s' heq => ?_) ?_
  · obtain ⟨a', s'', heq', ha⟩ := hm s
    rw [heq] at heq'
    cases heq'
    exact ⟨a, heq, rfl, ha⟩
  · rintro a b ⟨rfl, ha⟩
    exact h a ha

end Follows

end Total
