import Mathlib.Data.List.Basic
import Mathlib.Data.List.Forall2
import Mathlib.Tactic.Common

/-!
# Sequential checks

A verifier is a sequence of checks, each of which may end the run with an error.
This file is the calculus the rest of the development uses for such sequences,
over any error type: how success and failure distribute over the operations, a
postcondition for the error side, and the two-run rules.

The two-run rules are the reason for the abstraction. A `Gate` is one check as a
function of the *whole* input; a run is a list of gates in order. Comparing the
runs on two inputs then needs nothing about the order: whatever the second run
stops at is a gate the first run passed, so it is a gate that tells the two
inputs apart.
-/

namespace Checks

variable {ε ε' ι : Type} {α β : Type}

/-! ## Success and failure of the operations -/

@[simp] theorem pure_eq_ok {a b : α} : (pure a : Except ε α) = .ok b ↔ a = b := by
  simp [pure, Except.pure]

@[simp] theorem pure_ne_error {a : α} {e : ε} : (pure a : Except ε α) ≠ .error e := by
  simp [pure, Except.pure]

@[simp] theorem ok_bind (a : α) (f : α → Except ε β) : ((.ok a : Except ε α) >>= f) = f a := rfl

@[simp] theorem error_bind (e : ε) (f : α → Except ε β) :
    ((.error e : Except ε α) >>= f) = .error e := rfl

theorem bind_eq_ok {m : Except ε α} {f : α → Except ε β} {b : β} :
    (m >>= f) = .ok b ↔ ∃ a, m = .ok a ∧ f a = .ok b := by
  cases m <;> simp

theorem bind_eq_error {m : Except ε α} {f : α → Except ε β} {e : ε} :
    (m >>= f) = .error e ↔ m = .error e ∨ ∃ a, m = .ok a ∧ f a = .error e := by
  cases m <;> simp

/-- Two continuations need only agree on the value there is. -/
theorem bind_congr_ok {m : Except ε α} {f g : α → Except ε β} (h : ∀ a, m = .ok a → f a = g a) :
    (m >>= f) = (m >>= g) := by
  cases m with
  | ok a => exact h a rfl
  | error e => rfl

/-- A check carries no value, so passing it is one fact. -/
theorem seq_eq_ok {m : Except ε Unit} {f : Except ε β} {b : β} :
    (m >>= fun _ => f) = .ok b ↔ m = .ok () ∧ f = .ok b := by
  cases m <;> simp

theorem map_eq_ok {m : Except ε α} {f : α → β} {b : β} :
    m.map f = .ok b ↔ ∃ a, m = .ok a ∧ f a = b := by
  cases m <;> simp [Except.map]

@[simp] theorem mapError_eq_ok {m : Except ε α} {f : ε → ε'} {a : α} :
    m.mapError f = .ok a ↔ m = .ok a := by
  cases m <;> simp [Except.mapError]

@[simp] theorem mapError_eq_error {m : Except ε α} {f : ε → ε'} {e : ε'} :
    m.mapError f = .error e ↔ ∃ d, m = .error d ∧ f d = e := by
  cases m <;> simp [Except.mapError]

/-- A traversal passes exactly when every element does. -/
theorem forM_eq_ok {g : α → Except ε Unit} {u : Unit} :
    ∀ {xs : List α}, forM xs g = .ok u ↔ ∀ x ∈ xs, g x = .ok ()
  | [] => by simp
  | x :: xs => by
      rw [List.forM_cons, seq_eq_ok, forM_eq_ok, List.forall_mem_cons]

/-- A traversal that fails fails at some element. -/
theorem forM_eq_error {g : α → Except ε Unit} {e : ε} :
    ∀ {xs : List α}, forM xs g = .error e → ∃ x ∈ xs, g x = .error e
  | [], h => by simp at h
  | x :: xs, h => by
      rw [List.forM_cons, bind_eq_error] at h
      rcases h with h | ⟨_, _, h⟩
      · exact ⟨x, List.mem_cons_self .., h⟩
      · obtain ⟨y, hy, he⟩ := forM_eq_error h
        exact ⟨y, List.mem_cons_of_mem _ hy, he⟩

theorem forM_congr {g h : α → Except ε Unit} :
    ∀ {xs : List α}, (∀ x ∈ xs, g x = h x) → forM xs g = forM xs h
  | [], _ => rfl
  | x :: xs, heq => by
      rw [List.forM_cons, List.forM_cons, heq x (List.mem_cons_self ..)]
      exact bind_congr fun _ => forM_congr fun y hy => heq y (List.mem_cons_of_mem _ hy)

/-- Elements that pass whenever the ones before them do can be left off the end. -/
theorem forM_append_of_implied {g : α → Except ε Unit} {xs ys : List α}
    (h : (∀ x ∈ xs, g x = .ok ()) → ∀ y ∈ ys, g y = .ok ()) : forM (xs ++ ys) g = forM xs g := by
  rw [List.forM_append]
  cases hxs : forM xs g with
  | error e => rfl
  | ok u => exact forM_eq_ok.mpr (h (forM_eq_ok.mp hxs))

/-- A mapping traversal succeeds exactly with the elementwise results. -/
theorem mapM_eq_ok {f : α → Except ε β} :
    ∀ {xs : List α} {ys : List β}, xs.mapM f = .ok ys ↔ List.Forall₂ (fun x y => f x = .ok y) xs ys
  | [], ys => by rw [List.mapM_nil, pure_eq_ok, List.forall₂_nil_left_iff, eq_comm]
  | x :: xs, ys => by
      rw [List.mapM_cons, bind_eq_ok]
      refine ⟨fun h => ?_, fun h => ?_⟩
      · obtain ⟨y, hy, h⟩ := h
        obtain ⟨zs, hzs, h⟩ := bind_eq_ok.mp h
        rw [pure_eq_ok] at h
        subst h
        exact .cons hy (mapM_eq_ok.mp hzs)
      · rcases h with _ | ⟨hy, h⟩
        exact ⟨_, hy, bind_eq_ok.mpr ⟨_, mapM_eq_ok.mpr h, rfl⟩⟩

/-- A mapping traversal that fails fails at some element. -/
theorem mapM_eq_error {f : α → Except ε β} {e : ε} :
    ∀ {xs : List α}, xs.mapM f = .error e → ∃ x ∈ xs, f x = .error e
  | [], h => by simp at h
  | x :: xs, h => by
      rw [List.mapM_cons, bind_eq_error] at h
      rcases h with h | ⟨_, _, h⟩
      · exact ⟨x, List.mem_cons_self .., h⟩
      · rcases bind_eq_error.mp h with h | ⟨_, _, h⟩
        · obtain ⟨y, hy, he⟩ := mapM_eq_error h
          exact ⟨y, List.mem_cons_of_mem _ hy, he⟩
        · simp at h

/-- What a filter whose test can fail keeps. -/
def holds (p : α → Except ε Bool) (x : α) : Bool := (p x).toOption.getD false

theorem filterAuxM_eq_ok {p : α → Except ε Bool} {xs : List α} : ∀ {acc ys : List α},
    xs.filterAuxM p acc = .ok ys ↔
      (∀ x ∈ xs, ∃ b, p x = .ok b) ∧ ys = (xs.filter (holds p)).reverse ++ acc := by
  induction xs with
  | nil =>
      intro acc ys
      rw [List.filterAuxM, pure_eq_ok]
      simp [eq_comm]
  | cons x xs ih =>
      intro acc ys
      rw [List.filterAuxM, List.forall_mem_cons]
      cases hx : p x with
      | error e => simp
      | ok b =>
          have hb : holds p x = b := by rw [holds, hx]; rfl
          rw [ok_bind, ih]
          cases b <;> simp [hb]

/-- A filter goes through when each test does. -/
theorem filterM_eq_ok {p : α → Except ε Bool} {xs ys : List α} :
    xs.filterM p = .ok ys ↔ (∀ x ∈ xs, ∃ b, p x = .ok b) ∧ ys = xs.filter (holds p) := by
  rw [List.filterM, bind_eq_ok]
  simp only [filterAuxM_eq_ok, pure_eq_ok]
  refine ⟨fun h => ?_, fun h => ?_⟩
  · obtain ⟨_, ⟨hall, rfl⟩, rfl⟩ := h
    exact ⟨hall, by simp⟩
  · obtain ⟨hall, rfl⟩ := h
    exact ⟨_, ⟨hall, rfl⟩, by simp⟩

/-- A filter that fails fails at some element. -/
theorem filterM_eq_error {p : α → Except ε Bool} {xs : List α} {e : ε}
    (h : xs.filterM p = .error e) : ∃ x ∈ xs, p x = .error e := by
  have haux {xs : List α} : ∀ {acc : List α}, xs.filterAuxM p acc = .error e →
      ∃ x ∈ xs, p x = .error e := by
    induction xs with
    | nil =>
        intro acc h
        rw [List.filterAuxM] at h
        exact absurd h pure_ne_error
    | cons x xs ih =>
        intro acc h
        rcases bind_eq_error.mp h with hx | ⟨b, -, h⟩
        · exact ⟨x, List.mem_cons_self .., hx⟩
        · obtain ⟨y, hy, he⟩ := ih h
          exact ⟨y, List.mem_cons_of_mem _ hy, he⟩
  rw [List.filterM, bind_eq_error] at h
  rcases h with h | ⟨_, -, h⟩
  · exact haux h
  · exact absurd h pure_ne_error

/-- A loop that makes a value in each round and folds it in: the values can be made first. -/
theorem foldlM_eq_mapM {σ : Type} (f : α → Except ε β) (g : σ → β → σ) (xs : List α) (s : σ) :
    (xs.foldlM (fun s x => do
      let y ← f x
      pure (g s y)) s) = (do
      let ys ← xs.mapM f
      pure (ys.foldl g s)) := by
  induction xs generalizing s with
  | nil => rfl
  | cons x xs ih =>
      rw [List.foldlM_cons, List.mapM_cons]
      cases f x with
      | error e => rfl
      | ok y =>
          rw [ok_bind, ok_bind, bind_assoc]
          exact ih (g s y)

/-! ## Checks that pass a state along -/

section

variable {σ : Type}

theorem state_bind_of_ok {m : StateT σ (Except ε) α} {f : α → StateT σ (Except ε) β} {s s' : σ}
    {a : α} (h : m s = .ok (a, s')) : (m >>= f) s = f a s' := by
  show (m s >>= fun r => f r.1 r.2) = _
  rw [h]
  rfl

theorem state_bind_eq_ok {m : StateT σ (Except ε) α} {f : α → StateT σ (Except ε) β} {s : σ}
    {r : β × σ} : (m >>= f) s = .ok r ↔ ∃ a s', m s = .ok (a, s') ∧ f a s' = .ok r := by
  show (m s >>= fun r => f r.1 r.2) = _ ↔ _
  rw [bind_eq_ok, Prod.exists]

/-- A check without a state, as a step of a computation that has one. -/
theorem state_lift_eq_ok {m : Except ε α} {s s' : σ} {a : α} :
    (liftM m : StateT σ (Except ε) α) s = .ok (a, s') ↔ m = .ok a ∧ s' = s := by
  show (m >>= fun b => (.ok (b, s) : Except ε (α × σ))) = _ ↔ _
  rw [bind_eq_ok]
  refine ⟨fun h => ?_, fun h => ?_⟩
  · obtain ⟨b, hm, h⟩ := h
    cases h
    exact ⟨hm, rfl⟩
  · obtain ⟨hm, rfl⟩ := h
    exact ⟨a, hm, rfl⟩

end

/-! ## What a computation may fail with -/

/-- Every error `m` can end with satisfies `P`. -/
def Raises (P : ε → Prop) (m : Except ε α) : Prop := ∀ e, m = .error e → P e

namespace Raises

variable {P Q : ε → Prop}

theorem mono {m : Except ε α} (h : Raises P m) (hpq : ∀ e, P e → Q e) : Raises Q m :=
  fun e he => hpq e (h e he)

theorem ok (a : α) : Raises P (.ok a : Except ε α) := by
  intro e h; cases h

theorem pure (a : α) : Raises P (Pure.pure a : Except ε α) := ok a

theorem error {e : ε} (h : P e) : Raises P (.error e : Except ε α) := by
  intro e' he; cases he; exact h

theorem bind {m : Except ε α} {f : α → Except ε β} (hm : Raises P m)
    (hf : ∀ a, m = .ok a → Raises P (f a)) : Raises P (m >>= f) := by
  intro e he
  rcases bind_eq_error.mp he with h | ⟨a, ha, h⟩
  · exact hm e h
  · exact hf a ha e h

theorem mapError {m : Except ε' α} {f : ε' → ε} (h : ∀ d, m = .error d → P (f d)) :
    Raises P (m.mapError f) := by
  intro e he
  obtain ⟨d, hd, rfl⟩ := mapError_eq_error.mp he
  exact h d hd

theorem forM {g : α → Except ε Unit} {xs : List α} (h : ∀ x ∈ xs, Raises P (g x)) :
    Raises P (forM xs g) := by
  intro e he
  obtain ⟨x, hx, h'⟩ := forM_eq_error he
  exact h x hx e h'

theorem mapM {f : α → Except ε β} {xs : List α} (h : ∀ x ∈ xs, Raises P (f x)) :
    Raises P (xs.mapM f) := by
  intro e he
  obtain ⟨x, hx, h'⟩ := mapM_eq_error he
  exact h x hx e h'

theorem filterM {p : α → Except ε Bool} {xs : List α} (h : ∀ x ∈ xs, Raises P (p x)) :
    Raises P (xs.filterM p) := by
  intro e he
  obtain ⟨x, hx, h'⟩ := filterM_eq_error he
  exact h x hx e h'

theorem foldlM {f : β → α → Except ε β} {xs : List α} (h : ∀ b, ∀ x ∈ xs, Raises P (f b x))
    (b : β) : Raises P (xs.foldlM f b) := by
  induction xs generalizing b with
  | nil => exact ok b
  | cons x xs ih =>
      rw [List.foldlM_cons]
      exact (h b x (List.mem_cons_self ..)).bind fun b' _ =>
        ih (fun b'' y hy => h b'' y (List.mem_cons_of_mem _ hy)) b'

end Raises

/-! ## Gates -/

/-- One check, as a function of the whole input. -/
abbrev Gate (ι ε : Type) := ι → Except ε Unit

/-- Run gates in order, stopping at the first that refuses. -/
def run (gs : List (Gate ι ε)) (i : ι) : Except ε Unit := forM gs (fun g => g i)

@[simp] theorem run_nil (i : ι) : run ([] : List (Gate ι ε)) i = .ok () := rfl

@[simp] theorem run_cons (g : Gate ι ε) (gs : List (Gate ι ε)) (i : ι) :
    run (g :: gs) i = (g i >>= fun _ => run gs i) := rfl

theorem run_append (gs hs : List (Gate ι ε)) (i : ι) :
    run (gs ++ hs) i = (run gs i >>= fun _ => run hs i) := by
  induction gs with
  | nil => rfl
  | cons g gs ih => simp only [List.cons_append, run_cons, ih, bind_assoc]

/-- Gates that pass can be left out. -/
theorem run_map_filter {f : α → Gate ι ε} {p : α → Bool} {i : ι} {xs : List α}
    (h : ∀ x ∈ xs, p x = false → f x i = .ok ()) :
    run (xs.map f) i = run ((xs.filter p).map f) i := by
  induction xs with
  | nil => rfl
  | cons x xs ih =>
      rw [List.forall_mem_cons] at h
      rw [List.map_cons, run_cons, ih h.2]
      cases hp : p x with
      | true => rw [List.filter_cons_of_pos hp, List.map_cons, run_cons]
      | false => rw [List.filter_cons_of_neg (by simp [hp]), h.1 hp, ok_bind]

/-- Two inputs that no gate tells apart are run alike. -/
theorem run_congr {gs : List (Gate ι ε)} {i j : ι} (h : ∀ g ∈ gs, g i = g j) :
    run gs i = run gs j := forM_congr h

theorem run_eq_ok {gs : List (Gate ι ε)} {i : ι} :
    run gs i = .ok () ↔ ∀ g ∈ gs, g i = .ok () := forM_eq_ok

/-- A run that fails fails at one of its gates. -/
theorem run_eq_error {gs : List (Gate ι ε)} {i : ι} {e : ε} (h : run gs i = .error e) :
    ∃ g ∈ gs, g i = .error e := forM_eq_error h

/-! ## Blame -/

/--
`g` never answers with an error in `P` on an input related to one it passed.

The relation says what the two inputs share; `P` is the set of errors that blame
the shared part.
-/
def Blameless (R : ι → ι → Prop) (P : ε → Prop) (g : Gate ι ε) : Prop :=
  ∀ i j, R i j → g i = .ok () → Raises (fun e => ¬ P e) (g j)

/-- A gate that reads only what the two inputs share passes both or neither. -/
theorem Blameless.of_reads {R : ι → ι → Prop} {P : ε → Prop} {g : Gate ι ε}
    (h : ∀ i j, R i j → g j = g i) : Blameless R P g := by
  intro i j hR hi e he
  rw [h i j hR, hi] at he
  cases he

/-- A gate that never raises `P` at all is blameless. -/
theorem Blameless.of_raises {R : ι → ι → Prop} {P : ε → Prop} {g : Gate ι ε}
    (h : ∀ j, Raises (fun e => ¬ P e) (g j)) : Blameless R P g :=
  fun _ j _ _ => h j

/-- **The blame rule.** If every gate is blameless, so is the run. -/
theorem run_blameless {R : ι → ι → Prop} {P : ε → Prop} {gs : List (Gate ι ε)}
    (h : ∀ g ∈ gs, Blameless R P g) : Blameless R P (run gs) := by
  intro i j hR hi e he
  obtain ⟨g, hg, hge⟩ := run_eq_error he
  exact h g hg i j hR (run_eq_ok.mp hi g hg) e hge

end Checks
