import DcapVerify.Lib.Checks

/-!
# Exact readers

A reader consumes a prefix of its input and leaves a cursor behind. What makes a
binary format trustworthy is that the reader is *exact*: it accepts precisely the
words of a grammar, and the value it returns is the one the word denotes.

`Reads p F` says that in one line, for a grammar `F` relating values to the words
that encode them. The rules below compute the grammar of a reader from the
grammars of its parts, so a parser written in `do` notation gets its grammar by
following its own shape. Exactness of a deterministic reader then yields, for
free, that encodings are self-delimiting and decodings unique.
-/

namespace Wire

variable {β ε : Type} {α γ : Type}

/-- A cursor over symbols, with errors. An error does not report a cursor. -/
abbrev Reader (β ε α : Type) := StateT (List β) (Except ε) α

/-- `p` accepts exactly the words of `F`, from any position, and stops right after them. -/
def Reads (p : Reader β ε α) (F : α → List β → Prop) : Prop :=
  ∀ inp a rest, p inp = .ok (a, rest) ↔ ∃ x, F a x ∧ inp = x ++ rest

namespace Reads

theorem congr {p : Reader β ε α} {F G : α → List β → Prop} (h : Reads p F)
    (hFG : ∀ a x, F a x ↔ G a x) : Reads p G := by
  intro inp a rest
  simp only [h inp a rest, hFG]

theorem pure (a : α) : Reads (Pure.pure a : Reader β ε α) (fun b x => b = a ∧ x = []) := by
  intro inp b rest
  show (Except.ok (a, inp) : Except ε _) = .ok (b, rest) ↔ _
  refine ⟨fun h => ?_, fun h => ?_⟩
  · cases h; exact ⟨[], ⟨rfl, rfl⟩, rfl⟩
  · obtain ⟨x, ⟨rfl, rfl⟩, rfl⟩ := h
    rfl

/-- **Sequencing concatenates words**, the second grammar depending on the first value. -/
theorem bind {p : Reader β ε α} {f : α → Reader β ε γ} {F : α → List β → Prop}
    {G : α → γ → List β → Prop} (hp : Reads p F) (hf : ∀ a, Reads (f a) (G a)) :
    Reads (p >>= f) (fun c z => ∃ a x y, F a x ∧ G a c y ∧ z = x ++ y) := by
  intro inp c rest
  rw [Checks.state_bind_eq_ok]
  refine ⟨fun h => ?_, fun h => ?_⟩
  · obtain ⟨a, mid, h1, h2⟩ := h
    obtain ⟨x, hx, rfl⟩ := (hp _ _ _).mp h1
    obtain ⟨y, hy, rfl⟩ := (hf a _ _ _).mp h2
    exact ⟨x ++ y, ⟨a, x, y, hx, hy, rfl⟩, (List.append_assoc ..).symm⟩
  · obtain ⟨z, ⟨a, x, y, hx, hy, rfl⟩, rfl⟩ := h
    refine ⟨a, y ++ rest, (hp _ _ _).mpr ⟨x, hx, List.append_assoc ..⟩, ?_⟩
    exact (hf a _ _ _).mpr ⟨y, hy, rfl⟩

/-- A computation that reads nothing contributes its own success condition. -/
theorem lift (m : Except ε α) :
    Reads (StateT.lift m : Reader β ε α) (fun a x => m = .ok a ∧ x = []) := by
  intro inp a rest
  refine Checks.state_lift_eq_ok.trans ⟨fun h => ?_, fun h => ?_⟩
  · obtain ⟨hm, rfl⟩ := h
    exact ⟨[], ⟨hm, rfl⟩, rfl⟩
  · obtain ⟨x, ⟨hm, rfl⟩, rfl⟩ := h
    exact ⟨hm, rfl⟩

/-- Sequencing after a field: `ok` says which values have a word, `w` which word that is. -/
theorem field {p : Reader β ε α} {f : α → Reader β ε γ} {ok : α → Prop} {w : α → List β}
    {G : α → γ → List β → Prop} (hp : Reads p (fun a x => ok a ∧ x = w a))
    (hf : ∀ a, ok a → Reads (f a) (G a)) :
    Reads (p >>= f) (fun c z => ∃ a y, ok a ∧ G a c y ∧ z = w a ++ y) := by
  intro inp c rest
  rw [Checks.state_bind_eq_ok]
  refine ⟨fun h => ?_, fun h => ?_⟩
  · obtain ⟨a, mid, h1, h2⟩ := h
    obtain ⟨_, ⟨ha, rfl⟩, rfl⟩ := (hp _ _ _).mp h1
    obtain ⟨y, hy, rfl⟩ := (hf a ha _ _ _).mp h2
    exact ⟨w a ++ y, ⟨a, y, ha, hy, rfl⟩, (List.append_assoc ..).symm⟩
  · obtain ⟨_, ⟨a, y, ha, hy, rfl⟩, rfl⟩ := h
    refine ⟨a, y ++ rest, (hp _ _ _).mpr ⟨w a, ⟨ha, rfl⟩, List.append_assoc ..⟩, ?_⟩
    exact (hf a ha _ _ _).mpr ⟨y, hy, rfl⟩

variable {p : Reader β ε α} {F : α → List β → Prop}

/-- Every word of the grammar is read back from any position. -/
theorem accepts (h : Reads p F) {a : α} {x : List β} (hx : F a x) (rest : List β) :
    p (x ++ rest) = .ok (a, rest) := (h _ _ _).mpr ⟨x, hx, rfl⟩

/-- **Encodings are self-delimiting**: an input splits into a word and a rest in one way. -/
theorem unique (h : Reads p F) {a b : α} {x y s t : List β} (hx : F a x) (hy : F b y)
    (he : x ++ s = y ++ t) : a = b ∧ x = y ∧ s = t := by
  have h1 := h.accepts hx s
  rw [he, h.accepts hy t] at h1
  simp only [Except.ok.injEq, Prod.mk.injEq] at h1
  obtain ⟨rfl, rfl⟩ := h1
  exact ⟨rfl, List.append_cancel_right he, rfl⟩

/-- Running to the end of a region accepts exactly the regions that are words. -/
theorem whole (h : Reads p F) {a : α} {x : List β} : p x = .ok (a, []) ↔ F a x := by
  rw [h x a []]
  refine ⟨fun h => ?_, fun hx => ?_⟩
  · obtain ⟨y, hy, rfl⟩ := h
    rwa [List.append_nil]
  · exact ⟨x, hx, (List.append_nil x).symm⟩

end Reads

/-! ## Repetition -/

/-- Read `n` values one after the other. -/
def many (p : Reader β ε α) : Nat → Reader β ε (List α)
  | 0 => Pure.pure []
  | n + 1 => do
      let a ← p
      let as ← many p n
      Pure.pure (a :: as)

/-- **A concatenation of words is read back word by word.** -/
theorem Reads.many_accepts {p : Reader β ε α} {F : α → List β → Prop} (h : Reads p F) :
    ∀ {as : List α} {xs : List (List β)}, List.Forall₂ F as xs → ∀ rest : List β,
      many p as.length (xs.flatten ++ rest) = .ok (as, rest)
  | [], [], _, _ => rfl
  | a :: as, x :: xs, .cons hx hxs, rest => by
      show (p ((x :: xs).flatten ++ rest) >>= fun r => (many p as.length r.2 >>= fun s =>
        (Except.ok (r.1 :: s.1, s.2) : Except ε _))) = _
      rw [List.flatten_cons, List.append_assoc, h.accepts hx]
      show (many p as.length (xs.flatten ++ rest) >>= _) = _
      rw [h.many_accepts hxs rest]
      rfl

/-! ## Readers of a fixed width -/

/-- `p` succeeds on every input of at least `n` symbols, and consumes exactly `n`. -/
def Advances (p : Reader β ε α) (n : Nat) : Prop :=
  ∀ inp, n ≤ inp.length → ∃ a, p inp = .ok (a, inp.drop n)

namespace Advances

theorem pure (a : α) : Advances (Pure.pure a : Reader β ε α) 0 := fun _ _ => ⟨a, rfl⟩

theorem bind {p : Reader β ε α} {f : α → Reader β ε γ} {m n : Nat} (hp : Advances p m)
    (hf : ∀ a, Advances (f a) n) : Advances (p >>= f) (m + n) := by
  intro inp h
  obtain ⟨a, ha⟩ := hp inp (by omega)
  obtain ⟨c, hc⟩ := hf a (inp.drop m) (by rw [List.length_drop]; omega)
  exact ⟨c, by rw [Checks.state_bind_of_ok ha, hc, List.drop_drop]⟩

/-- An exact reader all of whose words have one length, and which has a word for every string of
that length, has that width. -/
theorem of_reads {p : Reader β ε α} {F : α → List β → Prop} {n : Nat} (h : Reads p F)
    (hF : ∀ x : List β, x.length = n → ∃ a, F a x) : Advances p n := by
  intro inp hn
  obtain ⟨a, ha⟩ := hF (inp.take n) (by rw [List.length_take]; omega)
  refine ⟨a, ?_⟩
  have := h.accepts ha (inp.drop n)
  rwa [List.take_append_drop] at this

end Advances

/-! ## What a reader may fail with -/

/-- Every error of `p`, from any position, satisfies `P`. -/
def Fails (P : ε → Prop) (p : Reader β ε α) : Prop := ∀ inp, Checks.Raises P (p inp)

namespace Fails

variable {P : ε → Prop}

theorem pure (a : α) : Fails P (Pure.pure a : Reader β ε α) := fun _ => Checks.Raises.ok _

theorem lift {m : Except ε α} (h : Checks.Raises P m) :
    Fails P (StateT.lift m : Reader β ε α) :=
  fun _ => Checks.Raises.bind h fun _ _ => Checks.Raises.ok _

/-- The continuation may rely on what the first reader accepted. -/
theorem bind {p : Reader β ε α} {f : α → Reader β ε γ} {F : α → List β → Prop}
    (hr : Reads p F) (hp : Fails P p) (hf : ∀ a x, F a x → Fails P (f a)) :
    Fails P (p >>= f) := by
  intro inp
  refine Checks.Raises.bind (hp inp) fun r h => ?_
  obtain ⟨x, hx, _⟩ := (hr _ _ _).mp h
  exact hf r.1 x hx r.2

end Fails

/-! ## What a reader may fail with at a position -/

/-- Every error of `p` satisfies `P` when it starts `n` symbols into `input`. -/
def FailsAt (input : List β) (n : Nat) (P : ε → Prop) (p : Reader β ε α) : Prop :=
  ∀ rest : List β, input.length = n + rest.length → Checks.Raises P (p rest)

namespace FailsAt

variable {P : ε → Prop} {input : List β} {n : Nat}

theorem of_fails {p : Reader β ε α} (h : Fails P p) : FailsAt input n P p := fun rest _ => h rest

/-- A reader of words of one length moves the position by that length. -/
theorem bind {p : Reader β ε α} {f : α → Reader β ε γ} {F : α → List β → Prop} {m : Nat}
    (hr : Reads p F) (hm : ∀ a x, F a x → x.length = m) (hp : Fails P p)
    (hf : ∀ a x, F a x → FailsAt input (n + m) P (f a)) : FailsAt input n P (p >>= f) := by
  intro inp hlen
  refine Checks.Raises.bind (hp inp) fun r h => ?_
  obtain ⟨x, hx, hinp⟩ := (hr _ _ _).mp h
  have hx' := hm r.1 x hx
  rw [hinp, List.length_append] at hlen
  exact hf r.1 x hx r.2 (by omega)

/-- A computation that reads nothing may use how long the input is. -/
theorem lift_bind {m : Except ε α} {f : α → Reader β ε γ}
    (hm : n ≤ input.length → Checks.Raises P m) (hf : ∀ a, m = .ok a → FailsAt input n P (f a)) :
    FailsAt input n P (StateT.lift m >>= f) := by
  intro inp hlen
  have hstep : ((StateT.lift m : Reader β ε α) >>= f) inp = (m >>= fun a => f a inp) := by
    cases m <;> rfl
  rw [hstep]
  exact Checks.Raises.bind (hm (by omega)) fun a ha => hf a ha inp hlen

end FailsAt

end Wire
