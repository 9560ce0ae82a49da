import DcapVerify.Lib.Checks
import Mathlib.Data.Vector.Basic

/-!
# Rejections, and what else can end a run

`error.rs`, and the vocabulary every other module is written in. A Rust function
returning `Result<T, VerifyError>` becomes a function into `Outcome T`. An outcome
has one more way to end than the Rust type shows: a *panic*, raised by a partial
operation (an index, a slice, a copy between slices, an `expect`) outside its
domain. Keeping panics in the model is what lets the absence of panics be a
theorem instead of a modelling assumption.
-/

namespace DcapVerify

abbrev Bytes := List UInt8

/-- A fixed-size array `[u8; n]`. -/
abbrev U8Array (n : Nat) := List.Vector UInt8 n

/-- The classification of a verification rejection. -/
inductive ErrorCategory where
  | quoteParse
  | collateralParse
  | quoteSignatureInvalid
  | qeReportSignatureInvalid
  | qeBindingInvalid
  | qeVendorInvalid
  | qeIdentitySignatureInvalid
  | qeIdentityStale
  | qeIdentityMismatch
  | tcbInfoSignatureInvalid
  | tcbInfoStale
  | certOrCrlTimeInvalid
  | crlInvalid
  | rootCaUntrusted
  | tcbLevelUnsupported
  | tcbStandingRejected
  | mrenclaveMismatch
  | debugEnclaveRejected
  deriving DecidableEq, Repr

/-- The stable slug used in fixture metadata and in error display. -/
def ErrorCategory.asStr : ErrorCategory → String
  | .quoteParse => "quote-parse-error"
  | .collateralParse => "collateral-parse-error"
  | .quoteSignatureInvalid => "quote-signature-invalid"
  | .qeReportSignatureInvalid => "qe-report-signature-invalid"
  | .qeBindingInvalid => "qe-binding-invalid"
  | .qeVendorInvalid => "qe-vendor-invalid"
  | .qeIdentitySignatureInvalid => "qe-identity-signature-invalid"
  | .qeIdentityStale => "qe-identity-stale"
  | .qeIdentityMismatch => "qe-identity-mismatch"
  | .tcbInfoSignatureInvalid => "tcb-info-signature-invalid"
  | .tcbInfoStale => "tcb-info-stale"
  | .certOrCrlTimeInvalid => "cert-or-crl-time-invalid"
  | .crlInvalid => "crl-invalid"
  | .rootCaUntrusted => "root-ca-untrusted"
  | .tcbLevelUnsupported => "tcb-level-unsupported"
  | .tcbStandingRejected => "tcb-standing-rejected"
  | .mrenclaveMismatch => "mrenclave-mismatch"
  | .debugEnclaveRejected => "debug-enclave-rejected"

/-- Every category, in declaration order. -/
def ErrorCategory.all : List ErrorCategory :=
  [.quoteParse, .collateralParse, .quoteSignatureInvalid, .qeReportSignatureInvalid,
    .qeBindingInvalid, .qeVendorInvalid, .qeIdentitySignatureInvalid, .qeIdentityStale,
    .qeIdentityMismatch, .tcbInfoSignatureInvalid, .tcbInfoStale, .certOrCrlTimeInvalid,
    .crlInvalid, .rootCaUntrusted, .tcbLevelUnsupported, .tcbStandingRejected,
    .mrenclaveMismatch, .debugEnclaveRejected]

theorem ErrorCategory.mem_all (k : ErrorCategory) : k ∈ ErrorCategory.all := by
  cases k <;> decide

/-- The slugs tell the categories apart, so the oracle's comparison on slugs loses nothing. -/
theorem ErrorCategory.asStr_injective : Function.Injective ErrorCategory.asStr := by
  have hnodup : (ErrorCategory.all.map ErrorCategory.asStr).Nodup := by decide +kernel
  intro a b h
  exact List.inj_on_of_nodup_map hnodup (mem_all a) (mem_all b) h

/-- A verification rejection: a category and a human-readable detail. -/
structure VerifyError where
  category : ErrorCategory
  detail : String
  deriving DecidableEq, Repr

/-- What ends a run early. -/
inductive Fault where
  | reject (e : VerifyError)
  | panic (operation : String)
  deriving DecidableEq, Repr

abbrev Outcome (α : Type) := Except Fault α

/-- The category of a rejection; a panic has none. -/
def Fault.category? : Fault → Option ErrorCategory
  | .reject e => some e.category
  | .panic _ => none

/-- `Err(e)`. -/
def reject {α : Type} (e : VerifyError) : Outcome α := .error (.reject e)

/-- `if cond { return Err(e); }`. -/
def rejectIf (cond : Prop) [Decidable cond] (e : VerifyError) : Outcome Unit :=
  if cond then reject e else .ok ()

/-- `.map_err(f)?`. -/
def orReject {α : Type} (m : Except String α) (f : String → VerifyError) : Outcome α :=
  m.mapError fun d => .reject (f d)

/-- `.ok_or_else(|| e)?`. -/
def okOrReject {α : Type} (o : Option α) (e : VerifyError) : Outcome α :=
  match o with
  | some a => .ok a
  | none => reject e

/-- `<[u8; N]>::try_from(bytes).ok()`. -/
def tryInto (n : Nat) (bytes : Bytes) : Option (U8Array n) :=
  if h : bytes.length = n then some ⟨bytes, h⟩ else none

/-! ## Partial operations -/

/-- `xs[i]`. -/
def index {α : Type} (xs : List α) (i : Nat) : Outcome α :=
  match xs[i]? with
  | some x => .ok x
  | none => .error (.panic "index out of bounds")

/-- `xs.split_at(n)`. -/
def splitAt {α : Type} (xs : List α) (n : Nat) : Outcome (List α × List α) :=
  if n ≤ xs.length then .ok (xs.take n, xs.drop n) else .error (.panic "split_at")

/-- `xs[..n]`. -/
def sliceTo {α : Type} (xs : List α) (n : Nat) : Outcome (List α) :=
  if n ≤ xs.length then .ok (xs.take n) else .error (.panic "slice end out of range")

/-- `xs[n..]`. -/
def sliceFrom {α : Type} (xs : List α) (n : Nat) : Outcome (List α) :=
  if n ≤ xs.length then .ok (xs.drop n) else .error (.panic "slice start out of range")

/-- `xs[i] = x` on a fixed-size array. -/
def setAt {α : Type} {n : Nat} (xs : List.Vector α n) (i : Nat) (x : α) :
    Outcome (List.Vector α n) :=
  if h : i < n then .ok (xs.set ⟨i, h⟩ x) else .error (.panic "index out of bounds")

/-- `let mut out = [0u8; N]; out.copy_from_slice(bytes);`. -/
def copyFromSlice (n : Nat) (bytes : Bytes) : Outcome (U8Array n) :=
  if h : bytes.length = n then .ok ⟨bytes, h⟩ else .error (.panic "copy_from_slice")

/-! ## What the vocabulary means -/

section

variable {α β : Type} {c : Prop} [Decidable c] {e : VerifyError}

@[simp] theorem reject_ne_ok {a : α} : (reject e : Outcome α) ≠ .ok a := by
  simp [reject]

@[simp] theorem rejectIf_eq_ok {u : Unit} : rejectIf c e = .ok u ↔ ¬ c := by
  unfold rejectIf reject; split <;> simp_all

@[simp] theorem orReject_eq_ok {m : Except String α} {f : String → VerifyError} {a : α} :
    orReject m f = .ok a ↔ m = .ok a := Checks.mapError_eq_ok

@[simp] theorem okOrReject_eq_ok {o : Option α} {a : α} : okOrReject o e = .ok a ↔ o = some a := by
  cases o <;> simp [okOrReject]

theorem index_eq_ok {xs : List α} {i : Nat} {x : α} : index xs i = .ok x ↔ xs[i]? = some x := by
  unfold index; split <;> simp_all

@[simp] theorem splitAt_of_le {xs : List α} {n : Nat} (h : n ≤ xs.length) :
    splitAt xs n = .ok (xs.take n, xs.drop n) := if_pos h

@[simp] theorem sliceTo_of_le {xs : List α} {n : Nat} (h : n ≤ xs.length) :
    sliceTo xs n = .ok (xs.take n) := if_pos h

@[simp] theorem sliceFrom_of_le {xs : List α} {n : Nat} (h : n ≤ xs.length) :
    sliceFrom xs n = .ok (xs.drop n) := if_pos h

@[simp] theorem copyFromSlice_of_length {n : Nat} {bytes : Bytes} (h : bytes.length = n) :
    copyFromSlice n bytes = .ok (⟨bytes, h⟩ : U8Array n) := dif_pos h

@[simp] theorem copyFromSlice_toList {n : Nat} (a : U8Array n) :
    copyFromSlice n a.toList = .ok a := dif_pos a.toList_length

theorem tryInto_eq_some {n : Nat} {bytes : Bytes} {a : U8Array n} :
    tryInto n bytes = some a ↔ bytes = a.toList := by
  unfold tryInto
  refine ⟨fun h => ?_, fun h => ?_⟩
  · split at h
    · cases h
      rfl
    · cases h
  · subst h
    rw [dif_pos a.toList_length]
    rfl

end

/-! ## Failing with a category -/

/-- Every way `m` can end early is a rejection in one of the categories of `S`. -/
def RejectsIn {α : Type} (S : List ErrorCategory) (m : Outcome α) : Prop :=
  Checks.Raises (fun f => ∃ k ∈ S, f.category? = some k) m

namespace RejectsIn

variable {α β : Type} {S T : List ErrorCategory}

theorem mono {m : Outcome α} (h : RejectsIn S m) (hST : S ⊆ T) : RejectsIn T m :=
  Checks.Raises.mono h fun _ ⟨k, hk, he⟩ => ⟨k, hST hk, he⟩

theorem ok (a : α) : RejectsIn S (.ok a : Outcome α) := Checks.Raises.ok a

theorem reject {e : VerifyError} (h : e.category ∈ S) :
    RejectsIn S (DcapVerify.reject e : Outcome α) :=
  Checks.Raises.error ⟨e.category, h, rfl⟩

theorem rejectIf {c : Prop} [Decidable c] {e : VerifyError} (h : e.category ∈ S) :
    RejectsIn S (DcapVerify.rejectIf c e) := by
  unfold DcapVerify.rejectIf
  split
  · exact reject h
  · exact ok ()

theorem orReject {m : Except String α} {f : String → VerifyError} (h : ∀ d, (f d).category ∈ S) :
    RejectsIn S (DcapVerify.orReject m f) :=
  Checks.Raises.mapError fun d _ => ⟨(f d).category, h d, rfl⟩

theorem okOrReject {o : Option α} {e : VerifyError} (h : e.category ∈ S) :
    RejectsIn S (DcapVerify.okOrReject o e) := by
  cases o with
  | some a => exact ok a
  | none => exact reject h

theorem bind {m : Outcome α} {f : α → Outcome β} (hm : RejectsIn S m)
    (hf : ∀ a, m = .ok a → RejectsIn S (f a)) : RejectsIn S (m >>= f) :=
  Checks.Raises.bind hm hf

theorem forM {g : α → Outcome Unit} {xs : List α} (h : ∀ x ∈ xs, RejectsIn S (g x)) :
    RejectsIn S (ForM.forM xs g) :=
  Checks.Raises.forM h

theorem mapM {f : α → Outcome β} {xs : List α} (h : ∀ x ∈ xs, RejectsIn S (f x)) :
    RejectsIn S (xs.mapM f) :=
  Checks.Raises.mapM h

theorem foldlM {f : β → α → Outcome β} {xs : List α} (h : ∀ b, ∀ x ∈ xs, RejectsIn S (f b x))
    (b : β) : RejectsIn S (xs.foldlM f b) :=
  Checks.Raises.foldlM h b

theorem mmap {f : α → Outcome β} (h : ∀ a, RejectsIn S (f a)) :
    ∀ {n : Nat} (xs : List.Vector α n), RejectsIn S (xs.mmap f)
  | 0, _ => ok _
  | _ + 1, xs => (h xs.head).bind fun _ _ => (mmap h xs.tail).bind fun _ _ => ok _

/-- What comes out is a rejection in one of the categories. -/
theorem exists_reject {m : Outcome α} (h : RejectsIn S m) {f : Fault} (hf : m = .error f) :
    ∃ e, f = .reject e ∧ e.category ∈ S := by
  obtain ⟨k, hk, hc⟩ := h _ hf
  cases f with
  | panic op => cases hc
  | reject e =>
      cases hc
      exact ⟨e, rfl, hk⟩

/-- A panic never does. -/
theorem no_panic {m : Outcome α} (h : RejectsIn S m) (op : String) : m ≠ .error (.panic op) := by
  intro he
  obtain ⟨k, _, hc⟩ := h _ he
  cases hc

end RejectsIn

/-- The rejections `m` can end with are in the categories of `S`; nothing is said about panics. -/
def RejectsOnly {α : Type} (S : List ErrorCategory) (m : Outcome α) : Prop :=
  Checks.Raises (fun f => ∀ k, f.category? = some k → k ∈ S) m

namespace RejectsOnly

variable {α β : Type} {S : List ErrorCategory}

theorem mono {T : List ErrorCategory} {m : Outcome α} (h : RejectsOnly T m) (hTS : T ⊆ S) :
    RejectsOnly S m :=
  Checks.Raises.mono h fun _ hf k hk => hTS (hf k hk)

theorem of_rejectsIn {T : List ErrorCategory} {m : Outcome α} (h : RejectsIn T m) (hTS : T ⊆ S) :
    RejectsOnly S m :=
  Checks.Raises.mono h fun _ ⟨_, hk, he⟩ _ he' => hTS (Option.some.inj (he.symm.trans he') ▸ hk)

theorem index {xs : List α} {i : Nat} : RejectsOnly S (DcapVerify.index xs i) := by
  unfold DcapVerify.index
  split
  · exact Checks.Raises.ok _
  · exact Checks.Raises.error fun _ h => by cases h

theorem bind {m : Outcome α} {f : α → Outcome β} (hm : RejectsOnly S m)
    (hf : ∀ a, m = .ok a → RejectsOnly S (f a)) : RejectsOnly S (m >>= f) :=
  Checks.Raises.bind hm hf

theorem ok (a : α) : RejectsOnly S (.ok a : Outcome α) := Checks.Raises.ok a

end RejectsOnly

theorem RejectsIn.only {α : Type} {S : List ErrorCategory} {m : Outcome α} (h : RejectsIn S m) :
    RejectsOnly S m :=
  .of_rejectsIn h (List.Subset.refl S)

end DcapVerify
