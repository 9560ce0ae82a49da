import DcapVerify.Error
import DcapVerify.Lib.Wire
import DcapVerify.Lib.Octets

/-!
# The byte reader

`ByteReader` of `types.rs`: a cursor whose only state is the unread rest. Its
methods are readers in the sense of `Wire`, each with the grammar it accepts.
-/

namespace DcapVerify

abbrev ByteReader (α : Type) := Wire.Reader UInt8 Fault α

namespace ByteReader

def take (n : Nat) (what : String) : ByteReader Bytes := fun r => do
  rejectIf (n > r.length) ⟨.quoteParse, s!"{what} needs {n} bytes but only {r.length} remain"⟩
  let (head, tail) ← splitAt r n
  pure (head, tail)

def array (n : Nat) (what : String) : ByteReader (U8Array n) := do
  let bytes ← take n what
  StateT.lift (copyFromSlice n bytes)

/-- `u16::from_le_bytes`. -/
def u16FromLeBytes (bs : Bytes) : UInt16 := UInt16.ofNat (Octets.leNat bs)

/-- `u32::from_le_bytes`. -/
def u32FromLeBytes (bs : Bytes) : UInt32 := UInt32.ofNat (Octets.leNat bs)

/-- `u64::from_le_bytes`. -/
def u64FromLeBytes (bs : Bytes) : UInt64 := UInt64.ofNat (Octets.leNat bs)

def u16Le (what : String) : ByteReader UInt16 := do
  let a ← array 2 what
  pure (u16FromLeBytes a.toList)

def u32Le (what : String) : ByteReader UInt32 := do
  let a ← array 4 what
  pure (u32FromLeBytes a.toList)

/-- A check inside a reader consumes nothing. -/
abbrev check (m : Outcome Unit) : ByteReader Unit := StateT.lift m

end ByteReader

/-- The little-endian encoding of a `u16`. -/
def le16 (n : UInt16) : Bytes := Octets.leBytes 2 n.toNat

/-- The little-endian encoding of a `u32`. -/
def le32 (n : UInt32) : Bytes := Octets.leBytes 4 n.toNat

@[simp] theorem le16_length (n : UInt16) : (le16 n).length = 2 := Octets.leBytes_length ..

@[simp] theorem le32_length (n : UInt32) : (le32 n).length = 4 := Octets.leBytes_length ..

namespace ByteReader

theorem u16FromLeBytes_eq_iff {bs : Bytes} {n : UInt16} (h : bs.length = 2) :
    u16FromLeBytes bs = n ↔ bs = le16 n := by
  have hlt := Octets.leNat_lt bs
  have hn := n.toNat_lt
  rw [h] at hlt
  rw [le16, ← Octets.leNat_eq_iff h (by simpa using hn), u16FromLeBytes, ← UInt16.toNat_inj,
    UInt16.toNat_ofNat']
  omega

theorem u32FromLeBytes_eq_iff {bs : Bytes} {n : UInt32} (h : bs.length = 4) :
    u32FromLeBytes bs = n ↔ bs = le32 n := by
  have hlt := Octets.leNat_lt bs
  have hn := n.toNat_lt
  rw [h] at hlt
  rw [le32, ← Octets.leNat_eq_iff h (by simpa using hn), u32FromLeBytes, ← UInt32.toNat_inj,
    UInt32.toNat_ofNat']
  omega

theorem le16_injective : Function.Injective le16 := fun a _ h =>
  ((u16FromLeBytes_eq_iff (le16_length a)).mpr rfl).symm.trans
    ((u16FromLeBytes_eq_iff (le16_length a)).mpr h)

theorem le32_injective : Function.Injective le32 := fun a _ h =>
  ((u32FromLeBytes_eq_iff (le32_length a)).mpr rfl).symm.trans
    ((u32FromLeBytes_eq_iff (le32_length a)).mpr h)

/-! ## The grammar of each method -/

theorem reads_take (n : Nat) (what : String) :
    Wire.Reads (take n what) (fun a x => a.length = n ∧ x = a) := by
  intro inp a rest
  rw [take]
  by_cases hn : n ≤ inp.length
  · have hr : ¬ n > inp.length := by omega
    simp only [rejectIf, if_neg hr, splitAt_of_le hn, Checks.ok_bind, Checks.pure_eq_ok,
      Prod.mk.injEq]
    refine ⟨fun h => ?_, fun h => ?_⟩
    · obtain ⟨rfl, rfl⟩ := h
      exact ⟨_, ⟨by simp [hn], rfl⟩, (List.take_append_drop n inp).symm⟩
    · obtain ⟨x, ⟨rfl, rfl⟩, rfl⟩ := h
      exact ⟨List.take_left .., List.drop_left ..⟩
  · have hr : n > inp.length := by omega
    simp only [rejectIf, if_pos hr, reject, Checks.error_bind, reduceCtorEq, false_iff]
    rintro ⟨x, ⟨rfl, rfl⟩, rfl⟩
    simp at hn

theorem reads_array (n : Nat) (what : String) :
    Wire.Reads (array n what) (fun a x => True ∧ x = a.toList) := by
  refine ((reads_take n what).field fun bs _ => Wire.Reads.lift (copyFromSlice n bs)).congr ?_
  intro a x
  refine ⟨fun h => ?_, fun h => ?_⟩
  · obtain ⟨bs, _, hl, ⟨hc, rfl⟩, rfl⟩ := h
    rw [copyFromSlice_of_length hl] at hc
    cases hc
    exact ⟨trivial, List.append_nil _⟩
  · obtain ⟨_, rfl⟩ := h
    exact ⟨a.toList, [], a.toList_length, ⟨copyFromSlice_of_length a.toList_length, rfl⟩,
      (List.append_nil _).symm⟩

theorem reads_u16Le (what : String) :
    Wire.Reads (u16Le what) (fun n x => True ∧ x = le16 n) := by
  refine ((reads_array 2 what).field fun a _ => Wire.Reads.pure (u16FromLeBytes a.toList)).congr ?_
  intro n x
  refine ⟨fun h => ?_, fun h => ?_⟩
  · obtain ⟨a, _, _, ⟨rfl, rfl⟩, rfl⟩ := h
    rw [List.append_nil]
    exact ⟨trivial, (u16FromLeBytes_eq_iff a.toList_length).mp rfl⟩
  · obtain ⟨_, rfl⟩ := h
    refine ⟨⟨le16 n, le16_length n⟩, [], trivial, ⟨?_, rfl⟩, (List.append_nil _).symm⟩
    exact ((u16FromLeBytes_eq_iff (le16_length n)).mpr rfl).symm

theorem reads_u32Le (what : String) :
    Wire.Reads (u32Le what) (fun n x => True ∧ x = le32 n) := by
  refine ((reads_array 4 what).field fun a _ => Wire.Reads.pure (u32FromLeBytes a.toList)).congr ?_
  intro n x
  refine ⟨fun h => ?_, fun h => ?_⟩
  · obtain ⟨a, _, _, ⟨rfl, rfl⟩, rfl⟩ := h
    rw [List.append_nil]
    exact ⟨trivial, (u32FromLeBytes_eq_iff a.toList_length).mp rfl⟩
  · obtain ⟨_, rfl⟩ := h
    refine ⟨⟨le32 n, le32_length n⟩, [], trivial, ⟨?_, rfl⟩, (List.append_nil _).symm⟩
    exact ((u32FromLeBytes_eq_iff (le32_length n)).mpr rfl).symm

/-! ## Widths -/

theorem advances_take (n : Nat) (what : String) : Wire.Advances (take n what) n :=
  Wire.Advances.of_reads (reads_take n what) fun x hx => ⟨x, hx, rfl⟩

theorem advances_array (n : Nat) (what : String) : Wire.Advances (array n what) n :=
  Wire.Advances.of_reads (reads_array n what) fun x hx => ⟨⟨x, hx⟩, trivial, rfl⟩

theorem advances_u16Le (what : String) : Wire.Advances (u16Le what) 2 :=
  Wire.Advances.of_reads (reads_u16Le what) fun x hx =>
    ⟨u16FromLeBytes x, trivial, (u16FromLeBytes_eq_iff hx).mp rfl⟩

/-! ## Every failure of a reader is a short read -/

/-- `P` holds of what a method reports when the input runs out. -/
def OfShortRead (P : Fault → Prop) : Prop :=
  ∀ (what : String) (n remaining : Nat), P (.reject ⟨.quoteParse,
    s!"{what} needs {n} bytes but only {remaining} remain"⟩)

section

variable {P : Fault → Prop} (hP : OfShortRead P)

include hP

theorem fails_take_of (n : Nat) (what : String) : Wire.Fails P (take n what) := by
  intro inp
  rw [take, rejectIf]
  split
  · exact Checks.Raises.error (hP what n inp.length)
  · rw [Checks.ok_bind, splitAt_of_le (by omega)]
    exact Checks.Raises.ok _

theorem fails_array_of (n : Nat) (what : String) : Wire.Fails P (array n what) := by
  refine Wire.Fails.bind (reads_take n what) (fails_take_of hP n what) fun bs x h => ?_
  rw [copyFromSlice_of_length h.1]
  exact Wire.Fails.lift (Checks.Raises.ok _)

theorem fails_u16Le_of (what : String) : Wire.Fails P (u16Le what) :=
  Wire.Fails.bind (reads_array 2 what) (fails_array_of hP 2 what) fun _ _ _ => Wire.Fails.pure _

theorem fails_u32Le_of (what : String) : Wire.Fails P (u32Le what) :=
  Wire.Fails.bind (reads_array 4 what) (fails_array_of hP 4 what) fun _ _ _ => Wire.Fails.pure _

end

/-- The category every reader of the quote fails with. -/
abbrev ParseFault (f : Fault) : Prop := ∃ k ∈ [ErrorCategory.quoteParse], f.category? = some k

theorem parseFault_short : OfShortRead ParseFault := fun _ _ _ =>
  ⟨.quoteParse, List.mem_singleton_self _, rfl⟩

theorem fails_take (n : Nat) (what : String) : Wire.Fails ParseFault (take n what) :=
  fails_take_of parseFault_short n what

theorem fails_array (n : Nat) (what : String) : Wire.Fails ParseFault (array n what) :=
  fails_array_of parseFault_short n what

theorem fails_u16Le (what : String) : Wire.Fails ParseFault (u16Le what) :=
  fails_u16Le_of parseFault_short what

theorem fails_u32Le (what : String) : Wire.Fails ParseFault (u32Le what) :=
  fails_u32Le_of parseFault_short what

theorem fails_check {c : Prop} [Decidable c] {d : String} :
    Wire.Fails ParseFault (check (rejectIf c ⟨.quoteParse, d⟩)) :=
  Wire.Fails.lift (RejectsIn.rejectIf (by simp))

end ByteReader

end DcapVerify
