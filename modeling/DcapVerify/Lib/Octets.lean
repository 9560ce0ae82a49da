import Mathlib.Data.Nat.Digits.Lemmas
import Mathlib.Tactic.Common

/-!
# Octet strings as numbers

Little-endian fields of a fixed width, and big-endian strings of any length.

The fixed-width encoding is a bijection onto the numbers that fit. The big-endian
value is not injective — leading zero octets do not change it — and `stripZeros`
is the exact remedy: two strings denote the same number precisely when they are
equal after stripping. Numbers and stripped strings are therefore the same thing,
which is what licenses comparing serial numbers as strings.
-/

namespace Octets

/-! ## Slices -/

/-- `len` octets from offset `off`. -/
def slice (off len : Nat) (bs : List UInt8) : List UInt8 := (bs.drop off).take len

theorem slice_append_of_le {off len : Nat} {xs ys : List UInt8} (h : xs.length ≤ off) :
    slice off len (xs ++ ys) = slice (off - xs.length) len ys := by
  rw [slice, slice, List.drop_append, List.drop_eq_nil_of_le h, List.nil_append]

theorem slice_append_self {len : Nat} {xs ys : List UInt8} (h : xs.length = len) :
    slice 0 len (xs ++ ys) = xs := by
  rw [slice, List.drop_zero, ← h, List.take_left]

theorem slice_self {len : Nat} {xs : List UInt8} (h : xs.length = len) : slice 0 len xs = xs := by
  rw [slice, List.drop_zero, ← h, List.take_length]

theorem slice_add (off m n : Nat) (bs : List UInt8) :
    slice off (m + n) bs = slice off m bs ++ slice (off + m) n bs := by
  rw [slice, slice, slice, List.take_add, List.drop_drop]

theorem slice_append_left {off len : Nat} {xs ys : List UInt8} (h : off + len ≤ xs.length) :
    slice off len (xs ++ ys) = slice off len xs := by
  rw [slice, slice, List.drop_append_of_le_length (by omega),
    List.take_append_of_le_length (by rw [List.length_drop]; omega)]

/-- A slice of a slice is a slice. -/
theorem slice_slice {off len o m : Nat} {xs : List UInt8} (h : off + len ≤ m) :
    slice off len (slice o m xs) = slice (o + off) len xs := by
  rw [slice, slice, slice, List.drop_take, List.take_take, List.drop_drop,
    Nat.min_eq_left (by omega)]

theorem exists_prefix {n m : Nat} {bs : List UInt8} (h : bs.length = n + m) :
    ∃ xs ys, bs = xs ++ ys ∧ xs.length = n ∧ ys.length = m :=
  ⟨bs.take n, bs.drop n, (List.take_append_drop n bs).symm, by simp [h], by simp [h]⟩

/-! ## Changing one octet -/

/-- A change in front of a slice is not seen in it. -/
theorem slice_set_of_lt {off len i : Nat} {v : UInt8} {xs : List UInt8} (h : i < off) :
    slice off len (xs.set i v) = slice off len xs := by
  rw [slice, slice, List.drop_set_of_lt h]

/-- Neither is a change behind it. -/
theorem slice_set_of_le {off len i : Nat} {v : UInt8} {xs : List UInt8} (h : off + len ≤ i) :
    slice off len (xs.set i v) = slice off len xs := by
  have hge : ¬ i < off := by omega
  rw [slice, slice, List.drop_set, if_neg hge, List.take_set_of_le (by omega)]

/-- A change behind a prefix of known length. -/
theorem set_append_add {n k : Nat} {v : UInt8} {xs ys : List UInt8} (h : xs.length = n) :
    (xs ++ ys).set (n + k) v = xs ++ ys.set k v := by
  rw [List.set_append_right _ _ (by omega), h, Nat.add_sub_cancel_left]

theorem getElem?_append_add {n k : Nat} {xs ys : List UInt8} (h : xs.length = n) :
    (xs ++ ys)[n + k]? = ys[k]? := by
  rw [List.getElem?_append_right (by omega), h, Nat.add_sub_cancel_left]

theorem getElem?_slice {off len j : Nat} {xs : List UInt8} (h : j < len) :
    (slice off len xs)[j]? = xs[off + j]? := by
  rw [slice, List.getElem?_take_of_lt h, List.getElem?_drop]

/-- A change inside a slice is seen in it. -/
theorem slice_set_ne {off len k : Nat} {v : UInt8} {xs : List UInt8} (hlo : off ≤ k)
    (hhi : k < off + len) (hk : k < xs.length) (hv : xs[k]? ≠ some v) :
    slice off len (xs.set k v) ≠ slice off len xs := by
  intro h
  have hget := congrArg (fun ys : List UInt8 => ys[k - off]?) h
  have hadd : off + (k - off) = k := by omega
  rw [getElem?_slice (by omega), getElem?_slice (by omega), hadd,
    List.getElem?_set_self hk] at hget
  exact hv hget.symm

theorem set_ne_self {k : Nat} {v : UInt8} {xs : List UInt8} (hk : k < xs.length)
    (hv : xs[k]? ≠ some v) : xs.set k v ≠ xs := by
  intro h
  have hget := congrArg (fun ys : List UInt8 => ys[k]?) h
  rw [List.getElem?_set_self hk] at hget
  exact hv hget.symm

/-! ## Little-endian fields -/

/-- The number a little-endian string denotes. -/
def leNat : List UInt8 → Nat
  | [] => 0
  | b :: bs => b.toNat + 256 * leNat bs

/-- The `w`-octet little-endian string of a number, truncating. -/
def leBytes : Nat → Nat → List UInt8
  | 0, _ => []
  | w + 1, n => UInt8.ofNat n :: leBytes w (n / 256)

@[simp] theorem leBytes_length (w n : Nat) : (leBytes w n).length = w := by
  induction w generalizing n with
  | zero => rfl
  | succ w ih => simp [leBytes, ih]

theorem leNat_lt (bs : List UInt8) : leNat bs < 256 ^ bs.length := by
  induction bs with
  | nil => simp [leNat]
  | cons b bs ih =>
      have hb := b.toNat_lt
      rw [leNat, List.length_cons, Nat.pow_succ]
      omega

theorem leNat_leBytes {w n : Nat} (h : n < 256 ^ w) : leNat (leBytes w n) = n := by
  induction w generalizing n with
  | zero => simp at h; simp [leBytes, leNat, h]
  | succ w ih =>
      rw [Nat.pow_succ] at h
      have hd : n / 256 < 256 ^ w := by omega
      rw [leBytes, leNat, ih hd, UInt8.toNat_ofNat']
      omega

theorem leBytes_leNat (bs : List UInt8) : leBytes bs.length (leNat bs) = bs := by
  induction bs with
  | nil => rfl
  | cons b bs ih =>
      have hb := b.toNat_lt
      have hdiv : (b.toNat + 256 * leNat bs) / 256 = leNat bs := by omega
      rw [leNat, List.length_cons, leBytes, hdiv, ih]
      congr 1
      apply UInt8.toNat_inj.mp
      rw [UInt8.toNat_ofNat']
      omega

/-- A field of width `w` holds the value exactly when it is its encoding. -/
theorem leNat_eq_iff {bs : List UInt8} {w n : Nat} (hw : bs.length = w) (hn : n < 256 ^ w) :
    leNat bs = n ↔ bs = leBytes w n := by
  refine ⟨fun h => ?_, fun h => ?_⟩
  · subst h
    rw [← hw, leBytes_leNat]
  · subst h
    exact leNat_leBytes hn

/-! ## Big-endian strings -/

/-- The unsigned number a big-endian string denotes. -/
def beNat (bs : List UInt8) : Nat := leNat bs.reverse

/-- Drop leading zero octets. -/
def stripZeros : List UInt8 → List UInt8
  | [] => []
  | b :: bs => if b = 0 then stripZeros bs else b :: bs

/-- The digits Mathlib reads off a number are the octets of its string. -/
theorem leNat_eq_ofDigits (bs : List UInt8) : leNat bs = Nat.ofDigits 256 (bs.map UInt8.toNat) := by
  induction bs with
  | nil => rfl
  | cons b bs ih => rw [leNat, List.map_cons, Nat.ofDigits_cons, ih]

theorem leNat_append (xs ys : List UInt8) :
    leNat (xs ++ ys) = leNat xs + 256 ^ xs.length * leNat ys := by
  induction xs with
  | nil => simp [leNat]
  | cons x xs ih => rw [List.cons_append, leNat, leNat, ih, List.length_cons, Nat.pow_succ]; ring

/-- A leading zero octet adds nothing. -/
theorem beNat_zero_cons (bs : List UInt8) : beNat (0 :: bs) = beNat bs := by
  simp [beNat, leNat_append, leNat]

theorem beNat_stripZeros (bs : List UInt8) : beNat (stripZeros bs) = beNat bs := by
  induction bs with
  | nil => rfl
  | cons b bs ih =>
      rw [stripZeros]
      split
      · rename_i h; rw [h, beNat_zero_cons, ih]
      · rfl

/-- What is left after stripping starts with a nonzero octet. -/
theorem stripZeros_head {bs : List UInt8} {b : UInt8} (h : (stripZeros bs).head? = some b) :
    b ≠ 0 := by
  induction bs with
  | nil => cases h
  | cons c bs ih =>
      rw [stripZeros] at h
      split at h
      · exact ih h
      · rename_i hc; cases h; exact hc

/-- A string without a leading zero is the digit string of the number it denotes. -/
theorem digits_beNat {bs : List UInt8} (h : ∀ b, bs.head? = some b → b ≠ 0) :
    Nat.digits 256 (beNat bs) = bs.reverse.map UInt8.toNat := by
  rw [beNat, leNat_eq_ofDigits]
  refine Nat.digits_ofDigits 256 (by decide) _ ?_ ?_
  · intro d hd
    obtain ⟨b, _, rfl⟩ := List.mem_map.mp hd
    exact b.toNat_lt
  · intro hne
    rw [List.getLast_map, List.getLast_reverse]
    intro h0
    have hb : bs.head (by simpa using hne) = 0 := UInt8.toNat_inj.mp h0
    exact h _ (List.head?_eq_some_head _) hb

/-- **Stripped strings are numbers**: equality after stripping is equality of value. -/
theorem stripZeros_eq_iff {xs ys : List UInt8} :
    stripZeros xs = stripZeros ys ↔ beNat xs = beNat ys := by
  refine ⟨fun h => ?_, fun h => ?_⟩
  · rw [← beNat_stripZeros xs, h, beNat_stripZeros]
  · rw [← beNat_stripZeros xs, ← beNat_stripZeros ys] at h
    have hd := congrArg (Nat.digits 256) h
    rw [digits_beNat fun _ => stripZeros_head, digits_beNat fun _ => stripZeros_head] at hd
    have hinj : Function.Injective UInt8.toNat := fun _ _ => UInt8.toNat_inj.mp
    exact List.reverse_injective (List.map_injective_iff.mpr hinj hd)

/-! ## Masks -/

/-- Two octets agree on every bit a mask selects. -/
def AgreeOn (mask a b : UInt8) : Prop :=
  ∀ j < 8, mask.toNat.testBit j = true → a.toNat.testBit j = b.toNat.testBit j

theorem and_eq_and_iff {mask a b : UInt8} : a &&& mask = b &&& mask ↔ AgreeOn mask a b := by
  rw [← UInt8.toNat_inj, UInt8.toNat_and, UInt8.toNat_and]
  refine ⟨fun h j _ hm => ?_, fun h => ?_⟩
  · have hj := congrArg (Nat.testBit · j) h
    simpa only [Nat.testBit_and, hm, Bool.and_true] using hj
  · refine Nat.eq_of_testBit_eq fun j => ?_
    rw [Nat.testBit_and, Nat.testBit_and]
    by_cases hm : mask.toNat.testBit j = true
    · have hj : j < 8 := by
        by_contra hge
        rw [Nat.testBit_lt_two_pow (mask.toNat_lt.trans_le
          (Nat.pow_le_pow_right (by decide) (Nat.not_lt.mp hge)))] at hm
        cases hm
      rw [h j hj hm]
    · rw [Bool.not_eq_true] at hm
      rw [hm, Bool.and_false, Bool.and_false]

end Octets
