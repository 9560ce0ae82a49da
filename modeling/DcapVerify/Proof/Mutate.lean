import DcapVerify.Differ.Sweep
import DcapVerify.Lib.Nesting
import DcapVerify.Lib.Total

/-!
# What a mutation can do

`mutate` divides by lengths and by the width of a range it scans for, indexes with what it
draws, and moves a time. None of this can fail: a mutation returns from every state of the
generator, and changes only what its strategy is for.

The scanner's counter is the depth of `Lib.Nesting`: one round of its loop is one symbol, so
the loop is the scan of the library, which from a positive depth never asks for a negative
one. A draw is a choice, so the rest needs only the rules of `Lib.Total`.
-/

namespace DcapVerify.Differ

open SplitMix64 Nesting Total

/-! ## The brackets of a JSON text -/

def jsonMarks : Marks UInt8 := ⟨34, 92, 91, 93, by decide⟩

/-- The loop variables in a mode, at a depth. -/
def ScanState.of (mode : Mode) (depth : Nat) : ScanState :=
  { depth, inString := mode != .outside, escaped := mode == .escaped }

theorem symbolWeight_quoted {mode : Mode} (h : mode ≠ .outside) (b : UInt8) :
    symbolWeight jsonMarks mode b = 0 := if_neg fun hc => h hc.1

/-- What a byte outside strings contributes. -/
theorem symbolWeight_outside (b : UInt8) : symbolWeight jsonMarks .outside b =
    if b = 34 then 0 else if b = 91 then 1 else if b = 93 then -1 else 0 := by
  unfold symbolWeight
  by_cases h : b = 34
  · rw [if_pos h, if_neg fun hc => hc.2 h]
  · rw [if_neg h, if_pos ⟨rfl, h⟩]
    rfl

theorem symbolWeight_le_one (mode : Mode) (b : UInt8) : symbolWeight jsonMarks mode b ≤ 1 := by
  unfold symbolWeight
  split_ifs <;> decide

/-- **One round of the loop is one symbol**, if the counter can take it. -/
theorem scanByte_of (mode : Mode) {d d' : Nat} {b : UInt8} (hlt : d + 1 < 2 ^ 64)
    (hd' : (d : Int) + symbolWeight jsonMarks mode b = d') :
    scanByte (.of mode d) b =
      .ok (.of (mode.step jsonMarks b) d', decide (d' < d ∧ d' = 0)) := by
  cases mode with
  | escaped =>
      rw [symbolWeight_quoted (by decide)] at hd'
      obtain rfl : d = d' := by omega
      simp [scanByte, ScanState.of, Mode.step]
      decide
  | inside =>
      rw [symbolWeight_quoted (by decide)] at hd'
      obtain rfl : d = d' := by omega
      by_cases hesc : b = 92
      · subst hesc
        simp [scanByte, ScanState.of, Mode.step, jsonMarks]
        decide
      · by_cases hquote : b = 34
        · subst hquote
          simp [scanByte, ScanState.of, Mode.step, jsonMarks]
        · simp [scanByte, ScanState.of, Mode.step, jsonMarks, hesc, hquote]
  | outside =>
      rw [symbolWeight_outside] at hd'
      by_cases hquote : b = 34
      · subst hquote
        obtain rfl : d = d' := by simpa using hd'
        simp [scanByte, ScanState.of, Mode.step, jsonMarks]
      · by_cases hopen : b = 91
        · subst hopen
          obtain rfl : d + 1 = d' := by
            simp at hd'
            omega
          simp [scanByte, ScanState.of, Mode.step, jsonMarks, usize_of_lt hlt]
        · by_cases hclose : b = 93
          · subst hclose
            obtain rfl : d = d' + 1 := by
              simp at hd'
              omega
            simp [scanByte, ScanState.of, Mode.step, jsonMarks, usizeSub]
            rfl
          · rw [if_neg hquote, if_neg hopen, if_neg hclose] at hd'
            obtain rfl : d = d' := by omega
            simp [scanByte, ScanState.of, Mode.step, jsonMarks, hquote, hopen, hclose]

/-- **The loop is the scan**: the counter is never asked to go below zero. -/
theorem scan_eq (json : Bytes) (hlen : json.length < 2 ^ 64) (start left : Nat) :
    ∀ {mode : Mode} {d i : Nat}, 0 < d → d ≤ i → i + left = json.length →
      scan json start i (.of mode d) left =
        .ok ((Nesting.scan jsonMarks mode d (json.drop i)).map fun n => (start, i + n + 1)) := by
  induction left with
  | zero =>
      intro mode d i _ _ hi
      rw [List.drop_of_length_le (by omega)]
      rfl
  | succ left ih =>
      intro mode d i hpos hdi hi
      have hlt : i < json.length := by omega
      have hle := symbolWeight_le_one mode json[i]
      have hge := neg_one_le_symbolWeight jsonMarks mode json[i]
      obtain ⟨d', hd'⟩ : ∃ d' : Nat, (d : Int) + symbolWeight jsonMarks mode json[i] = d' :=
        ⟨((d : Int) + symbolWeight jsonMarks mode json[i]).toNat, by omega⟩
      have hbyte : index json i = .ok json[i] := index_eq_ok.mpr (List.getElem?_eq_getElem hlt)
      rw [scan, hbyte, List.drop_eq_getElem_cons hlt, Nesting.scan]
      simp only [Checks.ok_bind, scanByte_of mode (by omega) hd',
        usize_of_lt (by omega : i + 1 < _), hd']
      by_cases hzero : d' = 0
      · subst hzero
        simp [hpos]
      · have hne : (d' : Int) ≠ 0 := by omega
        rw [if_neg (by simp [hzero]), if_neg hne, Int.toNat_natCast,
          ih (by omega) (by omega) (by omega), Option.map_map]
        congr 2
        funext n
        simp
        omega

theorem windowPosition_le {needle json : Bytes} {start : Nat}
    (h : windowPosition needle json = some start) : start + needle.length ≤ json.length := by
  obtain ⟨hstart, hprefix, -⟩ := List.findIdx?_eq_some_iff_getElem.mp h
  rw [List.getElem_tails, List.isPrefixOf_iff_prefix] at hprefix
  have hle := hprefix.length_le
  rw [List.length_tails] at hstart
  rw [List.length_drop] at hle
  omega

/-- The search stops at an opening bracket or at the end. -/
theorem findOpen_eq_ok (json : Bytes) (hlen : json.length < 2 ^ 64) (left : Nat) :
    ∀ {i : Nat}, i + left = json.length →
      ∃ j, findOpen json i left = .ok j ∧ i ≤ j ∧
        (j = json.length ∨ ∃ h : j < json.length, json[j] = 91) := by
  induction left with
  | zero =>
      intro i hi
      exact ⟨i, rfl, Nat.le_refl i, .inl hi⟩
  | succ left ih =>
      intro i hi
      have hlt : i < json.length := by omega
      have hbyte : index json i = .ok json[i] := index_eq_ok.mpr (List.getElem?_eq_getElem hlt)
      rw [findOpen, hbyte]
      by_cases hopen : json[i] = 91
      · exact ⟨i, by simp [hopen], Nat.le_refl i, .inr ⟨hlt, hopen⟩⟩
      · obtain ⟨j, hj, hij, hstop⟩ := ih (i := i + 1) (by omega)
        refine ⟨j, ?_, by omega, hstop⟩
        simp [hopen, usize_of_lt (by omega : i + 1 < _), hj]

/-- `lo..hi` is an opening bracket up to the bracket that closes it. -/
structure Bracketed (json : Bytes) (lo hi : Nat) : Prop where
  lt : lo < hi
  le : hi ≤ json.length
  opening : json[lo]? = some 91
  closing : json[hi - 1]? = some 93
  closes : ClosesAt jsonMarks (json.drop lo) (hi - 1 - lo)

/-- **From an opening bracket the loop finds the bracket that closes it.** -/
theorem scan_open {json : Bytes} (hlen : json.length < 2 ^ 64) {lo : Nat}
    (hlo : lo < json.length) (hopen : json[lo] = 91) :
    ∃ range, scan json lo lo {} (json.length - lo) = .ok range ∧
      ∀ r ∈ range, r.1 = lo ∧ Bracketed json lo r.2 := by
  have hdrop : json.drop lo = 91 :: json.drop (lo + 1) := by
    rw [List.drop_eq_getElem_cons hlo, hopen]
  have hbyte : index json lo = .ok 91 := by
    rw [index_eq_ok, List.getElem?_eq_getElem hlo, hopen]
  have hleft : json.length - lo = (json.length - (lo + 1)) + 1 := by omega
  have hfirst : scanByte {} 91 = .ok (.of .outside 1, false) := rfl
  refine ⟨(Nesting.scan jsonMarks .outside 1 (json.drop (lo + 1))).map
    fun n => (lo, lo + 1 + n + 1), ?_, ?_⟩
  · rw [hleft, scan, hbyte]
    simp only [Checks.ok_bind, hfirst, usize_of_lt (by omega : lo + 1 < _)]
    exact scan_eq json hlen lo _ (by omega) (by omega) (by omega)
  · intro r hr
    obtain ⟨n, hn, rfl⟩ := Option.map_eq_some_iff.mp hr
    have hcloses : ClosesAt jsonMarks (json.drop lo) (n + 1) := by
      rw [hdrop]
      exact (closesAt_cons_iff (by decide)).mpr hn
    have hclosing := scan_getElem? (by omega) hn
    have hlt := hcloses.lt
    rw [List.getElem?_drop] at hclosing
    rw [List.length_drop] at hlt
    have hhi : lo + 1 + n + 1 - 1 = lo + 1 + n := by omega
    refine ⟨rfl, ⟨?_, ?_, ?_, ?_, ?_⟩⟩
    · show lo < lo + 1 + n + 1
      omega
    · show lo + 1 + n + 1 ≤ json.length
      omega
    · rw [List.getElem?_eq_getElem hlo, hopen]
    · rw [hhi]
      exact hclosing
    · rw [hhi, show lo + 1 + n - lo = n + 1 by omega]
      exact hcloses

/-- **The scanner never fails, and a range it returns is an array.** -/
theorem tcbLevelsRange_returns {json : Bytes} (hlen : json.length < 2 ^ 64) :
    ∃ range, tcbLevelsRange json = .ok range ∧ ∀ r ∈ range, Bracketed json r.1 r.2 := by
  unfold tcbLevelsRange
  cases hstart : windowPosition tcbLevelsKey json with
  | none => exact ⟨none, rfl, fun r hr => by cases hr⟩
  | some start =>
      have hle := windowPosition_le hstart
      have husize : usize (start + tcbLevelsKey.length) = .ok (start + tcbLevelsKey.length) :=
        usize_of_lt (by omega)
      obtain ⟨lo, hlo, -, hstop⟩ := findOpen_eq_ok json hlen
        (json.length - (start + tcbLevelsKey.length)) (i := start + tcbLevelsKey.length) (by omega)
      simp only [husize, Checks.ok_bind, hlo]
      rcases hstop with hend | ⟨hlt, hopen⟩
      · rw [hend, Nat.sub_self]
        exact ⟨none, rfl, fun r hr => by cases hr⟩
      · obtain ⟨range, hrange, hspec⟩ := scan_open hlen hlt hopen
        refine ⟨range, hrange, fun r hr => ?_⟩
        obtain ⟨rfl, hbracketed⟩ := hspec r hr
        exact hbracketed

/-! ## Draws -/

theorem next_returns : Returns (fun _ => True) next := fun _ => ⟨_, _, rfl, trivial⟩

theorem below_returns {n : UInt64} (hn : n ≠ 0) :
    Returns (fun x => x.toNat < n.toNat) (below n) := by
  refine Returns.bind next_returns fun x _ => ?_
  rw [if_neg hn]
  refine Returns.pure ?_
  rw [UInt64.toNat_mod]
  exact Nat.mod_lt _ (Nat.pos_of_ne_zero fun h => hn (UInt64.toNat_inj.mp h))

/-- A draw below a width. -/
theorem below_ofNat_returns {n : Nat} (hpos : 0 < n) (hlt : n < 2 ^ 64) :
    Returns (fun x => x.toNat < n) (below (UInt64.ofNat n)) := by
  have hn : (UInt64.ofNat n).toNat = n := UInt64.toNat_ofNat_of_lt' hlt
  have hne : UInt64.ofNat n ≠ 0 := by
    intro h
    rw [h] at hn
    exact absurd hn.symm (Nat.ne_of_gt hpos)
  refine (below_returns hne).mono fun x hx => ?_
  rwa [hn] at hx

/-! ## Bit flips -/

/-- Two buffers of one length that agree outside `lo..hi`. -/
structure SameOutside (lo hi : Nat) (xs ys : Bytes) : Prop where
  length : ys.length = xs.length
  eq : ∀ i, ¬(lo ≤ i ∧ i < hi) → ys[i]? = xs[i]?

namespace SameOutside

theorem refl (lo hi : Nat) (xs : Bytes) : SameOutside lo hi xs xs := ⟨rfl, fun _ _ => rfl⟩

theorem trans {lo hi : Nat} {xs ys zs : Bytes} (h : SameOutside lo hi xs ys)
    (h' : SameOutside lo hi ys zs) : SameOutside lo hi xs zs :=
  ⟨h'.length.trans h.length, fun i hi => (h'.eq i hi).trans (h.eq i hi)⟩

theorem set {lo hi i : Nat} (hlo : lo ≤ i) (hhi : i < hi) (xs : Bytes) (b : UInt8) :
    SameOutside lo hi xs (xs.set i b) := by
  refine ⟨List.length_set, fun j hj => ?_⟩
  rw [List.getElem?_set_ne]
  rintro rfl
  exact hj ⟨hlo, hhi⟩

end SameOutside

/-- **A flip stays in its range.** -/
theorem flipBit_returns {data : Bytes} {lo hi : Nat} (hlt : lo < hi) (hhi : hi ≤ data.length)
    (hlen : data.length ≤ addressSpace) :
    Returns (fun r => SameOutside lo hi data r.2) (flipBit data (lo * 8) (hi * 8)) := by
  unfold addressSpace at hlen
  refine Returns.lift_bind (usizeSub_of_le (by omega)) ?_
  refine Returns.bind (below_ofNat_returns (by omega) (by omega)) fun offset hoffset => ?_
  refine Returns.lift_bind (usize_of_lt (by omega)) ?_
  have hbyte : (lo * 8 + offset.toNat) / 8 < data.length := by omega
  refine Returns.lift_bind (index_eq_ok.mpr (List.getElem?_eq_getElem hbyte)) ?_
  exact Returns.pure (SameOutside.set (by omega) (by omega) data _)

theorem flipBits_returns {lo hi : Nat} (hlt : lo < hi) (count : Nat) : ∀ {data : Bytes},
    hi ≤ data.length → data.length ≤ addressSpace →
      Returns (fun r => SameOutside lo hi data r.2) (flipBits (lo * 8) (hi * 8) count data) := by
  induction count with
  | zero =>
      intro data _ _
      exact Returns.pure (SameOutside.refl lo hi data)
  | succ count ih =>
      intro data hhi hlen
      refine Returns.bind (flipBit_returns hlt hhi hlen) ?_
      rintro ⟨bit, data'⟩ hone
      have hlength : data'.length = data.length := hone.length
      refine Returns.bind (ih (by omega) (by omega)) ?_
      rintro ⟨positions, data''⟩ hrest
      exact Returns.pure (hone.trans hrest)

theorem flipRandomBits_returns {data : Bytes} {lo hi : Nat} (hlt : lo < hi)
    (hhi : hi ≤ data.length) (hlen : data.length ≤ addressSpace) :
    Returns (fun r => SameOutside lo hi data r.2) (flipRandomBits data lo hi) := by
  have hspace : data.length ≤ 2 ^ 57 := hlen
  refine Returns.bind (below_returns (by decide)) fun extra _ => ?_
  refine Returns.lift_bind (usize_of_lt (by omega)) ?_
  refine Returns.lift_bind (usize_of_lt (by omega)) ?_
  refine Returns.bind (flipBits_returns hlt _ hhi hlen) ?_
  rintro ⟨positions, data'⟩ hsame
  exact Returns.pure hsame

/-! ## Truncating and overwriting -/

theorem truncate_returns {data : Bytes} (hne : data ≠ []) (hlen : data.length ≤ addressSpace) :
    Returns (fun r => r.2.length ≤ data.length) (truncate data) := by
  unfold addressSpace at hlen
  have hpos := List.length_pos_iff.mpr hne
  refine Returns.bind (below_ofNat_returns hpos (by omega)) fun newLen _ => ?_
  exact Returns.pure (List.length_take_le' _ _)

theorem overwriteSlots_returns (data : Bytes) : ∀ (offset count : Nat),
    Returns (fun data' => data'.length = data.length) (overwriteSlots offset count data) := by
  induction data with
  | nil =>
      intro offset count
      cases offset <;> cases count <;> exact Returns.pure rfl
  | cons slot data ih =>
      intro offset count
      cases offset with
      | succ offset =>
          refine Returns.bind (ih offset count) fun data' h => ?_
          exact Returns.pure (congrArg (· + 1) h)
      | zero =>
          cases count with
          | zero => exact Returns.pure rfl
          | succ count =>
              refine Returns.bind next_returns fun drawn _ => ?_
              refine Returns.bind (ih 0 count) fun data' h => ?_
              exact Returns.pure (congrArg (· + 1) h)

theorem overwriteRegion_returns {data : Bytes} (hlen : data.length ≤ addressSpace) :
    Returns (fun r => r.2.length = data.length) (overwriteRegion data) := by
  unfold addressSpace at hlen
  refine Returns.bind (below_returns (by decide)) fun extra _ => ?_
  refine Returns.lift_bind (usizeSub_of_le (by omega)) ?_
  refine Returns.lift_bind (usize_of_lt (by omega)) ?_
  refine Returns.bind (below_ofNat_returns (by omega) (by omega)) fun offset _ => ?_
  refine Returns.bind (overwriteSlots_returns data _ _) fun data' h => ?_
  exact Returns.pure h

/-! ## Strategies -/

theorem mutateQuote_returns {quote : Bytes} (hne : quote ≠ []) (hlen : quote.length ≤ addressSpace)
    {strategy : UInt64} (h : strategy ≤ 3) :
    Returns (fun r => r.2.length ≤ quote.length) (mutateQuote quote strategy) := by
  have hpos := List.length_pos_iff.mpr hne
  have hcases : strategy = 0 ∨ strategy = 1 ∨ strategy = 2 ∨ strategy = 3 := by grind
  rcases hcases with rfl | rfl | rfl | rfl
  · refine Returns.bind (flipRandomBits_returns hpos (Nat.le_refl _) hlen) ?_
    rintro ⟨desc, data⟩ hsame
    exact Returns.pure (Nat.le_of_eq hsame.length)
  · refine Returns.bind (truncate_returns hne hlen) ?_
    rintro ⟨desc, data⟩ hle
    exact Returns.pure hle
  · refine Returns.bind (overwriteRegion_returns hlen) ?_
    rintro ⟨desc, data⟩ hlength
    exact Returns.pure (Nat.le_of_eq hlength)
  · refine Returns.bind (flipRandomBits_returns (by omega) (Nat.le_refl _) hlen) ?_
    rintro ⟨desc, data⟩ hsame
    exact Returns.pure (Nat.le_of_eq hsame.length)

/-- The flips of strategy 6 stay in the range it finds. -/
def InLevels (strategy : UInt64) (collateral mutated : Bytes) : Prop :=
  strategy = 6 → ∀ lo hi, tcbLevelsRange collateral = .ok (some (lo, hi)) →
    SameOutside lo hi collateral mutated

theorem mutateCollateral_returns {collateral : Bytes} (hne : collateral ≠ [])
    (hlen : collateral.length ≤ addressSpace) {strategy : UInt64} (hlo : 4 ≤ strategy)
    (hhi : strategy ≤ 6) :
    Returns (fun r => r.2.length ≤ collateral.length ∧ InLevels strategy collateral r.2)
      (mutateCollateral collateral strategy) := by
  have hpos := List.length_pos_iff.mpr hne
  have hcases : strategy = 4 ∨ strategy = 5 ∨ strategy = 6 := by grind
  rcases hcases with rfl | rfl | rfl
  · refine Returns.bind (flipRandomBits_returns hpos (Nat.le_refl _) hlen) ?_
    rintro ⟨desc, data⟩ hsame
    exact Returns.pure ⟨Nat.le_of_eq hsame.length, fun h => absurd h (by decide)⟩
  · refine Returns.bind (truncate_returns hne hlen) ?_
    rintro ⟨desc, data⟩ hle
    exact Returns.pure ⟨hle, fun h => absurd h (by decide)⟩
  · have hspace : collateral.length ≤ 2 ^ 57 := hlen
    have hlt : collateral.length < 2 ^ 64 := by omega
    obtain ⟨range, hrange, hspec⟩ := tcbLevelsRange_returns hlt
    refine Returns.lift_bind hrange ?_
    rcases range with _ | ⟨lo, hi⟩
    · refine Returns.bind (flipRandomBits_returns hpos (Nat.le_refl _) hlen) ?_
      rintro ⟨desc, data⟩ hsame
      refine Returns.pure ⟨Nat.le_of_eq hsame.length, fun _ lo hi hfound => ?_⟩
      rw [hrange] at hfound
      cases hfound
    · have hbracketed := hspec (lo, hi) rfl
      refine Returns.bind (flipRandomBits_returns hbracketed.lt hbracketed.le hlen) ?_
      rintro ⟨desc, data⟩ hsame
      refine Returns.pure ⟨Nat.le_of_eq hsame.length, fun _ lo' hi' hfound => ?_⟩
      rw [hrange] at hfound
      cases hfound
      exact hsame

/-- A time that can be moved three years either way. -/
def CanJitter (time : Int64) : Prop :=
  -(2 ^ 63) + (threeYearsSecs.toNat : Int) ≤ time.toInt ∧
    time.toInt + (threeYearsSecs.toNat : Int) < 2 ^ 63

/-- What a strategy may do to a base case. -/
structure Confined (base : BaseCase) (strategy : UInt64) (mutated : MutatedCase) : Prop where
  quote_le : mutated.quote.length ≤ base.quote.length
  collateral_le : mutated.collateral.length ≤ base.collateral.length
  quote_eq : 4 ≤ strategy → strategy ≤ 7 → mutated.quote = base.quote
  collateral_eq : strategy ≤ 3 ∨ strategy = 7 → mutated.collateral = base.collateral
  time_eq : strategy ≠ 7 → mutated.currentTime = base.currentTime
  time_near : (mutated.currentTime.toInt - base.currentTime.toInt).natAbs ≤ threeYearsSecs.toNat
  inLevels : InLevels strategy base.collateral mutated.collateral

theorem toInt64_toInt {x : UInt64} (h : x.toNat < 2 ^ 63) : x.toInt64.toInt = x.toNat := by
  have hx : x.toInt64 = Int64.ofNat x.toNat := by
    rw [← UInt64.toInt64_ofNat', UInt64.ofNat_toNat]
  rw [hx, Int64.toInt_ofNat_of_lt h]

theorem jitter_ok {jitter : UInt64} (h : jitter.toNat < (2 * threeYearsSecs + 1).toNat) :
    ∃ delta, i64 (jitter.toInt64.toInt - threeYearsSecs.toInt64.toInt) = .ok delta ∧
      delta.toInt.natAbs ≤ threeYearsSecs.toNat := by
  have hyears : threeYearsSecs.toNat = 94608000 := by decide
  have hyearsInt : threeYearsSecs.toInt64.toInt = 94608000 := by decide
  have hwidth : (2 * threeYearsSecs + 1).toNat = 189216001 := by decide
  rw [hwidth] at h
  rw [toInt64_toInt (by omega), hyearsInt, hyears]
  refine ⟨_, i64_of_mem (by omega) (by omega), ?_⟩
  rw [Int64.toInt_ofInt_of_le (by omega) (by omega)]
  omega

theorem jittered_ok {time delta : Int64} (htime : CanJitter time)
    (hdelta : delta.toInt.natAbs ≤ threeYearsSecs.toNat) :
    ∃ time', i64 (time.toInt + delta.toInt) = .ok time' ∧
      (time'.toInt - time.toInt).natAbs ≤ threeYearsSecs.toNat := by
  obtain ⟨hlo, hhi⟩ := htime
  refine ⟨_, i64_of_mem (by omega) (by omega), ?_⟩
  rw [Int64.toInt_ofInt_of_le (by omega) (by omega)]
  omega

section

variable {base : BaseCase} {strategy : UInt64}

theorem time_still (base : BaseCase) :
    (base.currentTime.toInt - base.currentTime.toInt).natAbs ≤ threeYearsSecs.toNat := by
  rw [Int.sub_self]
  exact Nat.zero_le _

theorem mutate_quote_returns (hquote : base.quote ≠ []) (h : strategy ≤ 3) :
    Returns (Confined base strategy) (mutate base strategy) := by
  unfold mutate
  rw [if_pos h]
  refine Returns.bind (mutateQuote_returns hquote base.inMemory.1 h) ?_
  rintro ⟨desc, quote⟩ hle
  refine Returns.pure ⟨hle, Nat.le_refl _, fun _ _ => ?_, fun _ => rfl, fun _ => rfl,
    time_still base, fun _ => ?_⟩
  · grind
  · grind

theorem mutate_collateral_returns (hcollateral : base.collateral ≠ []) (hlo : 4 ≤ strategy)
    (hhi : strategy ≤ 6) : Returns (Confined base strategy) (mutate base strategy) := by
  unfold mutate
  rw [if_neg (by grind), if_pos hhi]
  refine Returns.bind (mutateCollateral_returns hcollateral base.inMemory.2 hlo hhi) ?_
  rintro ⟨desc, collateral⟩ ⟨hle, hlevels⟩
  refine Returns.pure ⟨Nat.le_refl _, hle, fun _ _ => rfl, fun _ => ?_, fun _ => rfl,
    time_still base, hlevels⟩
  grind

theorem mutate_time_returns (htime : CanJitter base.currentTime) :
    Returns (Confined base 7) (mutate base 7) := by
  refine Returns.bind (below_returns (by decide)) fun jitter hjitter => ?_
  obtain ⟨delta, hdelta, hnear⟩ := jitter_ok hjitter
  obtain ⟨time, hjittered, htimeNear⟩ := jittered_ok htime hnear
  refine Returns.lift_bind hdelta (Returns.lift_bind hjittered ?_)
  exact Returns.pure ⟨Nat.le_refl _, Nat.le_refl _, fun _ _ => rfl, fun _ => rfl,
    fun hne => absurd rfl hne, htimeNear, fun h6 => absurd h6 (by decide)⟩

/-- Both buffers are mutated, each by a strategy of its own. -/
theorem mutate_both_returns (hquote : base.quote ≠ []) (hcollateral : base.collateral ≠ []) :
    Returns (Confined base 8) (mutate base 8) := by
  refine Returns.bind (below_returns (by decide)) fun quoteStrategy hquoteStrategy => ?_
  refine Returns.bind (below_returns (by decide)) fun collateralStrategy hcollStrategy => ?_
  replace hquoteStrategy : quoteStrategy < 4 := UInt64.lt_iff_toNat_lt.mpr hquoteStrategy
  replace hcollStrategy : collateralStrategy < 3 := UInt64.lt_iff_toNat_lt.mpr hcollStrategy
  refine Returns.bind (mutateQuote_returns hquote base.inMemory.1 (by grind)) ?_
  rintro ⟨quoteDesc, quote⟩ hquoteLe
  refine Returns.bind
    (mutateCollateral_returns hcollateral base.inMemory.2 (by grind) (by grind)) ?_
  rintro ⟨collateralDesc, collateral⟩ ⟨hcollateralLe, -⟩
  exact Returns.pure ⟨hquoteLe, hcollateralLe, fun _ h7 => absurd h7 (by decide),
    fun h37 => absurd h37 (by decide), fun _ => rfl, time_still base,
    fun h6 => absurd h6 (by decide)⟩

/-- **Every strategy returns, and does to the base what it may.** -/
theorem mutate_returns (hquote : base.quote ≠ []) (hcollateral : base.collateral ≠ [])
    (htime : CanJitter base.currentTime) (h : strategy ≤ 8) :
    Returns (Confined base strategy) (mutate base strategy) := by
  have hcases : strategy ≤ 3 ∨ (4 ≤ strategy ∧ strategy ≤ 6) ∨ strategy = 7 ∨ strategy = 8 := by
    grind
  rcases hcases with hq | ⟨hlo, hhi⟩ | rfl | rfl
  · exact mutate_quote_returns hquote hq
  · exact mutate_collateral_returns hcollateral hlo hhi
  · exact mutate_time_returns htime
  · exact mutate_both_returns hquote hcollateral

end

/--
**Mutation is total and confined.**

The scanner fails on no buffer, the length of a buffer being a `usize`, and what it returns is
an array up to the bracket that closes it. From every state of the generator every strategy
returns, grows neither buffer, and touches only what it is for.
-/
theorem mutation_total_confined :
    (∀ json : Bytes, json.length < 2 ^ 64 →
      ∃ range, tcbLevelsRange json = .ok range ∧
        ∀ lo hi, range = some (lo, hi) → Bracketed json lo hi) ∧
    ∀ base : BaseCase, base.quote ≠ [] → base.collateral ≠ [] → CanJitter base.currentTime →
      ∀ strategy ≤ 8, ∀ rng, ∃ mutated rng',
        mutate base strategy rng = .ok (mutated, rng') ∧ Confined base strategy mutated := by
  constructor
  · intro json hlen
    obtain ⟨range, hrange, hspec⟩ := tcbLevelsRange_returns hlen
    exact ⟨range, hrange, fun lo hi h => hspec (lo, hi) h⟩
  · intro base hquote hcollateral htime strategy h rng
    exact mutate_returns hquote hcollateral htime h rng

def quotedBrackets : Bytes := asBytes "\x7b\"tcbLevels\": [\"]\\\"]\", []], 0\x7d"

def quotedBase : BaseCase := ⟨"quoted", [0, 0], quotedBrackets, 0, by decide +kernel⟩

/-- Quoted brackets do not end the array. -/
theorem quoted_brackets_skipped :
    (∃ range, tcbLevelsRange quotedBrackets = .ok range ∧
      ∀ lo hi, range = some (lo, hi) → Bracketed quotedBrackets lo hi) ∧
    tcbLevelsRange quotedBrackets = .ok (some (14, 26)) ∧
    ∃ mutated rng', mutate quotedBase 6 (SplitMix64.new 0) = .ok (mutated, rng') ∧
      Confined quotedBase 6 mutated :=
  ⟨mutation_total_confined.1 quotedBrackets (by decide +kernel), by decide +kernel,
    mutation_total_confined.2 quotedBase (List.cons_ne_nil _ _) (by decide +kernel)
      ⟨by decide, by decide⟩ 6 (by decide) (SplitMix64.new 0)⟩

end DcapVerify.Differ
