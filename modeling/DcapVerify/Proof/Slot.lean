import DcapVerify.Proof.Corpus

/-!
# Mutations inside a document

The sweep looks for the TCB levels in the whole collateral, without parsing it. In a spliced
file they are those of the TCB info: the strings before it do not end in the key, so it comes
first in the document, and an array ends where its own bytes say. The generator is asked for
the same choices as for the document alone, so mutating the file is splicing the mutated
document.
-/

namespace DcapVerify.Differ

open SplitMix64 Nesting Total Quoted

/-! ## The range -/

/-- The first opening bracket from `i` on. -/
structure FirstOpen (json : Bytes) (i lo : Nat) : Prop where
  le : i ≤ lo
  opening : json[lo]? = some 91
  first : ∀ k, i ≤ k → k < lo → json[k]? ≠ some 91

theorem findOpen_eq_ok_iff {json : Bytes} (hlen : json.length < 2 ^ 64) {lo : Nat}
    (hlo : lo < json.length) (left : Nat) : ∀ {i : Nat}, i + left = json.length →
      (findOpen json i left = .ok lo ↔ FirstOpen json i lo) := by
  induction left with
  | zero =>
      intro i hi
      refine ⟨fun h => ?_, fun h => ?_⟩
      · cases h
        omega
      · have hle := h.le
        omega
  | succ left ih =>
      intro i hi
      have hlt : i < json.length := by omega
      have hget : json[i]? = some json[i] := List.getElem?_eq_getElem hlt
      have hbyte : index json i = .ok json[i] := index_eq_ok.mpr hget
      rw [findOpen, hbyte, Checks.ok_bind]
      by_cases hopen : json[i] = 91
      · rw [hopen, if_neg (by decide)]
        refine ⟨fun h => ?_, fun h => ?_⟩
        · cases h
          exact ⟨Nat.le_refl _, by rw [hget, hopen], fun k hk hk' => by omega⟩
        · by_cases heq : i = lo
          · rw [heq]
          · exact absurd (by rw [hget, hopen]) (h.first i (Nat.le_refl i) (by have := h.le; omega))
      · rw [if_pos (by simpa using hopen), usize_of_lt (by omega), Checks.ok_bind, ih (by omega)]
        refine ⟨fun h => ⟨Nat.le_of_succ_le h.le, h.opening, fun k hk hk' => ?_⟩, fun h => ?_⟩
        · by_cases heq : i = k
          · subst heq
            rw [hget]
            exact fun hsome => hopen (Option.some.inj hsome)
          · exact h.first k (by omega) hk'
        · have hne : i ≠ lo := by
            rintro rfl
            have hsome := h.opening
            rw [hget] at hsome
            exact hopen (Option.some.inj hsome)
          have hle := h.le
          exact ⟨by omega, h.opening, fun k hk hk' => h.first k (by omega) hk'⟩

theorem scan_open_eq {json : Bytes} (hlen : json.length < 2 ^ 64) {lo : Nat}
    (hopen : json[lo]? = some 91) :
    scan json lo lo {} (json.length - lo) =
      .ok ((Nesting.scan jsonMarks .outside 1 (json.drop (lo + 1))).map
        fun n => (lo, lo + 1 + n + 1)) := by
  obtain ⟨hlo, -⟩ := List.getElem?_eq_some_iff.mp hopen
  have hleft : json.length - lo = (json.length - (lo + 1)) + 1 := by omega
  have hfirst : scanByte {} 91 = .ok (.of .outside 1, false) := rfl
  rw [hleft, scan, index_eq_ok.mpr hopen]
  simp only [Checks.ok_bind, hfirst, usize_of_lt (by omega : lo + 1 < _)]
  exact scan_eq json hlen lo _ (by omega) (by omega) (by omega)

/-- **The range** of a text: from the first bracket after the first key. -/
theorem tcbLevelsRange_eq_some_iff {json : Bytes} (hlen : json.length < 2 ^ 64) {lo hi : Nat} :
    tcbLevelsRange json = .ok (some (lo, hi)) ↔
      ∃ start, windowPosition tcbLevelsKey json = some start ∧
        FirstOpen json (start + tcbLevelsKey.length) lo ∧
        ∃ n, Nesting.scan jsonMarks .outside 1 (json.drop (lo + 1)) = some n ∧
          lo + 1 + n + 1 = hi := by
  unfold tcbLevelsRange
  cases hstart : windowPosition tcbLevelsKey json with
  | none => simp
  | some start =>
      have hle := windowPosition_le hstart
      have husize : usize (start + tcbLevelsKey.length) = .ok (start + tcbLevelsKey.length) :=
        usize_of_lt (by omega)
      obtain ⟨j, hj, -, hstop⟩ := findOpen_eq_ok json hlen
        (json.length - (start + tcbLevelsKey.length)) (i := start + tcbLevelsKey.length) (by omega)
      have hopen {lo : Nat} (hlo : lo < json.length) :
          j = lo ↔ FirstOpen json (start + tcbLevelsKey.length) lo := by
        have hi : start + tcbLevelsKey.length +
            (json.length - (start + tcbLevelsKey.length)) = json.length := by omega
        rw [← findOpen_eq_ok_iff hlen hlo _ hi, hj, Except.ok.injEq]
      simp only [husize, Checks.ok_bind, hj, Option.some.injEq, exists_eq_left']
      refine ⟨fun h => ?_, ?_⟩
      · rcases hstop with rfl | ⟨hlt, hbracket⟩
        · rw [Nat.sub_self] at h
          cases h
        · have hget : json[j]? = some 91 := by rw [List.getElem?_eq_getElem hlt, hbracket]
          rw [scan_open_eq hlen hget, Except.ok.injEq, Option.map_eq_some_iff] at h
          obtain ⟨n, hn, hpair⟩ := h
          cases hpair
          exact ⟨(hopen hlt).mp rfl, n, hn, rfl⟩
      · rintro ⟨hfirst, n, hn, rfl⟩
        obtain ⟨hlt, -⟩ := List.getElem?_eq_some_iff.mp hfirst.opening
        obtain rfl := (hopen hlt).mpr hfirst
        rw [scan_open_eq hlen hfirst.opening, hn]
        rfl

/-- The key the sweep looks for. -/
theorem tcbLevelsKey_eq : tcbLevelsKey = token 34 (ascii "tcbLevels".toList) := by decide +kernel

theorem plain_tcbLevels : Plain "tcbLevels".toList := by decide +kernel

/-- **After a colon, the range of a document is where it was in the document.** -/
theorem tcbLevelsRange_append {before raw after : Bytes}
    (hbefore : Avoids 34 (ascii "tcbLevels".toList) before)
    (hlen : (before ++ 58 :: (raw ++ after)).length < 2 ^ 64) {lo hi : Nat}
    (h : tcbLevelsRange raw = .ok (some (lo, hi))) :
    tcbLevelsRange (before ++ 58 :: (raw ++ after)) =
      .ok (some (before.length + 1 + lo, before.length + 1 + hi)) := by
  have hlength : (before ++ 58 :: (raw ++ after)).length =
      before.length + 1 + (raw.length + after.length) := by
    rw [List.length_append, List.length_cons, List.length_append]
    omega
  have hdrop (n : Nat) : (before ++ 58 :: (raw ++ after)).drop (before.length + 1 + n) =
      (raw ++ after).drop n := by
    rw [Nat.add_assoc, ← List.drop_drop, List.drop_left, Nat.add_comm 1 n, List.drop_succ_cons]
  have hget {n : Nat} (hn : n < raw.length) :
      (before ++ 58 :: (raw ++ after))[before.length + 1 + n]? = raw[n]? := by
    rw [← List.getElem?_drop, hdrop 0, List.drop_zero, List.getElem?_append_left hn]
  obtain ⟨start, hstart, hfirst, n, hn, rfl⟩ := (tcbLevelsRange_eq_some_iff (by omega)).mp h
  obtain ⟨hlo, -⟩ := List.getElem?_eq_some_iff.mp hfirst.opening
  refine (tcbLevelsRange_eq_some_iff hlen).mpr
    ⟨before.length + 1 + start, ?_, ⟨?_, ?_, ?_⟩, n, ?_, ?_⟩
  · rw [tcbLevelsKey_eq] at hstart ⊢
    obtain ⟨pre, post, rfl, rfl, havoid⟩ := split_of_findIdx?_token hstart
    have hwhole : Avoids 34 (ascii "tcbLevels".toList) (before ++ 58 :: (pre ++ [34])) :=
      .append_of_notMem (by decide +kernel) hbefore havoid
    have hfound := findIdx?_token (quote_notMem_ascii plain_tcbLevels) (post ++ after)
      (show Avoids 34 (ascii "tcbLevels".toList) ((before ++ 58 :: pre) ++ [34]) by
        simpa using hwhole)
    have hpos : before.length + 1 + pre.length = (before ++ 58 :: pre).length := by
      rw [List.length_append, List.length_cons]
      omega
    rw [hpos]
    simpa [windowPosition] using hfound
  · have hle := hfirst.le
    omega
  · rw [hget hlo]
    exact hfirst.opening
  · intro k hk hk'
    obtain ⟨j, rfl⟩ := Nat.exists_eq_add_of_le (show before.length + 1 ≤ k by omega)
    rw [hget (by omega)]
    exact hfirst.first j (by omega) (by omega)
  · rw [Nat.add_assoc, hdrop, List.drop_append_of_le_length (by omega)]
    exact Nesting.scan_append hn after
  · omega

/-! ## Drawing -/

/-- A flip in a buffer is a flip in a longer one that holds it, at the same draw. -/
theorem flipBit_within {before after data : Bytes} {lo hi : Nat} (hlt : lo < hi)
    (hhi : hi ≤ data.length) (hlen : (before ++ (data ++ after)).length ≤ addressSpace) :
    Follows (fun r r' => r.2.length = data.length ∧ r'.2 = before ++ (r.2 ++ after))
      (flipBit data (lo * 8) (hi * 8))
      (flipBit (before ++ (data ++ after)) ((before.length + lo) * 8)
        ((before.length + hi) * 8)) := by
  unfold addressSpace at hlen
  rw [List.length_append, List.length_append] at hlen
  have hwidth : (before.length + hi) * 8 - (before.length + lo) * 8 = hi * 8 - lo * 8 := by omega
  refine Follows.lift_bind (usizeSub_of_le (by omega)) (usizeSub_of_le (by omega)) ?_
  rw [hwidth]
  refine Follows.choose (below_ofNat_returns (by omega) (by omega)) fun offset hoffset => ?_
  refine Follows.lift_bind (usize_of_lt (by omega)) (usize_of_lt (by omega)) ?_
  have hbyte : (lo * 8 + offset.toNat) / 8 < data.length := by omega
  have hshift : ((before.length + lo) * 8 + offset.toNat) / 8 =
      before.length + (lo * 8 + offset.toNat) / 8 := by omega
  have hbit : ((before.length + lo) * 8 + offset.toNat) % 8 = (lo * 8 + offset.toNat) % 8 := by
    omega
  rw [hshift, hbit]
  have hget : (before ++ (data ++ after))[before.length + (lo * 8 + offset.toNat) / 8]? =
      some data[(lo * 8 + offset.toNat) / 8] := by
    rw [List.getElem?_append_right (Nat.le_add_right _ _), Nat.add_sub_cancel_left,
      List.getElem?_append_left hbyte, List.getElem?_eq_getElem hbyte]
  refine Follows.lift_bind (index_eq_ok.mpr (List.getElem?_eq_getElem hbyte))
    (index_eq_ok.mpr hget) ?_
  refine Follows.pure ⟨List.length_set, ?_⟩
  rw [List.set_append_right _ _ (Nat.le_add_right _ _), Nat.add_sub_cancel_left,
    List.set_append_left _ _ hbyte]

theorem flipBits_within {before after : Bytes} {lo hi : Nat} (hlt : lo < hi) (count : Nat) :
    ∀ {data : Bytes}, hi ≤ data.length →
      (before ++ (data ++ after)).length ≤ addressSpace →
        Follows (fun r r' => r'.2 = before ++ (r.2 ++ after))
          (flipBits (lo * 8) (hi * 8) count data)
          (flipBits ((before.length + lo) * 8) ((before.length + hi) * 8) count
            (before ++ (data ++ after))) := by
  induction count with
  | zero =>
      intro data _ _
      exact Follows.pure rfl
  | succ count ih =>
      intro data hhi hlen
      refine Follows.bind (flipBit_within hlt hhi hlen) ?_
      rintro ⟨bit, data'⟩ ⟨bit', file'⟩ ⟨hlength, hfile⟩
      have hdata : data'.length = data.length := hlength
      obtain rfl : file' = before ++ (data' ++ after) := hfile
      refine Follows.bind (ih (by omega) ?_) ?_
      · rw [List.length_append, List.length_append] at hlen ⊢
        omega
      · rintro ⟨positions, data''⟩ ⟨positions', file''⟩ hrest
        exact Follows.pure hrest

/-- **Flips in a document** are flips in the file, at the same draws. -/
theorem flipRandomBits_within {before after data : Bytes} {lo hi : Nat} (hlt : lo < hi)
    (hhi : hi ≤ data.length) (hlen : (before ++ (data ++ after)).length ≤ addressSpace) :
    Follows (fun r r' => r'.2 = before ++ (r.2 ++ after)) (flipRandomBits data lo hi)
      (flipRandomBits (before ++ (data ++ after)) (before.length + lo) (before.length + hi)) := by
  have hspace : before.length + (data.length + after.length) ≤ 2 ^ 57 := by
    rw [List.length_append, List.length_append] at hlen
    exact hlen
  refine Follows.choose (below_returns (by decide)) fun extra _ => ?_
  refine Follows.lift_bind (usize_of_lt (by omega)) (usize_of_lt (by omega)) ?_
  refine Follows.lift_bind (usize_of_lt (by omega)) (usize_of_lt (by omega)) ?_
  refine Follows.bind (flipBits_within hlt _ hhi hlen) ?_
  rintro ⟨positions, data'⟩ ⟨positions', file'⟩ hfile
  exact Follows.pure hfile

/-! ## The file -/

/-- What the file has before the TCB info and its colon. -/
def Spliced.before (s : Spliced) : Bytes :=
  written (labels.zip s.strings) ++ asBytes "\"tcb_info\""

/-- Where in the file the TCB info is. -/
def Spliced.slot (s : Spliced) : Nat := s.before.length + 1

/-- What it has after the TCB info. -/
def Spliced.after (s : Spliced) : Bytes :=
  44 :: (asBytes "\"qe_identity\":" ++ (s.qeIdentityRaw ++ [125]))

theorem Spliced.assembleCollateral_slot (s : Spliced) (raw : Bytes) :
    Spliced.assembleCollateral { s with tcbInfoRaw := raw } =
      s.before ++ 58 :: (raw ++ s.after) := by
  have hkey : asBytes "\"tcb_info\":" = asBytes "\"tcb_info\"" ++ [58] := by decide
  simp only [assembleCollateral_eq, documents, strings, before, after, hkey, List.append_assoc,
    List.cons_append, List.nil_append]

theorem Spliced.slice_slot (s : Spliced) :
    Octets.slice s.slot s.tcbInfoRaw.length s.assembleCollateral = s.tcbInfoRaw := by
  have hlength : (s.before ++ [58]).length = s.slot := List.length_append
  have hfile : s.assembleCollateral = s.before ++ 58 :: (s.tcbInfoRaw ++ s.after) :=
    s.assembleCollateral_slot s.tcbInfoRaw
  rw [hfile, List.append_cons, ← hlength, Octets.slice_append_of_le (Nat.le_refl _), Nat.sub_self]
  exact Octets.slice_append_self rfl

theorem Spliced.before_avoids (s : Spliced)
    (hstrings : ∀ text ∈ s.strings, ¬EndsIn "tcbLevels".toList text) :
    Avoids 34 (ascii "tcbLevels".toList) s.before := by
  have hends : ∀ f ∈ labels.zip s.strings, ¬EndsIn "tcbLevels".toList f.2 :=
    fun f hf => hstrings f.2 (List.of_mem_zip hf).2
  have htail : Between "tcbLevels".toList (asBytes "\"tcb_info") := by decide +kernel
  have hquote : asBytes "\"tcb_info\"" = asBytes "\"tcb_info" ++ [34] := by decide
  have hbetween := avoids_written plain_tcbLevels htail (s.between_labels (by decide +kernel)) hends
  rw [before, hquote, ← List.append_assoc]
  exact hbetween.avoids

/--
**Mutating a spliced file is splicing a mutated document.**

Strategy 6 flips bits in the TCB levels that it finds by scanning the file. Where the TCB info
has any and no string before it ends in the key that is looked for, the range found is the one
in the TCB info, moved to where it is in the file. From every state of the generator, what
becomes of the file is then the file with what becomes of the TCB info alone, and the generator
is left in the same state.
-/
theorem mutation_within_document (s : Spliced)
    (hlen : s.assembleCollateral.length ≤ addressSpace)
    (hstrings : ∀ text ∈ s.strings, ¬EndsIn "tcbLevels".toList text) {lo hi : Nat}
    (hrange : tcbLevelsRange s.tcbInfoRaw = .ok (some (lo, hi))) :
    Octets.slice s.slot s.tcbInfoRaw.length s.assembleCollateral = s.tcbInfoRaw ∧
    tcbLevelsRange s.assembleCollateral = .ok (some (s.slot + lo, s.slot + hi)) ∧
    ∀ rng : SplitMix64, ∃ raw desc desc' rng',
      mutateCollateral s.tcbInfoRaw 6 rng = .ok ((desc, raw), rng') ∧
      mutateCollateral s.assembleCollateral 6 rng =
        .ok ((desc', Spliced.assembleCollateral { s with tcbInfoRaw := raw }), rng') ∧
      SameOutside lo hi s.tcbInfoRaw raw := by
  have hspace : addressSpace = 2 ^ 57 := rfl
  have hfile : s.assembleCollateral = s.before ++ 58 :: (s.tcbInfoRaw ++ s.after) :=
    s.assembleCollateral_slot s.tcbInfoRaw
  have hsplit : s.before ++ 58 :: (s.tcbInfoRaw ++ s.after) =
      (s.before ++ [58]) ++ (s.tcbInfoRaw ++ s.after) := by rw [← List.append_cons]
  have hslot : s.slot = (s.before ++ [58]).length := by
    rw [Spliced.slot, List.length_append, List.length_singleton]
  have hwithin : s.tcbInfoRaw.length ≤ s.assembleCollateral.length := by
    rw [hfile, List.length_append, List.length_cons, List.length_append]
    omega
  have hbracketed : Bracketed s.tcbInfoRaw lo hi := by
    obtain ⟨range, hfound, hspec⟩ :=
      tcbLevelsRange_returns (show s.tcbInfoRaw.length < 2 ^ 64 by omega)
    rw [hrange] at hfound
    cases hfound
    exact hspec (lo, hi) rfl
  -- the file's range is the document's, moved to its place
  have hmoved : tcbLevelsRange (s.before ++ 58 :: (s.tcbInfoRaw ++ s.after)) =
      .ok (some (s.slot + lo, s.slot + hi)) :=
    tcbLevelsRange_append (s.before_avoids hstrings) (by rw [← hfile]; omega) hrange
  refine ⟨s.slice_slot, hfile ▸ hmoved, fun rng => ?_⟩
  rw [hfile, hsplit] at hlen
  rw [hsplit, hslot] at hmoved
  have hfollows : Follows (fun r r' => r'.2 = (s.before ++ [58]) ++ (r.2 ++ s.after))
      (mutateCollateral s.tcbInfoRaw 6)
      (mutateCollateral ((s.before ++ [58]) ++ (s.tcbInfoRaw ++ s.after)) 6) := by
    refine Follows.lift_bind hrange hmoved ?_
    refine Follows.bind (flipRandomBits_within hbracketed.lt hbracketed.le hlen) ?_
    rintro ⟨positions, raw⟩ ⟨positions', file⟩ h
    exact Follows.pure h
  have hne : s.tcbInfoRaw ≠ [] := by
    intro hnil
    have hlt := hbracketed.lt
    have hle := hbracketed.le
    rw [hnil, List.length_nil] at hle
    omega
  obtain ⟨⟨desc, raw⟩, rng', hraw, -, hlevels⟩ :=
    mutateCollateral_returns hne (Nat.le_trans hwithin (by rw [hfile, hsplit]; exact hlen))
      (show (4 : UInt64) ≤ 6 by decide) (by decide) rng
  obtain ⟨⟨desc', file⟩, hmutated, hsame⟩ := hfollows rng _ rng' hraw
  refine ⟨raw, desc, desc', rng', hraw, ?_, hlevels rfl lo hi hrange⟩
  rw [hfile, hsplit, hmutated, s.assembleCollateral_slot raw]
  have hresult : file = s.before ++ 58 :: (raw ++ s.after) := by
    rw [List.append_cons]
    exact hsame
  rw [hresult]

/-- In a file with a bracket in the strings of its TCB levels. -/
theorem nested_levels_mutated :
    tcbLevelsRange (spliced "\"").assembleCollateral =
      .ok (some ((spliced "\"").slot + 34, (spliced "\"").slot + 42)) ∧
    ∃ raw desc desc' rng',
      mutateCollateral nestedTcbInfo 6 (SplitMix64.new 0) = .ok ((desc, raw), rng') ∧
      mutateCollateral (spliced "\"").assembleCollateral 6 (SplitMix64.new 0) =
        .ok ((desc', Spliced.assembleCollateral { spliced "\"" with tcbInfoRaw := raw }), rng') ∧
      SameOutside 34 42 nestedTcbInfo raw := by
  have hnested : tcbLevelsRange (spliced "\"").tcbInfoRaw = .ok (some (34, 42)) := by
    decide +kernel
  obtain ⟨-, hrange, hmutated⟩ :=
    mutation_within_document (spliced "\"") (by decide +kernel) (by decide +kernel) hnested
  exact ⟨hrange, hmutated (SplitMix64.new 0)⟩

end DcapVerify.Differ
