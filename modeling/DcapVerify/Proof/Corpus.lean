import DcapVerify.Differ.Corpus
import DcapVerify.Lib.Quoted
import DcapVerify.Proof.Mutate

/-!
# What is spliced in is cut out again

The documents in a collateral file are signed, so the corpus must carry them byte for byte.
The script that builds it never parses them: it concatenates, and checks itself by looking
for two quoted keys and matching braces. The keys are found where they were written because
everything before them is made of pieces that meet in quotes, and the braces match because
an object ends where its own bytes say, whatever follows.
-/

namespace DcapVerify.Differ

open Nesting Quoted

/-! ## Braces -/

/-- The braces of a JSON text. -/
def braces : Marks UInt8 := ⟨34, 92, 123, 125, by decide⟩

/-- The bytes of an object: a brace, closed by the last byte. -/
structure IsObject (raw : Bytes) : Prop where
  opening : raw.head? = some 123
  closes : ClosesAt braces raw (raw.length - 1)

theorem IsObject.eq_cons {raw : Bytes} (h : IsObject raw) : ∃ text, raw = 123 :: text := by
  cases raw with
  | nil => cases h.opening
  | cons b text => exact ⟨text, by rw [Option.some.inj h.opening]⟩

theorem symbolWeight_other {c : UInt8} (hquote : c ≠ 34) (hopen : c ≠ 123) (hclose : c ≠ 125) :
    symbolWeight braces .outside c = 0 := by
  have ho : c ≠ braces.opening := hopen
  have hc : c ≠ braces.closing := hclose
  rw [symbolWeight, if_pos ⟨rfl, hquote⟩, if_neg ho, if_neg hc]

/-- **The loop is the scan.** -/
theorem closeObject_eq (buf : Bytes) : ∀ {mode : Mode} {d : Nat}, 0 < d →
    closeObject d (mode != .outside) (mode == .escaped) buf =
      Nesting.scan braces mode d buf := by
  induction buf with
  | nil => exact fun _ => rfl
  | cons c buf ih =>
      intro mode d hpos
      have hquoted (h : mode ≠ .outside) : symbolWeight braces mode c = 0 := if_neg fun hc => h hc.1
      have hd : (d : Int) ≠ 0 := by omega
      -- the rest of the loop, in each of the modes
      have hinside : closeObject d true false buf = Nesting.scan braces .inside d buf :=
        @ih .inside d hpos
      have hescaped : closeObject d true true buf = Nesting.scan braces .escaped d buf :=
        @ih .escaped d hpos
      have houtside {d' : Nat} (hpos' : 0 < d') :
          closeObject d' false false buf = Nesting.scan braces .outside d' buf :=
        @ih .outside d' hpos'
      rw [Nesting.scan]
      cases mode with
      | escaped =>
          rw [hquoted (by decide), Int.add_zero, if_neg hd, Int.toNat_natCast]
          exact congrArg (Option.map (· + 1)) hinside
      | inside =>
          rw [hquoted (by decide), Int.add_zero, if_neg hd, Int.toNat_natCast]
          by_cases hesc : c = 92
          · subst hesc
            exact congrArg (Option.map (· + 1)) hescaped
          · by_cases hquote : c = 34
            · subst hquote
              exact congrArg (Option.map (· + 1)) (houtside hpos)
            · simp [closeObject, Mode.step, braces, hesc, hquote, hinside]
      | outside =>
          by_cases hquote : c = 34
          · subst hquote
            have hweight : symbolWeight braces .outside 34 = 0 := by decide
            rw [hweight, Int.add_zero, if_neg hd, Int.toNat_natCast]
            exact congrArg (Option.map (· + 1)) hinside
          · by_cases hopen : c = 123
            · subst hopen
              have hweight : symbolWeight braces .outside 123 = 1 := by decide
              have hne : (d : Int) + 1 ≠ 0 := by omega
              rw [hweight, if_neg hne]
              exact congrArg (Option.map (· + 1)) (houtside (Nat.zero_lt_succ d))
            · by_cases hclose : c = 125
              · subst hclose
                have hweight : symbolWeight braces .outside 125 = -1 := by decide
                rw [hweight]
                by_cases hone : d = 1
                · subst hone
                  rfl
                · have hne : (d : Int) + -1 ≠ 0 := by omega
                  have hcast : (d : Int) - 1 = ((d - 1 : Nat) : Int) := by omega
                  have hnat : ((d : Int) + -1).toNat = d - 1 := by omega
                  have hrest := houtside (show 0 < d - 1 by omega)
                  rw [if_neg hne, hnat]
                  simp [closeObject, Mode.step, braces, hcast, hrest, show d - 1 ≠ 0 by omega]
              · rw [symbolWeight_other hquote hopen hclose, Int.add_zero, if_neg hd,
                  Int.toNat_natCast]
                simp [closeObject, Mode.step, braces, hquote, hopen, hclose, houtside hpos]

/-- **An object is cut out whole**, whatever follows it. -/
theorem closeObject_of_isObject {raw : Bytes} (h : IsObject raw) (rest : Bytes) :
    closeObject 0 false false (raw ++ rest) = some (raw.length - 1) := by
  obtain ⟨text, rfl⟩ := h.eq_cons
  have hcloses : ClosesAt braces (123 :: (text ++ rest)) text.length := h.closes.append rest
  have hstep : closeObject 0 false false (123 :: (text ++ rest)) =
      (closeObject 1 false false (text ++ rest)).map (· + 1) := rfl
  have hscan : closeObject 1 false false (text ++ rest) =
      Nesting.scan braces .outside 1 (text ++ rest) :=
    @closeObject_eq (text ++ rest) .outside 1 Nat.one_pos
  rw [List.cons_append, hstep, hscan, List.length_cons, Nat.add_sub_cancel]
  cases hlen : text.length with
  | zero =>
      -- a lone brace is not closed
      rw [hlen] at hcloses
      have hzero := hcloses.zero
      rw [List.take_succ_cons, List.take_zero] at hzero
      exact absurd hzero (by decide)
  | succ n =>
      rw [hlen] at hcloses
      rw [(closesAt_cons_iff (by decide)).mp hcloses]
      rfl

/-! ## Keys -/

/-- The bytes of plain characters. -/
def ascii (cs : List Char) : Bytes := cs.map fun c => UInt8.ofNat c.toNat

/-- Characters that `json.dumps` leaves alone. -/
def Plain (cs : List Char) : Prop :=
  ∀ c ∈ cs, (0x20 ≤ c.toNat ∧ c.toNat ≤ 0x7e) ∧ c ≠ '"' ∧ c ≠ '\\'

instance (cs : List Char) : Decidable (Plain cs) := List.decidableBAll _ cs

/-- A string that brings the key up to its closing quote. -/
def EndsIn (key : List Char) (s : String) : Prop := '"' :: key <:+ '"' :: s.toList

instance (key : List Char) (s : String) : Decidable (EndsIn key s) :=
  inferInstanceAs (Decidable (_ <:+ _))

theorem toUInt8_ne {c : Char} {n : Nat} (hc : c.toNat ≤ 0x7e) (hn : n < 256) (hne : c.toNat ≠ n) :
    UInt8.ofNat c.toNat ≠ UInt8.ofNat n := by
  intro h
  have hnat := congrArg UInt8.toNat h
  rw [UInt8.toNat_ofNat_of_lt' (show c.toNat < 2 ^ 8 by omega),
    UInt8.toNat_ofNat_of_lt' (show n < 2 ^ 8 from hn)] at hnat
  exact hne hnat

/-- A character is left alone, or escaped. -/
theorem escapeChar_cases (c : Char) :
    (escapeChar c = [UInt8.ofNat c.toNat] ∧ c.toNat ≤ 0x7e) ∨
      ∃ rest, escapeChar c = 92 :: rest := by
  unfold escapeChar
  split_ifs <;> first
    | exact .inr ⟨_, rfl⟩
    | exact .inl ⟨rfl, by omega⟩

/-- Only a quote is written with a quote. -/
theorem quote_notMem_escapeChar {c : Char} (hc : c ≠ '"') : 34 ∉ escapeChar c := by
  have hdigits : ∀ d < 16, (34 : UInt8) ≠ UInt8.ofNat d.digitChar.toNat := by decide
  have hunicode (n : Nat) : 34 ∉ unicodeEscape n := by
    simp only [unicodeEscape, List.mem_cons, List.mem_map, List.not_mem_nil, or_false, not_or,
      not_exists, not_and]
    refine ⟨by decide, by decide, fun d hd heq => hdigits d ?_ heq.symm⟩
    rcases hd with rfl | rfl | rfl | rfl <;> exact Nat.mod_lt _ (by decide)
  have hplain (h : c.toNat ≤ 0x7e) : 34 ∉ [UInt8.ofNat c.toNat] := by
    have hnat : c.toNat ≠ 34 := fun heq => hc (Char.toNat_inj.mp heq)
    exact fun hmem => toUInt8_ne h (by decide) hnat (List.mem_singleton.mp hmem).symm
  unfold escapeChar
  split_ifs with hquote _ _ _ _ _ _ hprint hbmp
  · exact absurd hquote hc
  · decide
  · decide
  · decide
  · decide
  · decide
  · decide
  · exact hplain hprint.2
  · exact hunicode _
  · rw [List.mem_append, not_or]
    exact ⟨hunicode _, hunicode _⟩

theorem quote_notMem_escaped {v : List Char} (hv : '"' ∉ v) : 34 ∉ v.flatMap escapeChar := by
  rw [List.mem_flatMap]
  rintro ⟨c, hc, hmem⟩
  exact quote_notMem_escapeChar (fun heq => hv (heq ▸ hc)) hmem

theorem backslash_notMem_ascii {key : List Char} (hkey : Plain key) : 92 ∉ ascii key := by
  rw [ascii, List.mem_map]
  rintro ⟨c, hc, heq⟩
  obtain ⟨⟨-, hle⟩, -, hne⟩ := hkey c hc
  exact toUInt8_ne hle (by decide) (fun hnat => hne (Char.toNat_inj.mp hnat)) heq

theorem quote_notMem_ascii {key : List Char} (hkey : Plain key) : 34 ∉ ascii key := by
  rw [ascii, List.mem_map]
  rintro ⟨c, hc, heq⟩
  obtain ⟨⟨-, hle⟩, hne, -⟩ := hkey c hc
  exact toUInt8_ne hle (by decide) (fun hnat => hne (Char.toNat_inj.mp hnat)) heq

theorem escaped_of_plain {key : List Char} (hkey : Plain key) :
    key.flatMap escapeChar = ascii key := by
  induction key with
  | nil => rfl
  | cons c key ih =>
      rw [Plain, List.forall_mem_cons] at hkey
      obtain ⟨⟨hrange, hquote, hescape⟩, hkey⟩ := hkey
      have hc : escapeChar c = [UInt8.ofNat c.toNat] := by
        have hcontrol {d : Char} (hd : d.toNat < 0x20) : c ≠ d := by
          rintro rfl
          omega
        rw [escapeChar, if_neg hquote, if_neg hescape, if_neg (hcontrol (by decide)),
          if_neg (hcontrol (by decide)), if_neg (hcontrol (by decide)),
          if_neg (hcontrol (by decide)), if_neg (hcontrol (by decide)), if_pos hrange]
      rw [List.flatMap_cons, hc, ih hkey]
      rfl

/-- Nothing but the characters themselves is written as plain characters. -/
theorem escaped_eq_ascii {key : List Char} (hkey : Plain key) : ∀ {v : List Char},
    v.flatMap escapeChar = ascii key → v = key := by
  induction key with
  | nil =>
      intro v h
      cases v with
      | nil => rfl
      | cons c v =>
          rw [List.flatMap_cons] at h
          rcases escapeChar_cases c with ⟨hc, -⟩ | ⟨rest, hc⟩ <;> rw [hc] at h <;> cases h
  | cons k key ih =>
      intro v h
      obtain ⟨⟨⟨-, hk⟩, -, hne⟩, hrest⟩ := List.forall_mem_cons.mp hkey
      cases v with
      | nil => cases h
      | cons c v =>
          rw [List.flatMap_cons, ascii, List.map_cons] at h
          rcases escapeChar_cases c with ⟨hc, hle⟩ | ⟨rest, hc⟩
          · rw [hc, List.singleton_append, List.cons_eq_cons] at h
            obtain ⟨hbyte, h⟩ := h
            have hnat : c.toNat = k.toNat := by
              by_contra hnat
              exact toUInt8_ne hle (by omega) hnat hbyte
            rw [Char.toNat_inj.mp hnat, ih hrest h]
          · rw [hc, List.cons_append, List.cons_eq_cons] at h
            exact absurd h.1.symm
              (toUInt8_ne hk (by decide) fun hnat => hne (Char.toNat_inj.mp hnat))

/-- **A string is written without the quoted key**, unless it ends in it. The induction is along
the string, with what has come since the last quote. -/
theorem avoids_escaped {key : List Char} (hkey : Plain key) (cs : List Char) :
    ∀ {v : List Char}, '"' ∉ v → ¬ '"' :: key <:+ '"' :: (v ++ cs) →
      Avoids 34 (ascii key) (token 34 (v.flatMap escapeChar ++ cs.flatMap escapeChar)) := by
  induction cs with
  | nil =>
      intro v hv h
      rw [List.flatMap_nil, List.append_nil]
      refine avoids_token (quote_notMem_escaped hv) fun heq => h ?_
      rw [escaped_eq_ascii hkey heq, List.append_nil]
  | cons c cs ih =>
      intro v hv h
      by_cases hc : c = '"'
      · subst hc
        have hescape : escapeChar '"' = [92, 34] := rfl
        have hsplit : token 34 (v.flatMap escapeChar ++ ('"' :: cs).flatMap escapeChar) =
            34 :: (v.flatMap escapeChar ++ [92]) ++ 34 :: (cs.flatMap escapeChar ++ [34]) := by
          simp [token, hescape]
        have hback : 34 ∉ v.flatMap escapeChar ++ [92] := by
          rw [List.mem_append, not_or]
          exact ⟨quote_notMem_escaped hv, by decide⟩
        rw [hsplit]
        refine .append (quote_notMem_ascii hkey) (avoids_token hback fun heq => ?_)
          (ih (v := []) (by decide) fun hsuffix => h ?_)
        · exact backslash_notMem_ascii hkey (heq ▸ by simp)
        · refine hsuffix.trans ?_
          rw [List.nil_append]
          exact List.suffix_append ('"' :: v) ('"' :: cs)
      · have hnext := @ih (v ++ [c]) (by simp [hv, Ne.symm hc]) (by simpa using h)
        simpa using hnext

theorem avoids_jstr {key : List Char} (hkey : Plain key) {s : String} (h : ¬EndsIn key s) :
    Avoids 34 (ascii key) (jstr s) :=
  avoids_escaped hkey s.toList (v := []) (by decide) h

/-- A quote in a string ends no quoted key, for there is a backslash before it. -/
theorem avoids_escaped_quote {key : List Char} (hkey : Plain key) (hne : key ≠ [])
    (cs : List Char) : Avoids 34 (ascii key) (34 :: (cs.flatMap escapeChar ++ [92, 34])) := by
  have hends : ¬ '"' :: key <:+ '"' :: (cs ++ ['"']) := by
    intro h
    have hlast := h.getLast (List.cons_ne_nil _ _)
    rw [List.getLast_cons hne] at hlast
    have hmem : '"' ∈ key := by
      have hquote : key.getLast hne = '"' := by simpa using hlast
      exact hquote ▸ List.getLast_mem hne
    exact (hkey _ hmem).2.1 rfl
  have hescape : escapeChar '"' = [92, 34] := rfl
  have havoid := avoids_escaped hkey (cs ++ ['"']) (v := []) (by decide) hends
  refine havoid.of_infix (List.IsPrefix.isInfix ?_)
  simp [token, hescape]

/-- A string that ends in the key is written with the quoted key at its end. -/
theorem jstr_of_endsIn {key : List Char} (hkey : Plain key) {s : String} (h : EndsIn key s) :
    ∃ a, jstr s = a ++ token 34 (ascii key) ∧
      (a = [] ∨ ∃ cs : List Char, a = 34 :: (cs.flatMap escapeChar ++ [92])) := by
  have hplain : key.flatMap escapeChar = ascii key := escaped_of_plain hkey
  obtain ⟨before, hsplit⟩ := h
  cases before with
  | nil =>
      rw [List.nil_append, List.cons_eq_cons] at hsplit
      refine ⟨[], ?_, .inl rfl⟩
      rw [jstr, ← hsplit.2, hplain]
      rfl
  | cons q cs =>
      rw [List.cons_append, List.cons_eq_cons] at hsplit
      have hescape : escapeChar '"' = [92, 34] := rfl
      refine ⟨34 :: (cs.flatMap escapeChar ++ [92]), ?_, .inr ⟨cs, rfl⟩⟩
      rw [jstr, ← hsplit.2, List.flatMap_append, List.flatMap_cons, hescape, hplain]
      simp [token]

/-! ## Cutting out -/

/-- A key the script looks for. -/
structure IsKey (key : String) : Prop where
  plain : Plain key.toList
  ne_nil : key.toList ≠ []
  quoted : asBytes s!"\"{key}\"" = token 34 (ascii key.toList)

theorem isKey_tcbInfo : IsKey "tcb_info" :=
  ⟨by decide +kernel, by decide +kernel, by decide +kernel⟩

theorem isKey_qeIdentity : IsKey "qe_identity" :=
  ⟨by decide +kernel, by decide +kernel, by decide +kernel⟩

theorem IsKey.windowPosition {key : String} (h : IsKey key) {pre : Bytes}
    (havoid : Avoids 34 (ascii key.toList) (pre ++ [34])) (post : Bytes) :
    Differ.windowPosition (token 34 (ascii key.toList))
      (pre ++ (token 34 (ascii key.toList) ++ post)) = some pre.length :=
  findIdx?_token (quote_notMem_ascii h.plain) post havoid

theorem drop_token (pre token post : Bytes) :
    (pre ++ (token ++ post)).drop (pre.length + token.length) = post := by
  rw [← List.append_assoc, ← List.length_append, List.drop_left]

/-- **A document is cut out** where its key comes first. -/
theorem extractRawObject_document {key : String} (h : IsKey key) {pre raw : Bytes}
    (havoid : Avoids 34 (ascii key.toList) (pre ++ [34])) (hraw : IsObject raw) (rest : Bytes) :
    extractRawObject (pre ++ (token 34 (ascii key.toList) ++ 58 :: (raw ++ rest))) key =
      .ok raw := by
  obtain ⟨text, rfl⟩ := hraw.eq_cons
  have hclose := closeObject_of_isObject hraw rest
  have hcolon : (58 :: (123 :: text ++ rest)).dropWhile isBlank = 58 :: (123 :: text ++ rest) := rfl
  have hbrace : (123 :: text ++ rest).dropWhile isBlank = 123 :: text ++ rest := rfl
  have hhead : (123 :: text ++ rest).head? = some 123 := rfl
  unfold extractRawObject
  simp only [h.quoted, h.windowPosition havoid, drop_token, hcolon, hbrace, hhead, hclose, if_true]
  rw [List.length_cons, Nat.add_sub_cancel, ← List.length_cons, List.take_left]

/-- At the end of a string, the key has no value. -/
theorem extractRawObject_string {key : String} (h : IsKey key) {pre : Bytes}
    (havoid : Avoids 34 (ascii key.toList) (pre ++ [34])) (rest : Bytes) :
    extractRawObject (pre ++ (token 34 (ascii key.toList) ++ 44 :: rest)) key =
      .error (.assertion s!"{key} not a key") := by
  have hcomma : (44 :: rest).dropWhile isBlank = 44 :: rest := rfl
  unfold extractRawObject
  simp only [h.quoted, h.windowPosition havoid, drop_token, hcomma]
  rfl

/-! ## The file before a key -/

/-- Strings, each with what is written before it. -/
def written (fields : List (Bytes × String)) : Bytes :=
  fields.flatMap fun f => f.1 ++ jstr f.2 ++ [44]

/-- What stands between two strings does not bring the key. -/
def Between (key : List Char) (text : Bytes) : Prop :=
  Avoids 34 (ascii key) (34 :: 44 :: text ++ [34])

instance (key : List Char) (text : Bytes) : Decidable (Between key text) :=
  inferInstanceAs (Decidable (Avoids _ _ _))

/-- **No string ends in the key, so the key is not written.** -/
theorem avoids_written {key : List Char} (hkey : Plain key) {tail : Bytes}
    (htail : Between key tail) {fields : List (Bytes × String)}
    (hbetween : ∀ f ∈ fields, Between key f.1) (hends : ∀ f ∈ fields, ¬EndsIn key f.2) :
    Between key (written fields ++ tail) := by
  induction fields with
  | nil => exact htail
  | cons f fields ih =>
      rw [List.forall_mem_cons] at hbetween hends
      have hrest := ih hbetween.2 hends.2
      have hquote := quote_notMem_ascii hkey
      have hstring : Avoids 34 (ascii key)
          (34 :: f.2.toList.flatMap escapeChar ++ 34 :: (44 :: (written fields ++ tail) ++ [34])) :=
        .append hquote (avoids_jstr hkey hends.1) hrest
      have hfield := Avoids.append hquote hbetween.1 hstring
      simpa [Between, written, jstr] using hfield

/-- Everything before the first quote of the key avoids it. -/
theorem Between.avoids {key : List Char} {text : Bytes} (h : Between key text) :
    Avoids 34 (ascii key) (text ++ [34]) :=
  h.of_infix (List.IsSuffix.isInfix ⟨[34, 44], by simp⟩)

/-- **A file read back**: the document, or no value if a string before it ends in its key. -/
theorem extractRawObject_written {key : String} (h : IsKey key) {fields : List (Bytes × String)}
    {tail raw : Bytes} (hbetween : ∀ f ∈ fields, Between key.toList f.1)
    (htail : Between key.toList tail) (hraw : IsObject raw) (rest : Bytes) :
    extractRawObject
        (written fields ++ tail ++ (token 34 (ascii key.toList) ++ 58 :: (raw ++ rest))) key =
      if ∃ f ∈ fields, EndsIn key.toList f.2 then .error (.assertion s!"{key} not a key")
      else .ok raw := by
  by_cases hends : ∃ f ∈ fields, EndsIn key.toList f.2
  · rw [if_pos hends]
    -- the first of the strings that do
    cases hfind : fields.find? fun f => EndsIn key.toList f.2 with
    | none =>
        rw [List.find?_eq_none] at hfind
        obtain ⟨f, hmem, hf⟩ := hends
        exact absurd (decide_eq_true hf) (hfind f hmem)
    | some f =>
        obtain ⟨hf, before, after, rfl, hbefore⟩ := List.find?_eq_some_iff_append.mp hfind
        have hnone : ∀ g ∈ before, ¬EndsIn key.toList g.2 := by simpa using hbefore
        have hseams : ∀ g ∈ before, Between key.toList g.1 :=
          fun g hg => hbetween g (List.mem_append_left _ hg)
        have hseam : Between key.toList f.1 := hbetween f (by simp)
        obtain ⟨a, hstring, ha⟩ := jstr_of_endsIn h.plain (of_decide_eq_true hf)
        have hquote := quote_notMem_ascii h.plain
        have hlast : Between key.toList (f.1 ++ a) := by
          rcases ha with rfl | ⟨cs, rfl⟩
          · rw [List.append_nil]
            exact hseam
          · have hpiece := Avoids.append hquote hseam (avoids_escaped_quote h.plain h.ne_nil cs)
            simpa [Between] using hpiece
        have hcut := extractRawObject_string h
          (avoids_written h.plain hlast hseams hnone).avoids
          (written after ++ (tail ++ (token 34 (ascii key.toList) ++ 58 :: (raw ++ rest))))
        simpa [written, hstring] using hcut
  · rw [if_neg hends]
    have hnone : ∀ f ∈ fields, ¬EndsIn key.toList f.2 := fun f hf hend => hends ⟨f, hf, hend⟩
    exact extractRawObject_document h (avoids_written h.plain htail hbetween hnone).avoids hraw rest

/-! ## The two documents -/

/-- What the file has before each of its strings. -/
def labels : List Bytes :=
  [asBytes "\x7b\"version\":3,\"root_ca_crl\":", asBytes "\"pck_crl\":",
    asBytes "\"tcb_info_issuer_chain\":", asBytes "\"pck_crl_issuer_chain\":",
    asBytes "\"qe_identity_issuer_chain\":"]

def Spliced.strings (s : Spliced) : List String :=
  [s.rootCaCrl, s.pckCrl, s.tcbChain, s.pckcrlChain, s.qeChain]

theorem Spliced.between_labels (s : Spliced) {key : List Char}
    (h : ∀ label ∈ labels, Between key label) : ∀ f ∈ labels.zip s.strings, Between key f.1 :=
  fun _ hf => h _ (List.of_mem_zip hf).1

theorem Spliced.endsIn_iff (s : Spliced) (key : List Char) :
    (∃ f ∈ labels.zip s.strings, EndsIn key f.2) ↔ ∃ text ∈ s.strings, EndsIn key text := by
  simp [labels, Spliced.strings]

/-- What follows the strings. -/
def Spliced.documents (s : Spliced) : Bytes :=
  asBytes "\"tcb_info\":" ++ (s.tcbInfoRaw ++ 44 :: (asBytes "\"qe_identity\":" ++
    (s.qeIdentityRaw ++ [125])))

theorem label_rootCaCrl :
    asBytes "\x7b" ++ (asBytes "\"version\":3," ++ asBytes "\"root_ca_crl\":") =
      asBytes "\x7b\"version\":3,\"root_ca_crl\":" := by decide +kernel

theorem asBytes_comma : asBytes "," = [44] := by decide

theorem asBytes_brace : asBytes "\x7d" = [125] := by decide

theorem Spliced.assembleCollateral_eq (s : Spliced) :
    s.assembleCollateral = written (labels.zip s.strings) ++ s.documents := by
  unfold Spliced.assembleCollateral
  simp only [documents, written, labels, strings, ← label_rootCaCrl, asBytes_comma,
    asBytes_brace, List.zip_cons_cons, List.zip_nil_right, List.flatMap_cons, List.flatMap_nil,
    List.append_assoc, List.nil_append, List.cons_append, List.append_nil]

/-- **The TCB info is cut out** unless a string ends in its key. -/
theorem Spliced.extract_tcbInfo (s : Spliced) (htcb : IsObject s.tcbInfoRaw) :
    extractRawObject s.assembleCollateral "tcb_info" =
      if ∃ text ∈ s.strings, EndsIn "tcb_info".toList text then
        .error (.assertion "tcb_info not a key")
      else .ok s.tcbInfoRaw := by
  have htail : Between "tcb_info".toList [] := by decide
  have hkey : asBytes "\"tcb_info\":" = token 34 (ascii "tcb_info".toList) ++ [58] := by decide
  have hcut := extractRawObject_written isKey_tcbInfo (s.between_labels (by decide)) htail htcb
    (44 :: (asBytes "\"qe_identity\":" ++ (s.qeIdentityRaw ++ [125])))
  simp only [s.endsIn_iff, List.append_nil] at hcut
  rw [assembleCollateral_eq, documents, hkey, List.append_assoc, List.singleton_append]
  exact hcut

/-- What stands between the strings and the QE identity. -/
theorem Spliced.between_documents (s : Spliced)
    (hkey : Avoids 34 (ascii "qe_identity".toList) s.tcbInfoRaw) :
    Between "qe_identity".toList (asBytes "\"tcb_info\":" ++ (s.tcbInfoRaw ++ [44])) := by
  have hcolon : asBytes "\"tcb_info\":" = asBytes "\"tcb_info\"" ++ [58] := by decide
  have hlabel : Avoids 34 (ascii "qe_identity".toList) (34 :: 44 :: asBytes "\"tcb_info\"") := by
    decide
  have hdocument : Avoids 34 (ascii "qe_identity".toList) (s.tcbInfoRaw ++ 44 :: [34]) :=
    .append_of_notMem (by decide) hkey (by decide)
  have hcut : Avoids 34 (ascii "qe_identity".toList)
      (34 :: 44 :: asBytes "\"tcb_info\"" ++ 58 :: (s.tcbInfoRaw ++ 44 :: [34])) :=
    .append_of_notMem (by decide) hlabel hdocument
  rw [hcolon]
  generalize asBytes "\"tcb_info\"" = label at hcut ⊢
  simpa [Between] using hcut

/-- So is the QE identity, unless the TCB info brings its key. -/
theorem Spliced.extract_qeIdentity (s : Spliced) (hqe : IsObject s.qeIdentityRaw)
    (hkey : Avoids 34 (ascii "qe_identity".toList) s.tcbInfoRaw) :
    extractRawObject s.assembleCollateral "qe_identity" =
      if ∃ text ∈ s.strings, EndsIn "qe_identity".toList text then
        .error (.assertion "qe_identity not a key")
      else .ok s.qeIdentityRaw := by
  have hquoted : asBytes "\"qe_identity\":" = token 34 (ascii "qe_identity".toList) ++ [58] := by
    decide
  have hcut := extractRawObject_written isKey_qeIdentity (s.between_labels (by decide))
    (s.between_documents hkey) hqe [125]
  simp only [s.endsIn_iff, List.append_assoc, List.cons_append, List.nil_append] at hcut
  simp only [assembleCollateral_eq, documents, hquoted, List.append_assoc, List.cons_append,
    List.nil_append]
  exact hcut

/--
**What is spliced in is cut out again, byte for byte**, unless a string ends in a key.

The signed documents are objects, and the TCB info does not bring the other document's key.
The strings are arbitrary: they may hold the keys, quotes, backslashes and braces. The script
looks for a key before the documents; only at the end of a string does it find one there, with
no value, and then it raises. Else both documents have the bytes that were written. A file that
`json.loads` refuses is refused first.
-/
theorem spliced_documents_verbatim (loads : Bytes → Except String Unit) (s : Spliced)
    (name : String) (htcb : IsObject s.tcbInfoRaw) (hqe : IsObject s.qeIdentityRaw)
    (hkey : ¬asBytes "\"qe_identity\"" <:+: s.tcbInfoRaw) :
    (extractRawObject s.assembleCollateral "tcb_info" =
      if ∃ text ∈ s.strings, EndsIn "tcb_info".toList text then
        .error (.assertion "tcb_info not a key")
      else .ok s.tcbInfoRaw) ∧
    (extractRawObject s.assembleCollateral "qe_identity" =
      if ∃ text ∈ s.strings, EndsIn "qe_identity".toList text then
        .error (.assertion "qe_identity not a key")
      else .ok s.qeIdentityRaw) ∧
    s.verifyCase loads name s.assembleCollateral =
      ((loads s.assembleCollateral).mapError CorpusError.json >>= fun _ =>
        if ∃ text ∈ s.strings, EndsIn "tcb_info".toList text then
          .error (.assertion "tcb_info not a key")
        else if ∃ text ∈ s.strings, EndsIn "qe_identity".toList text then
          .error (.assertion "qe_identity not a key")
        else .ok ()) := by
  have hquoted : asBytes "\"qe_identity\"" = token 34 (ascii "qe_identity".toList) := by decide
  have havoid : Avoids 34 (ascii "qe_identity".toList) s.tcbInfoRaw := by
    rw [Avoids, ← hquoted]
    exact hkey
  have htcbCut := s.extract_tcbInfo htcb
  have hqeCut := s.extract_qeIdentity hqe havoid
  refine ⟨htcbCut, hqeCut, ?_⟩
  rw [Spliced.verifyCase, htcbCut, hqeCut]
  refine congrArg _ (funext fun _ => ?_)
  by_cases htcbEnds : ∃ text ∈ s.strings, EndsIn "tcb_info".toList text
  · rw [if_pos htcbEnds, if_pos htcbEnds]
    rfl
  · rw [if_neg htcbEnds, if_neg htcbEnds]
    by_cases hqeEnds : ∃ text ∈ s.strings, EndsIn "qe_identity".toList text
    · rw [if_pos hqeEnds, if_pos hqeEnds]
      rfl
    · rw [if_neg hqeEnds, if_neg hqeEnds, Checks.ok_bind, Checks.ok_bind,
        if_neg (not_not_intro rfl), if_neg (not_not_intro rfl)]
      rfl

/-- A document with a brace and a bracket in its strings. -/
def nestedTcbInfo : Bytes :=
  asBytes "\x7b\"tcbInfo\":\x7b\"a\":\"\x7d\\\"\",\"tcbLevels\":[\"]\",[]]\x7d\x7d"

/-- A document with the other document's key in it. -/
def nestedQeIdentity : Bytes := asBytes "\x7b\"tcb_info\":\x7b\x7d\x7d"

theorem isObject_nestedTcbInfo : IsObject nestedTcbInfo :=
  ⟨by decide +kernel, ⟨by decide +kernel, by decide +kernel, by decide +kernel⟩⟩

theorem isObject_nestedQeIdentity : IsObject nestedQeIdentity :=
  ⟨by decide +kernel, ⟨by decide +kernel, by decide +kernel, by decide +kernel⟩⟩

/-- Strings with keys, quotes and backslashes in them. -/
def spliced (qeChain : String) : Spliced where
  rootCaCrl := "\"tcb_info\": \x7b"
  pckCrl := "\\\"qe_identity\\"
  tcbChain := "tcb_info\n"
  pckcrlChain := ""
  qeChain
  tcbInfoRaw := nestedTcbInfo
  qeIdentityRaw := nestedQeIdentity

/-- A parser of the files above. -/
def loadsObject (buf : Bytes) : Except String Unit :=
  if buf.head? = some 123 ∧ buf.getLast? = some 125 then .ok () else .error "not an object"

/-- The documents are cut out again, and no longer when a string is the key. -/
theorem spliced_verbatim :
    extractRawObject (spliced "\"").assembleCollateral "tcb_info" = .ok nestedTcbInfo ∧
    (spliced "\"").verifyCase loadsObject "spliced" (spliced "\"").assembleCollateral = .ok () ∧
    (spliced "qe_identity").verifyCase loadsObject "spliced"
      (spliced "qe_identity").assembleCollateral =
        .error (.assertion "qe_identity not a key") := by
  obtain ⟨htcb, -, hverify⟩ := spliced_documents_verbatim loadsObject (spliced "\"") "spliced"
    isObject_nestedTcbInfo isObject_nestedQeIdentity (by decide +kernel)
  obtain ⟨-, -, hkey⟩ := spliced_documents_verbatim loadsObject (spliced "qe_identity") "spliced"
    isObject_nestedTcbInfo isObject_nestedQeIdentity (by decide +kernel)
  have hloads : loadsObject (spliced "\"").assembleCollateral = .ok () := by decide +kernel
  have hloadsKey : loadsObject (spliced "qe_identity").assembleCollateral = .ok () := by
    decide +kernel
  refine ⟨?_, ?_, ?_⟩
  · rw [htcb, if_neg (by decide +kernel)]
    rfl
  · rw [hverify, hloads, if_neg (by decide +kernel), if_neg (by decide +kernel)]
    rfl
  · rw [hkey, hloadsKey, if_neg (by decide +kernel), if_pos (by decide +kernel)]
    rfl

end DcapVerify.Differ
