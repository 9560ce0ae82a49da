import DcapVerify.Proof.Evidence
import DcapVerify.Lib.Dotted
import DcapVerify.Lib.Fields

/-!
# The two walks over the SGX extension

The extension is a sequence of (identifier, value) entries, one of which holds a sequence
of the same shape. Each walk skips what it does not recognise, refuses a recognised value
of the wrong kind, and otherwise stores it. An identifier is compared as text; what is
shown first is that this is a comparison of arcs, so that a deeper identifier is never
taken for the one it extends.
-/

namespace DcapVerify

/-! ## What an entry is recognised by -/

/-- The arcs of the SGX extension. -/
def sgxArcs : List Nat := [1, 2, 840, 113741, 1, 13, 1]

def tcbArcs : List Nat := sgxArcs ++ [2]

def pceIdArcs : List Nat := sgxArcs ++ [3]

def fmspcArcs : List Nat := sgxArcs ++ [4]

/-- Components are numbered from 1. -/
def componentArcs (k : Fin 16) : List Nat := sgxArcs ++ [2, k.val + 1]

def pcesvnArcs : List Nat := sgxArcs ++ [2, 17]

/-- What the outer walk looks for. -/
def extensionFields : List (List Nat) := [tcbArcs, pceIdArcs, fmspcArcs]

/-- What the inner walk looks for. -/
def tcbFields : List (List Nat) := pcesvnArcs :: (List.finRange 16).map componentArcs

/-- The identifier and the value of an entry: of a sequence of two or more elements that begins
with an identifier. -/
def entryField (entry : BerObject) : Option (List Nat × BerObject) :=
  match entry.asSequence with
  | .ok (oidObj :: value :: _) => oidObj.asOid.map fun oid => (oid.arcs, value)
  | _ => none

/-- The value an entry stores under `arcs`. -/
def valueUnder (arcs : List Nat) (entry : BerObject) : Option BerObject :=
  (entryField entry).bind fun field => if field.1 = arcs then some field.2 else none

theorem valueUnder_eq_some {arcs : List Nat} {entry value : BerObject} :
    valueUnder arcs entry = some value ↔ entryField entry = some (arcs, value) := by
  cases h : entryField entry with
  | none => simp [valueUnder, h]
  | some field =>
      rw [valueUnder, h, Option.bind_some, Option.some.injEq, Prod.ext_iff]
      by_cases heq : field.1 = arcs
      · rw [if_pos heq, Option.some.injEq, and_iff_right heq]
      · rw [if_neg heq]
        refine ⟨fun hv => ?_, fun hv => absurd hv.1 heq⟩
        cases hv

/-- An entry stores under one identifier only. -/
theorem valueUnder_eq_none {arcs arcs' : List Nat} {entry value : BerObject}
    (h : valueUnder arcs entry = some value) (hne : arcs ≠ arcs') :
    valueUnder arcs' entry = none := by
  rw [valueUnder, valueUnder_eq_some.mp h, Option.bind_some, if_neg hne]

/-! ## From the text of an identifier to its arcs -/

theorem stripPrefix_eq_some {s pre rest : String} :
    stripPrefix s pre = some rest ↔ s.toList = pre.toList ++ rest.toList := by
  rw [stripPrefix, Option.map_eq_some_iff]
  refine ⟨fun h => ?_, fun h => ?_⟩
  · obtain ⟨cs, hcs, rfl⟩ := h
    rw [String.toList_ofList]
    obtain ⟨front, happ, hfront⟩ := List.dropPrefix?_eq_some_iff.mp hcs
    rw [happ, eq_of_beq hfront]
  · exact ⟨rest.toList, List.dropPrefix?_eq_some_iff.mpr ⟨_, h, beq_self_eq_true _⟩,
      String.ofList_toList⟩

theorem toList_toIdString (oid : Oid) : oid.toIdString.toList = Dotted.render oid.arcs := by
  have hdigits : String.toList ∘ toString = Nat.toDigits 10 := by
    funext n
    exact Nat.toList_repr
  rw [Oid.toIdString, String.toList_intercalate, List.map_map, Dotted.render, hdigits]
  rfl

theorem stripPrefix_toIdString {oid : Oid} {pre rest : String} {arcs : List Nat} (hne : arcs ≠ [])
    (hpre : pre.toList = Dotted.render arcs ++ ['.']) :
    stripPrefix oid.toIdString pre = some rest ↔
      ∃ tail, tail ≠ [] ∧ oid.arcs = arcs ++ tail ∧ rest.toList = Dotted.render tail := by
  rw [stripPrefix_eq_some, toList_toIdString, hpre, List.append_assoc, List.singleton_append]
  exact Dotted.render_eq_append_iff hne

theorem digitsValue_eq (cs : List Char) (acc : Nat) :
    digitsValue cs acc =
      if cs.all Char.isDigit then some (Nat.ofDigitChars 10 cs acc) else none := by
  induction cs generalizing acc with
  | nil => simp [digitsValue]
  | cons c cs ih =>
      rw [digitsValue, ih, Nat.ofDigitChars_cons, List.all_cons]
      by_cases hc : c.isDigit = true
      · simp [hc]
      · simp [hc]

/-- Of a text that starts with a digit, `parse` reads the digits. -/
theorem parseUsize_eq {s : String} {c : Char} {cs : List Char} (h : s.toList = c :: cs)
    (hc : c.isDigit = true) :
    parseUsize s = if s.toList.all Char.isDigit ∧ Nat.ofDigitChars 10 s.toList 0 < 2 ^ 64 then
      some (Nat.ofDigitChars 10 s.toList 0) else none := by
  have hplus : c ≠ '+' := by
    rintro rfl
    exact absurd hc (by decide)
  have hempty : s.toList.isEmpty = false := by
    rw [h]
    rfl
  unfold parseUsize
  split
  · rename_i heq
    exact absurd (List.cons.inj (h.symm.trans heq)).1 hplus
  · simp only [hempty, Bool.false_eq_true, if_false, digitsValue_eq]
    by_cases hall : s.toList.all Char.isDigit = true
    · rw [if_pos hall, Option.bind_eq_bind, Option.bind_some]
      simp only [and_iff_right hall]
    · rw [if_neg hall, if_neg fun hgood => hall hgood.1]
      rfl

/-- The index an inner identifier is given by the text after the TCB prefix. -/
theorem parseUsize_render {s : String} {tail : List Nat} (hne : tail ≠ [])
    (h : s.toList = Dotted.render tail) {n : Nat} :
    parseUsize s = some n ↔ tail = [n] ∧ n < 2 ^ 64 := by
  obtain ⟨c, cs, hcs, hc⟩ := Dotted.head_isDigit hne
  rw [parseUsize_eq (h.trans hcs) hc, h]
  refine ⟨fun hn => ?_, fun hn => ?_⟩
  · split at hn
    · rename_i hgood
      have hdot : '.' ∉ Dotted.render tail := by
        intro hmem
        exact absurd (List.all_eq_true.mp hgood.1 _ hmem) (by decide)
      obtain ⟨m, rfl⟩ := Dotted.exists_singleton_of_dot_notMem hne hdot
      rw [Dotted.render_singleton, Nat.ofDigitChars_ten_toDigits, Option.some.injEq] at hn
      rw [Dotted.render_singleton, Nat.ofDigitChars_ten_toDigits] at hgood
      exact ⟨by rw [hn], hn ▸ hgood.2⟩
    · cases hn
  · obtain ⟨rfl, hlt⟩ := hn
    rw [Dotted.render_singleton, Nat.ofDigitChars_ten_toDigits,
      if_pos ⟨List.all_eq_true.mpr fun _ hmem => Dotted.isDigit_of_mem_toDigits hmem, hlt⟩]

/-- The outer walk matches the last arc of an identifier. -/
theorem extensionSuffix_eq_some {oid : Oid} {s : String} {n : Nat}
    (hs : s.toList = Nat.toDigits 10 n) :
    stripPrefix oid.toIdString "1.2.840.113741.1.13.1." = some s ↔ oid.arcs = sgxArcs ++ [n] := by
  have hne : sgxArcs ≠ [] := by decide
  have hpre : "1.2.840.113741.1.13.1.".toList = Dotted.render sgxArcs ++ ['.'] := by decide
  rw [stripPrefix_toIdString hne hpre, hs]
  refine ⟨fun h => ?_, fun h => ?_⟩
  · obtain ⟨tail, htail, harcs, hrest⟩ := h
    rw [harcs, (Dotted.render_eq_toDigits htail).mp hrest.symm]
  · exact ⟨[n], List.cons_ne_nil _ _, h, (Dotted.render_singleton n).symm⟩

/-- The inner walk reads the last arc of an identifier as a number, and no deeper one. -/
theorem tcbIndex_eq_some {oid : Oid} {i : Nat} :
    (stripPrefix oid.toIdString "1.2.840.113741.1.13.1.2.").bind parseUsize = some i ↔
      oid.arcs = sgxArcs ++ [2, i] ∧ i < 2 ^ 64 := by
  have hne : tcbArcs ≠ [] := by decide
  have hpre : "1.2.840.113741.1.13.1.2.".toList = Dotted.render tcbArcs ++ ['.'] := by decide
  have hsplit : sgxArcs ++ [2, i] = tcbArcs ++ [i] := rfl
  rw [Option.bind_eq_some_iff, hsplit]
  refine ⟨fun h => ?_, fun h => ?_⟩
  · obtain ⟨rest, hstrip, hparse⟩ := h
    obtain ⟨tail, htail, harcs, hrest⟩ := (stripPrefix_toIdString hne hpre).mp hstrip
    obtain ⟨rfl, hlt⟩ := (parseUsize_render htail hrest).mp hparse
    exact ⟨harcs, hlt⟩
  · obtain ⟨harcs, hlt⟩ := h
    have hrest : (String.ofList (Dotted.render [i])).toList = Dotted.render [i] :=
      String.toList_ofList
    exact ⟨String.ofList (Dotted.render [i]),
      (stripPrefix_toIdString hne hpre).mpr ⟨[i], List.cons_ne_nil _ _, harcs, hrest⟩,
      (parseUsize_render (List.cons_ne_nil _ _) hrest).mpr ⟨rfl, hlt⟩⟩

/-! ## One round of the inner walk -/

theorem entryField_eq_some {entry value : BerObject} {arcs : List Nat}
    (h : entryField entry = some (arcs, value)) :
    ∃ oidObj rest oid, entry.asSequence = .ok (oidObj :: value :: rest) ∧
      oidObj.asOid = some oid ∧ oid.arcs = arcs := by
  unfold entryField at h
  split at h
  · rename_i oidObj v rest hseq
    obtain ⟨oid, hoid, heq⟩ := Option.map_eq_some_iff.mp h
    cases heq
    exact ⟨oidObj, rest, oid, hseq, hoid, rfl⟩
  · cases h

theorem tcbEntry_component (slots : PckSlots) {k : Fin 16} {entry value : BerObject}
    (h : valueUnder (componentArcs k) entry = some value) :
    tcbEntry slots entry =
      (okOrReject value.asU32 (badExtension "a TCB component SVN is not a small integer")).map
        fun svn => { slots with compSvns := slots.compSvns.set k (some svn) } := by
  obtain ⟨oidObj, rest, oid, hseq, hoid, harcs⟩ := entryField_eq_some (valueUnder_eq_some.mp h)
  have hlt : k.val + 1 < 2 ^ 64 := by omega
  have hbound : 1 ≤ k.val + 1 ∧ k.val + 1 ≤ 16 := by omega
  have hset : ∀ svn : UInt32, setAt slots.compSvns (k.val + 1 - 1) (some svn) =
      .ok (slots.compSvns.set k (some svn)) := fun svn => dif_pos k.isLt
  unfold tcbEntry
  rw [hseq]
  simp only [hoid]
  rw [tcbIndex_eq_some.mpr ⟨harcs, hlt⟩]
  simp only [if_pos hbound, hset, Checks.ok_bind]
  rfl

theorem tcbEntry_pcesvn (slots : PckSlots) {entry value : BerObject}
    (h : valueUnder pcesvnArcs entry = some value) :
    tcbEntry slots entry =
      (okOrReject value.asU32 (badExtension "PCESVN is not a small integer")).map
        fun svn => { slots with pcesvn := some svn } := by
  obtain ⟨oidObj, rest, oid, hseq, hoid, harcs⟩ := entryField_eq_some (valueUnder_eq_some.mp h)
  unfold tcbEntry
  rw [hseq]
  simp only [hoid]
  rw [tcbIndex_eq_some.mpr ⟨harcs, by decide⟩]
  rfl

/-- Whatever else is stepped over. -/
theorem tcbEntry_skip (slots : PckSlots) {entry : BerObject}
    (h : ∀ arcs ∈ tcbFields, valueUnder arcs entry = none) : tcbEntry slots entry = .ok slots := by
  unfold tcbEntry
  split
  · rename_i oidObj value rest hseq
    split
    · rename_i oid hoid
      have hfield : entryField entry = some (oid.arcs, value) := by
        rw [entryField, hseq]
        simp [hoid]
      have hnot : oid.arcs ∉ tcbFields := by
        intro hmem
        have hnone := h _ hmem
        rw [valueUnder_eq_some.mpr hfield] at hnone
        cases hnone
      split
      · rename_i i hindex
        obtain ⟨harcs, _⟩ := tcbIndex_eq_some.mp hindex
        have hrange : ¬ (1 ≤ i ∧ i ≤ 16) := by
          intro hi
          refine hnot (List.mem_cons_of_mem _ (List.mem_map.mpr ⟨⟨i - 1, by omega⟩,
            List.mem_finRange _, ?_⟩))
          have hsucc : i - 1 + 1 = i := by omega
          rw [harcs, componentArcs, hsucc]
        have hpce : i ≠ 17 := by
          rintro rfl
          exact hnot (harcs ▸ List.mem_cons_self ..)
        rw [if_neg hrange, if_neg hpce]
        rfl
      · rfl
    · rfl
  · rfl

/-- An inner entry stores a component, stores the PCESVN, or is not recognised. -/
theorem tcbField_cases (entry : BerObject) :
    (∃ k value, valueUnder (componentArcs k) entry = some value) ∨
    (∃ value, valueUnder pcesvnArcs entry = some value) ∨
    ∀ arcs ∈ tcbFields, valueUnder arcs entry = none := by
  by_cases hskip : ∀ arcs ∈ tcbFields, valueUnder arcs entry = none
  · exact .inr (.inr hskip)
  · push Not at hskip
    obtain ⟨arcs, hmem, hsome⟩ := hskip
    obtain ⟨value, hvalue⟩ := Option.ne_none_iff_exists'.mp hsome
    rcases List.mem_cons.mp hmem with rfl | hmem
    · exact .inr (.inl ⟨value, hvalue⟩)
    · obtain ⟨k, _, rfl⟩ := List.mem_map.mp hmem
      exact .inl ⟨k, value, hvalue⟩

/-- What a round of the inner walk can do. -/
theorem tcbEntry_cases {slots slots' : PckSlots} {entry : BerObject}
    (h : tcbEntry slots entry = .ok slots') :
    (∃ k value svn, valueUnder (componentArcs k) entry = some value ∧ value.asU32 = some svn ∧
      slots' = { slots with compSvns := slots.compSvns.set k (some svn) }) ∨
    (∃ value svn, valueUnder pcesvnArcs entry = some value ∧ value.asU32 = some svn ∧
      slots' = { slots with pcesvn := some svn }) ∨
    ((∀ arcs ∈ tcbFields, valueUnder arcs entry = none) ∧ slots' = slots) := by
  rcases tcbField_cases entry with ⟨k, value, hvalue⟩ | ⟨value, hvalue⟩ | hskip
  · rw [tcbEntry_component slots hvalue] at h
    obtain ⟨svn, hsvn, rfl⟩ := Checks.map_eq_ok.mp h
    exact .inl ⟨k, value, svn, hvalue, okOrReject_eq_ok.mp hsvn, rfl⟩
  · rw [tcbEntry_pcesvn slots hvalue] at h
    obtain ⟨svn, hsvn, rfl⟩ := Checks.map_eq_ok.mp h
    exact .inr (.inl ⟨value, svn, hvalue, okOrReject_eq_ok.mp hsvn, rfl⟩)
  · rw [tcbEntry_skip slots hskip] at h
    exact .inr (.inr ⟨hskip, (Except.ok.inj h).symm⟩)

theorem componentArcs_injective : Function.Injective componentArcs := by
  intro k k' h
  simpa [componentArcs, Fin.ext_iff] using h

theorem componentArcs_ne_pcesvnArcs (k : Fin 16) : componentArcs k ≠ pcesvnArcs := by
  intro h
  have hk : k.val + 1 = 17 := by simpa [componentArcs, pcesvnArcs] using h
  omega

theorem componentArcs_mem (k : Fin 16) : componentArcs k ∈ tcbFields :=
  List.mem_cons_of_mem _ (List.mem_map_of_mem (List.mem_finRange k))

theorem pcesvnArcs_mem : pcesvnArcs ∈ tcbFields := List.mem_cons_self ..

/-- The values of an inner entry are small integers. -/
def Integral (entry : BerObject) : Prop :=
  ∀ arcs ∈ tcbFields, ∀ value, valueUnder arcs entry = some value → value.asU32.isSome

/-- A round goes through when the value it recognises is a small integer. -/
theorem tcbEntry_admits : Fields.Admits tcbEntry Integral := by
  intro slots entry
  refine ⟨fun h => ?_, fun h => ?_⟩
  · obtain ⟨slots', h⟩ := h
    intro arcs hmem value hvalue
    have hone : ∀ {arcs'} {value' : BerObject} {svn : UInt32},
        valueUnder arcs' entry = some value' → value'.asU32 = some svn → value.asU32.isSome := by
      intro arcs' value' svn hvalue' hsvn
      have heq := (valueUnder_eq_some.mp hvalue).symm.trans (valueUnder_eq_some.mp hvalue')
      obtain ⟨_, rfl⟩ := Prod.mk.inj (Option.some.inj heq)
      rw [hsvn]
      rfl
    rcases tcbEntry_cases h with ⟨k, value', svn, hvalue', hsvn, _⟩ |
      ⟨value', svn, hvalue', hsvn, _⟩ | ⟨hskip, _⟩
    · exact hone hvalue' hsvn
    · exact hone hvalue' hsvn
    · rw [hskip arcs hmem] at hvalue
      cases hvalue
  · rcases tcbField_cases entry with ⟨k, value, hvalue⟩ | ⟨value, hvalue⟩ | hskip
    · obtain ⟨svn, hsvn⟩ :=
        Option.isSome_iff_exists.mp (h _ (componentArcs_mem k) value hvalue)
      rw [tcbEntry_component slots hvalue, hsvn]
      exact ⟨_, rfl⟩
    · obtain ⟨svn, hsvn⟩ := Option.isSome_iff_exists.mp (h _ pcesvnArcs_mem value hvalue)
      rw [tcbEntry_pcesvn slots hvalue, hsvn]
      exact ⟨_, rfl⟩
    · exact ⟨slots, tcbEntry_skip slots hskip⟩

/-! ## What the inner walk stores -/

/-- What an entry tries to store in the field of `arcs`. -/
def attempts {α : Type} (arcs : List Nat) (dec : BerObject → Option α) (entry : BerObject) :
    List (Option α) :=
  (valueUnder arcs entry).toList.map dec

theorem attempts_of_some {α : Type} {arcs : List Nat} {dec : BerObject → Option α}
    {entry value : BerObject} (h : valueUnder arcs entry = some value) :
    attempts arcs dec entry = [dec value] := by
  rw [attempts, h]
  rfl

theorem attempts_of_none {α : Type} {arcs : List Nat} {dec : BerObject → Option α}
    {entry : BerObject} (h : valueUnder arcs entry = none) : attempts arcs dec entry = [] := by
  rw [attempts, h]
  rfl

theorem tcbEntry_fills_component (k : Fin 16) : Fields.Fills tcbEntry
    (fun slots => slots.compSvns.get k) (attempts (componentArcs k) BerObject.asU32) := by
  intro slots entry slots' h
  rcases tcbEntry_cases h with ⟨k', value, svn, hvalue, hsvn, rfl⟩ |
    ⟨value, svn, hvalue, _, rfl⟩ | ⟨hskip, rfl⟩
  · by_cases hk : k' = k
    · subst hk
      rw [attempts_of_some hvalue, hsvn]
      exact List.Vector.get_set_same ..
    · have hne : componentArcs k' ≠ componentArcs k := fun heq => hk (componentArcs_injective heq)
      rw [attempts_of_none (valueUnder_eq_none hvalue hne)]
      exact List.Vector.get_set_of_ne hk _
  · rw [attempts_of_none (valueUnder_eq_none hvalue (componentArcs_ne_pcesvnArcs k).symm)]
    rfl
  · rw [attempts_of_none (hskip _ (componentArcs_mem k))]
    rfl

theorem tcbEntry_fills_pcesvn : Fields.Fills tcbEntry (fun slots => slots.pcesvn)
    (attempts pcesvnArcs BerObject.asU32) := by
  intro slots entry slots' h
  rcases tcbEntry_cases h with ⟨k, value, svn, hvalue, _, rfl⟩ |
    ⟨value, svn, hvalue, hsvn, rfl⟩ | ⟨hskip, rfl⟩
  · rw [attempts_of_none (valueUnder_eq_none hvalue (componentArcs_ne_pcesvnArcs k))]
    rfl
  · rw [attempts_of_some hvalue, hsvn]
    rfl
  · rw [attempts_of_none (hskip _ pcesvnArcs_mem)]
    rfl

/-- The inner walk leaves the outer fields alone. -/
theorem tcbEntry_keeps_fmspc : Fields.Fills tcbEntry (fun slots => slots.fmspc) fun _ => [] := by
  intro slots entry slots' h
  rcases tcbEntry_cases h with ⟨_, _, _, _, _, rfl⟩ | ⟨_, _, _, _, rfl⟩ | ⟨_, rfl⟩
  · rfl
  · rfl
  · rfl

theorem tcbEntry_keeps_pceId : Fields.Fills tcbEntry (fun slots => slots.pceId) fun _ => [] := by
  intro slots entry slots' h
  rcases tcbEntry_cases h with ⟨_, _, _, _, _, rfl⟩ | ⟨_, _, _, _, rfl⟩ | ⟨_, rfl⟩
  · rfl
  · rfl
  · rfl

/-! ## One round of the outer walk -/

/-- A byte string of length `n`. -/
def octetsOf (n : Nat) (value : BerObject) : Option (U8Array n) := value.asSlice.bind (tryInto n)

/-- Two checks that read one value go through together. -/
theorem okOrReject_octetsOf {n : Nat} {value : BerObject} {e e' : VerifyError} {σ : Type}
    {f : U8Array n → σ} {s : σ} :
    ((okOrReject value.asSlice e) >>= fun bytes =>
      (okOrReject (tryInto n bytes) e') >>= fun a => pure (f a)) = .ok s ↔
      ∃ a, octetsOf n value = some a ∧ f a = s := by
  simp only [octetsOf, Checks.bind_eq_ok, okOrReject_eq_ok, Checks.pure_eq_ok,
    Option.bind_eq_some_iff]
  refine ⟨fun h => ?_, fun h => ?_⟩
  · obtain ⟨bytes, hbytes, a, ha, rfl⟩ := h
    exact ⟨a, ⟨bytes, hbytes, ha⟩, rfl⟩
  · obtain ⟨a, ⟨bytes, hbytes, ha⟩, rfl⟩ := h
    exact ⟨bytes, hbytes, a, ha, rfl⟩

theorem extensionEntry_pceId (slots : PckSlots) {entry value : BerObject}
    (h : valueUnder pceIdArcs entry = some value) :
    extensionEntry slots entry = (do
      let bytes ← okOrReject value.asSlice (badExtension "PCE-ID is not a byte string")
      let pceId ← okOrReject (tryInto 2 bytes) (badExtension "PCE-ID is not 2 bytes")
      pure { slots with pceId := some pceId }) := by
  obtain ⟨oidObj, rest, oid, hseq, hoid, harcs⟩ := entryField_eq_some (valueUnder_eq_some.mp h)
  have h3 : stripPrefix oid.toIdString "1.2.840.113741.1.13.1." = some "3" :=
    (extensionSuffix_eq_some (n := 3) (by decide)).mpr harcs
  unfold extensionEntry
  rw [hseq]
  simp only [hoid, h3, if_true]

theorem extensionEntry_fmspc (slots : PckSlots) {entry value : BerObject}
    (h : valueUnder fmspcArcs entry = some value) :
    extensionEntry slots entry = (do
      let bytes ← okOrReject value.asSlice (badExtension "FMSPC is not a byte string")
      let fmspc ← okOrReject (tryInto 6 bytes) (badExtension "FMSPC is not 6 bytes")
      pure { slots with fmspc := some fmspc }) := by
  obtain ⟨oidObj, rest, oid, hseq, hoid, harcs⟩ := entryField_eq_some (valueUnder_eq_some.mp h)
  have h4 : stripPrefix oid.toIdString "1.2.840.113741.1.13.1." = some "4" :=
    (extensionSuffix_eq_some (n := 4) (by decide)).mpr harcs
  have hne : ¬ some "4" = some "3" := by decide
  unfold extensionEntry
  rw [hseq]
  simp only [hoid, h4, if_neg hne, if_true]

theorem extensionEntry_tcb (slots : PckSlots) {entry value : BerObject}
    (h : valueUnder tcbArcs entry = some value) :
    extensionEntry slots entry = (do
      let tcbEntries ← orReject value.asSequence fun _ => badExtension "TCB field is not a sequence"
      tcbEntries.foldlM tcbEntry slots) := by
  obtain ⟨oidObj, rest, oid, hseq, hoid, harcs⟩ := entryField_eq_some (valueUnder_eq_some.mp h)
  have h2 : stripPrefix oid.toIdString "1.2.840.113741.1.13.1." = some "2" :=
    (extensionSuffix_eq_some (n := 2) (by decide)).mpr harcs
  have hne3 : ¬ some "2" = some "3" := by decide
  have hne4 : ¬ some "2" = some "4" := by decide
  unfold extensionEntry
  rw [hseq]
  simp only [hoid, h2, if_neg hne3, if_neg hne4, if_true]

/-- Whatever else is stepped over. -/
theorem extensionEntry_skip (slots : PckSlots) {entry : BerObject}
    (h : ∀ arcs ∈ extensionFields, valueUnder arcs entry = none) :
    extensionEntry slots entry = .ok slots := by
  unfold extensionEntry
  split
  · rename_i oidObj value rest hseq
    split
    · rename_i oid hoid
      have hfield : entryField entry = some (oid.arcs, value) := by
        rw [entryField, hseq]
        simp [hoid]
      have hnot : oid.arcs ∉ extensionFields := by
        intro hmem
        have hnone := h _ hmem
        rw [valueUnder_eq_some.mpr hfield] at hnone
        cases hnone
      have h3 : ¬ stripPrefix oid.toIdString "1.2.840.113741.1.13.1." = some "3" := by
        rw [extensionSuffix_eq_some (n := 3) (by decide)]
        exact fun harcs => hnot (harcs ▸ by decide)
      have h4 : ¬ stripPrefix oid.toIdString "1.2.840.113741.1.13.1." = some "4" := by
        rw [extensionSuffix_eq_some (n := 4) (by decide)]
        exact fun harcs => hnot (harcs ▸ by decide)
      have h2 : ¬ stripPrefix oid.toIdString "1.2.840.113741.1.13.1." = some "2" := by
        rw [extensionSuffix_eq_some (n := 2) (by decide)]
        exact fun harcs => hnot (harcs ▸ by decide)
      simp only [if_neg h3, if_neg h4, if_neg h2]
      rfl
    · rfl
  · rfl

/-- An outer entry stores one of the three fields, or is not recognised. -/
theorem extensionField_cases (entry : BerObject) :
    (∃ value, valueUnder pceIdArcs entry = some value) ∨
    (∃ value, valueUnder fmspcArcs entry = some value) ∨
    (∃ value, valueUnder tcbArcs entry = some value) ∨
    ∀ arcs ∈ extensionFields, valueUnder arcs entry = none := by
  by_cases hskip : ∀ arcs ∈ extensionFields, valueUnder arcs entry = none
  · exact .inr (.inr (.inr hskip))
  · push Not at hskip
    obtain ⟨arcs, hmem, hsome⟩ := hskip
    obtain ⟨value, hvalue⟩ := Option.ne_none_iff_exists'.mp hsome
    simp only [extensionFields, List.mem_cons, List.not_mem_nil, or_false] at hmem
    rcases hmem with rfl | rfl | rfl
    · exact .inr (.inr (.inl ⟨value, hvalue⟩))
    · exact .inl ⟨value, hvalue⟩
    · exact .inr (.inl ⟨value, hvalue⟩)

/-- What a round of the outer walk can do. -/
theorem extensionEntry_cases {slots slots' : PckSlots} {entry : BerObject}
    (h : extensionEntry slots entry = .ok slots') :
    (∃ value pceId, valueUnder pceIdArcs entry = some value ∧ octetsOf 2 value = some pceId ∧
      slots' = { slots with pceId := some pceId }) ∨
    (∃ value fmspc, valueUnder fmspcArcs entry = some value ∧ octetsOf 6 value = some fmspc ∧
      slots' = { slots with fmspc := some fmspc }) ∨
    (∃ value tcbEntries, valueUnder tcbArcs entry = some value ∧
      value.asSequence = .ok tcbEntries ∧ tcbEntries.foldlM tcbEntry slots = .ok slots') ∨
    ((∀ arcs ∈ extensionFields, valueUnder arcs entry = none) ∧ slots' = slots) := by
  rcases extensionField_cases entry with ⟨value, hvalue⟩ | ⟨value, hvalue⟩ | ⟨value, hvalue⟩ | hskip
  · rw [extensionEntry_pceId slots hvalue, okOrReject_octetsOf] at h
    obtain ⟨pceId, hpceId, rfl⟩ := h
    exact .inl ⟨value, pceId, hvalue, hpceId, rfl⟩
  · rw [extensionEntry_fmspc slots hvalue, okOrReject_octetsOf] at h
    obtain ⟨fmspc, hfmspc, rfl⟩ := h
    exact .inr (.inl ⟨value, fmspc, hvalue, hfmspc, rfl⟩)
  · rw [extensionEntry_tcb slots hvalue] at h
    obtain ⟨tcbEntries, hseq, hrun⟩ := Checks.bind_eq_ok.mp h
    exact .inr (.inr (.inl ⟨value, tcbEntries, hvalue, orReject_eq_ok.mp hseq, hrun⟩))
  · rw [extensionEntry_skip slots hskip] at h
    exact .inr (.inr (.inr ⟨hskip, (Except.ok.inj h).symm⟩))

/-- The inner entries an outer entry holds. -/
def innerEntries (entry : BerObject) : List BerObject :=
  ((valueUnder tcbArcs entry).bind fun value => value.asSequence.toOption).getD []

theorem innerEntries_of_some {entry value : BerObject} {xs : List BerObject}
    (h : valueUnder tcbArcs entry = some value) (hseq : value.asSequence = .ok xs) :
    innerEntries entry = xs := by
  rw [innerEntries, h, Option.bind_some, hseq]
  rfl

theorem innerEntries_of_none {entry : BerObject} (h : valueUnder tcbArcs entry = none) :
    innerEntries entry = [] := by
  rw [innerEntries, h]
  rfl

/-- A round of the outer walk goes through when what it recognises is of its kind, at both
levels. -/
theorem extensionEntry_admits : Fields.Admits extensionEntry fun entry =>
    (∀ value, valueUnder pceIdArcs entry = some value → (octetsOf 2 value).isSome) ∧
    (∀ value, valueUnder fmspcArcs entry = some value → (octetsOf 6 value).isSome) ∧
    (∀ value, valueUnder tcbArcs entry = some value →
      ∃ xs, value.asSequence = .ok xs ∧ ∀ x ∈ xs, Integral x) := by
  intro slots entry
  rcases extensionField_cases entry with ⟨value, hvalue⟩ | ⟨value, hvalue⟩ | ⟨value, hvalue⟩ | hskip
  · have htcb := valueUnder_eq_none hvalue (show pceIdArcs ≠ tcbArcs by decide)
    have hfmspc := valueUnder_eq_none hvalue (show pceIdArcs ≠ fmspcArcs by decide)
    simp only [extensionEntry_pceId slots hvalue, okOrReject_octetsOf]
    simp [hvalue, htcb, hfmspc, Option.isSome_iff_exists]
  · have htcb := valueUnder_eq_none hvalue (show fmspcArcs ≠ tcbArcs by decide)
    have hpce := valueUnder_eq_none hvalue (show fmspcArcs ≠ pceIdArcs by decide)
    simp only [extensionEntry_fmspc slots hvalue, okOrReject_octetsOf]
    simp [hvalue, htcb, hpce, Option.isSome_iff_exists]
  · have hpce := valueUnder_eq_none hvalue (show tcbArcs ≠ pceIdArcs by decide)
    have hfmspc := valueUnder_eq_none hvalue (show tcbArcs ≠ fmspcArcs by decide)
    simp only [extensionEntry_tcb slots hvalue, Checks.bind_eq_ok, orReject_eq_ok, hvalue, hpce,
      hfmspc, Option.some.injEq, forall_eq', reduceCtorEq, false_imp_iff, implies_true, true_and]
    rw [exists_comm]
    refine exists_congr fun xs => ?_
    rw [exists_and_left, tcbEntry_admits.foldlM]
  · have hpce := hskip pceIdArcs (by decide)
    have hfmspc := hskip fmspcArcs (by decide)
    have htcb := hskip tcbArcs (by decide)
    simp [extensionEntry_skip slots hskip, hpce, hfmspc, htcb]

/-! ## What the outer walk stores -/

theorem extensionEntry_fills_pceId : Fields.Fills extensionEntry (fun slots => slots.pceId)
    (attempts pceIdArcs (octetsOf 2)) := by
  intro slots entry slots' h
  rcases extensionEntry_cases h with ⟨value, pceId, hvalue, hpceId, rfl⟩ |
    ⟨value, fmspc, hvalue, _, rfl⟩ | ⟨value, xs, hvalue, _, hrun⟩ | ⟨hskip, rfl⟩
  · rw [attempts_of_some hvalue, hpceId]
    rfl
  · rw [attempts_of_none (valueUnder_eq_none hvalue (by decide))]
    rfl
  · rw [attempts_of_none (valueUnder_eq_none hvalue (by decide))]
    exact tcbEntry_keeps_pceId.foldlM_nil hrun
  · rw [attempts_of_none (hskip _ (by decide))]
    rfl

theorem extensionEntry_fills_fmspc : Fields.Fills extensionEntry (fun slots => slots.fmspc)
    (attempts fmspcArcs (octetsOf 6)) := by
  intro slots entry slots' h
  rcases extensionEntry_cases h with ⟨value, pceId, hvalue, _, rfl⟩ |
    ⟨value, fmspc, hvalue, hfmspc, rfl⟩ | ⟨value, xs, hvalue, _, hrun⟩ | ⟨hskip, rfl⟩
  · rw [attempts_of_none (valueUnder_eq_none hvalue (by decide))]
    rfl
  · rw [attempts_of_some hvalue, hfmspc]
    rfl
  · rw [attempts_of_none (valueUnder_eq_none hvalue (by decide))]
    exact tcbEntry_keeps_fmspc.foldlM_nil hrun
  · rw [attempts_of_none (hskip _ (by decide))]
    rfl

/-- A field of the inner walk is filled, over the outer one, from all the inner entries. -/
theorem extensionEntry_fills_inner {get : PckSlots → Option UInt32}
    {written : BerObject → List (Option UInt32)} (h : Fields.Fills tcbEntry get written)
    (hpceId : ∀ slots pceId, get { slots with pceId := pceId } = get slots)
    (hfmspc : ∀ slots fmspc, get { slots with fmspc := fmspc } = get slots) :
    Fields.Fills extensionEntry get fun entry => (innerEntries entry).flatMap written := by
  intro slots entry slots' hround
  rcases extensionEntry_cases hround with ⟨value, pceId, hvalue, _, rfl⟩ |
    ⟨value, fmspc, hvalue, _, rfl⟩ | ⟨value, xs, hvalue, hseq, hrun⟩ | ⟨hskip, rfl⟩
  · have hnone := valueUnder_eq_none hvalue (show pceIdArcs ≠ tcbArcs by decide)
    simp only [innerEntries_of_none hnone, hpceId]
    rfl
  · have hnone := valueUnder_eq_none hvalue (show fmspcArcs ≠ tcbArcs by decide)
    simp only [innerEntries_of_none hnone, hfmspc]
    rfl
  · simp only [innerEntries_of_some hvalue hseq]
    exact h.foldlM hrun
  · simp only [innerEntries_of_none (hskip tcbArcs (by decide))]
    rfl

end DcapVerify
