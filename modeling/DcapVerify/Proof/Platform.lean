import DcapVerify.Proof.Extension
import DcapVerify.Synthetic

/-!
# The platform of a PCK certificate

What extraction returns, told apart from how it walks: each number is the last value
stored under the identifier reserved for it, and none is defaulted. An entry that is not
reserved for anything might as well not be there, and where nothing is stored twice the
order of the entries does not matter.
-/

namespace DcapVerify

/-- The values stored under `arcs`, in order. -/
def valuesUnder (arcs : List Nat) (entries : List BerObject) : List BerObject :=
  entries.filterMap (valueUnder arcs)

theorem mem_valuesUnder {arcs : List Nat} {entries : List BerObject} {value : BerObject} :
    value ∈ valuesUnder arcs entries ↔ ∃ entry ∈ entries, valueUnder arcs entry = some value :=
  List.mem_filterMap

theorem flatMap_attempts {α : Type} (arcs : List Nat) (dec : BerObject → Option α)
    (entries : List BerObject) :
    entries.flatMap (attempts arcs dec) = (valuesUnder arcs entries).map dec := by
  induction entries with
  | nil => rfl
  | cons entry entries ih =>
      rw [List.flatMap_cons, ih, valuesUnder, valuesUnder]
      cases h : valueUnder arcs entry with
      | none => rw [attempts_of_none h, List.filterMap_cons_none h, List.nil_append]
      | some value => rw [attempts_of_some h, List.filterMap_cons_some h]; rfl

/-- The last of `values` decodes to `a`, and each of them decodes. -/
structure Stored {α : Type} (dec : BerObject → Option α) (values : List BerObject) (a : α) :
    Prop where
  readable : ∀ value ∈ values, (dec value).isSome
  last : values.getLast?.bind dec = some a

theorem getLastD_map_none {α : Type} (dec : BerObject → Option α) (values : List BerObject) :
    (values.map dec).getLastD none = values.getLast?.bind dec := by
  rw [List.getLastD_eq_getLast?, List.getLast?_map]
  cases values.getLast? with
  | none => rfl
  | some value => rfl

/-- The entries of every TCB sequence, in order. -/
def tcbEntriesOf (entries : List BerObject) : List BerObject := entries.flatMap innerEntries

/-- Every number of the platform is the one stored under its own identifier. -/
structure Extracted (entries : List BerObject) (tcb : PckPlatformTcb) : Prop where
  fmspc : Stored (octetsOf 6) (valuesUnder fmspcArcs entries) tcb.fmspc
  pceId : Stored (octetsOf 2) (valuesUnder pceIdArcs entries) tcb.pceId
  sequences : ∀ value ∈ valuesUnder tcbArcs entries, ∃ xs, value.asSequence = .ok xs
  components : ∀ k, Stored BerObject.asU32 (valuesUnder (componentArcs k) (tcbEntriesOf entries))
    (tcb.compSvns.get k)
  pcesvn : Stored BerObject.asU32 (valuesUnder pcesvnArcs (tcbEntriesOf entries)) tcb.pcesvn

/-- What `extract_pck_platform_tcb` does with the decoded entries. -/
def platformOf (entries : List BerObject) : Outcome PckPlatformTcb := do
  let slots ← entries.foldlM extensionEntry {}
  let fmspc ← okOrReject slots.fmspc (badExtension "FMSPC missing")
  let pceId ← okOrReject slots.pceId (badExtension "PCE-ID missing")
  let pcesvn ← okOrReject slots.pcesvn (badExtension "PCESVN missing")
  let compSvns ← slots.compSvns.mmap fun svn =>
    okOrReject svn (badExtension "a TCB component SVN is missing")
  pure { fmspc, pceId, compSvns, pcesvn }

/-- What the four slots hold after the walk. -/
theorem slots_of_run {entries : List BerObject} {slots : PckSlots}
    (hrun : entries.foldlM extensionEntry {} = .ok slots) :
    slots.fmspc = (valuesUnder fmspcArcs entries).getLast?.bind (octetsOf 6) ∧
    slots.pceId = (valuesUnder pceIdArcs entries).getLast?.bind (octetsOf 2) ∧
    slots.pcesvn =
      (valuesUnder pcesvnArcs (tcbEntriesOf entries)).getLast?.bind BerObject.asU32 ∧
    ∀ k, slots.compSvns.get k =
      (valuesUnder (componentArcs k) (tcbEntriesOf entries)).getLast?.bind BerObject.asU32 := by
  have hinner : ∀ arcs, (entries.flatMap fun entry => (innerEntries entry).flatMap
      (attempts arcs BerObject.asU32)).getLastD none =
      (valuesUnder arcs (tcbEntriesOf entries)).getLast?.bind BerObject.asU32 := by
    intro arcs
    rw [← List.flatMap_assoc, flatMap_attempts, getLastD_map_none]
    rfl
  have hfmspc := extensionEntry_fills_fmspc.foldlM hrun
  have hpceId := extensionEntry_fills_pceId.foldlM hrun
  have hpcesvn := (extensionEntry_fills_inner tcbEntry_fills_pcesvn (fun _ _ => rfl)
    fun _ _ => rfl).foldlM hrun
  rw [flatMap_attempts] at hfmspc hpceId
  refine ⟨hfmspc.trans (getLastD_map_none ..), hpceId.trans (getLastD_map_none ..),
    hpcesvn.trans (hinner pcesvnArcs), fun k => ?_⟩
  have hcomponent := (extensionEntry_fills_inner (tcbEntry_fills_component k) (fun _ _ => rfl)
    fun _ _ => rfl).foldlM hrun
  have hinit : ({} : PckSlots).compSvns.get k = none := List.Vector.get_replicate ..
  rw [hinit] at hcomponent
  exact hcomponent.trans (hinner (componentArcs k))

/-- The walk goes through exactly when everything recognised is of its kind. -/
theorem run_exists_iff {entries : List BerObject} {slots : PckSlots} :
    (∃ slots', entries.foldlM extensionEntry slots = .ok slots') ↔
      (∀ value ∈ valuesUnder pceIdArcs entries, (octetsOf 2 value).isSome) ∧
      (∀ value ∈ valuesUnder fmspcArcs entries, (octetsOf 6 value).isSome) ∧
      (∀ value ∈ valuesUnder tcbArcs entries, ∃ xs, value.asSequence = .ok xs) ∧
      ∀ arcs ∈ tcbFields, ∀ value ∈ valuesUnder arcs (tcbEntriesOf entries),
        value.asU32.isSome := by
  rw [extensionEntry_admits.foldlM]
  simp only [mem_valuesUnder]
  refine ⟨fun h => ⟨?_, ?_, ?_, ?_⟩, fun h => ?_⟩
  · rintro value ⟨entry, hmem, hvalue⟩
    exact (h entry hmem).1 value hvalue
  · rintro value ⟨entry, hmem, hvalue⟩
    exact (h entry hmem).2.1 value hvalue
  · rintro value ⟨entry, hmem, hvalue⟩
    obtain ⟨xs, hxs, _⟩ := (h entry hmem).2.2 value hvalue
    exact ⟨xs, hxs⟩
  · rintro arcs harcs v ⟨x, hx, hv⟩
    obtain ⟨entry, hmem, hx⟩ := List.mem_flatMap.mp hx
    cases hvalue : valueUnder tcbArcs entry with
    | none =>
        rw [innerEntries_of_none hvalue] at hx
        cases hx
    | some value =>
        obtain ⟨xs, hxs, hall⟩ := (h entry hmem).2.2 value hvalue
        rw [innerEntries_of_some hvalue hxs] at hx
        exact hall x hx arcs harcs v hv
  · obtain ⟨hpceId, hfmspc, hsequences, hinner⟩ := h
    intro entry hmem
    refine ⟨fun value hvalue => hpceId value ⟨entry, hmem, hvalue⟩,
      fun value hvalue => hfmspc value ⟨entry, hmem, hvalue⟩, fun value hvalue => ?_⟩
    obtain ⟨xs, hxs⟩ := hsequences value ⟨entry, hmem, hvalue⟩
    refine ⟨xs, hxs, fun x hx arcs harcs v hv => hinner arcs harcs v ⟨x, ?_, hv⟩⟩
    exact List.mem_flatMap.mpr ⟨entry, hmem, by rwa [innerEntries_of_some hvalue hxs]⟩

/-- **Extraction, exactly.** -/
theorem platformOf_eq_ok {entries : List BerObject} {tcb : PckPlatformTcb} :
    platformOf entries = .ok tcb ↔ Extracted entries tcb := by
  simp only [platformOf, Checks.bind_eq_ok, okOrReject_eq_ok, Checks.pure_eq_ok,
    Fields.mmap_eq_ok]
  refine ⟨fun h => ?_, fun h => ?_⟩
  · obtain ⟨slots, hrun, fmspc, hfmspc, pceId, hpceId, pcesvn, hpcesvn, compSvns, hcomps, rfl⟩ := h
    obtain ⟨hf, hp, hs, hc⟩ := slots_of_run hrun
    obtain ⟨hpReadable, hfReadable, hsequences, hinner⟩ := run_exists_iff.mp ⟨slots, hrun⟩
    exact ⟨⟨hfReadable, hf ▸ hfmspc⟩, ⟨hpReadable, hp ▸ hpceId⟩, hsequences,
      fun k => ⟨hinner _ (componentArcs_mem k), hc k ▸ hcomps k⟩,
      ⟨hinner _ pcesvnArcs_mem, hs ▸ hpcesvn⟩⟩
  · have hinner : ∀ arcs ∈ tcbFields, ∀ value ∈ valuesUnder arcs (tcbEntriesOf entries),
        value.asU32.isSome := by
      intro arcs harcs
      rcases List.mem_cons.mp harcs with rfl | harcs
      · exact h.pcesvn.readable
      · obtain ⟨k, _, rfl⟩ := List.mem_map.mp harcs
        exact (h.components k).readable
    obtain ⟨slots, hrun⟩ := run_exists_iff.mpr
      ⟨h.pceId.readable, h.fmspc.readable, h.sequences, hinner⟩
    obtain ⟨hf, hp, hs, hc⟩ := slots_of_run hrun
    exact ⟨slots, hrun, tcb.fmspc, hf.trans h.fmspc.last, tcb.pceId, hp.trans h.pceId.last,
      tcb.pcesvn, hs.trans h.pcesvn.last, tcb.compSvns, fun k => (hc k).trans (h.components k).last,
      rfl⟩

/-! ## Entries that do not matter -/

/-- An entry that stores under one of `fields`. -/
def Recognised (fields : List (List Nat)) (entry : BerObject) : Prop :=
  ∃ arcs ∈ fields, (valueUnder arcs entry).isSome = true

instance (fields : List (List Nat)) : DecidablePred (Recognised fields) := fun _ =>
  inferInstanceAs (Decidable (∃ _ ∈ _, _))

theorem valueUnder_of_not_recognised {fields : List (List Nat)} {entry : BerObject}
    (h : ¬ Recognised fields entry) : ∀ arcs ∈ fields, valueUnder arcs entry = none := by
  intro arcs hmem
  by_contra hsome
  exact h ⟨arcs, hmem, Option.isSome_iff_ne_none.mpr hsome⟩

/-- Two entries that store the same: the same value under the same identifier, or TCB sequences
whose recognised entries are the same. -/
inductive SameEntry (entry entry' : BerObject) : Prop where
  | value (h : entryField entry = entryField entry')
  | tcb {value value' : BerObject} {xs xs' : List BerObject}
      (hvalue : valueUnder tcbArcs entry = some value)
      (hvalue' : valueUnder tcbArcs entry' = some value')
      (hxs : value.asSequence = .ok xs) (hxs' : value'.asSequence = .ok xs')
      (h : xs.filter (Recognised tcbFields) = xs'.filter (Recognised tcbFields))

/-- The recognised entries are the same, in the same order. -/
def Alike (entries entries' : List BerObject) : Prop :=
  List.Forall₂ SameEntry (entries.filter (Recognised extensionFields))
    (entries'.filter (Recognised extensionFields))

theorem extensionEntry_congr {entry entry' : BerObject} (h : entryField entry = entryField entry')
    (slots : PckSlots) : extensionEntry slots entry = extensionEntry slots entry' := by
  have hvalue : ∀ arcs, valueUnder arcs entry = valueUnder arcs entry' := by
    intro arcs
    rw [valueUnder, valueUnder, h]
  rcases extensionField_cases entry with ⟨value, hv⟩ | ⟨value, hv⟩ | ⟨value, hv⟩ | hskip
  · rw [extensionEntry_pceId slots hv, extensionEntry_pceId slots ((hvalue _).symm.trans hv)]
  · rw [extensionEntry_fmspc slots hv, extensionEntry_fmspc slots ((hvalue _).symm.trans hv)]
  · rw [extensionEntry_tcb slots hv, extensionEntry_tcb slots ((hvalue _).symm.trans hv)]
  · rw [extensionEntry_skip slots hskip,
      extensionEntry_skip slots fun arcs hmem => (hvalue arcs).symm.trans (hskip arcs hmem)]

theorem SameEntry.extensionEntry_eq {entry entry' : BerObject} (h : SameEntry entry entry')
    (slots : PckSlots) : extensionEntry slots entry = extensionEntry slots entry' := by
  have hfilter := Fields.foldlM_filter_eq (Recognised tcbFields)
    fun (slots : PckSlots) entry hnot => tcbEntry_skip slots (valueUnder_of_not_recognised hnot)
  cases h with
  | value h => exact extensionEntry_congr h slots
  | tcb hvalue hvalue' hxs hxs' h =>
      rw [extensionEntry_tcb slots hvalue, extensionEntry_tcb slots hvalue', hxs, hxs']
      show List.foldlM tcbEntry slots _ = List.foldlM tcbEntry slots _
      rw [← hfilter, h, hfilter]

theorem platformOf_congr {entries entries' : List BerObject} (h : Alike entries entries') :
    platformOf entries = platformOf entries' := by
  have hfilter := Fields.foldlM_filter_eq (Recognised extensionFields)
    fun (slots : PckSlots) entry hnot =>
      extensionEntry_skip slots (valueUnder_of_not_recognised hnot)
  rw [platformOf, platformOf, ← hfilter,
    Fields.foldlM_congr_forall₂ (h.imp fun _ _ hsame => hsame.extensionEntry_eq), hfilter]

/-! ## Order -/

/-- An entry, or a TCB sequence with its entries rearranged. -/
inductive InnerPerm (entry entry' : BerObject) : Prop where
  | same (h : entry = entry')
  | tcb {value value' : BerObject} {xs xs' : List BerObject}
      (hvalue : valueUnder tcbArcs entry = some value)
      (hvalue' : valueUnder tcbArcs entry' = some value')
      (hxs : value.asSequence = .ok xs) (hxs' : value'.asSequence = .ok xs') (h : xs.Perm xs')

/-- Rearranged at either level. -/
def Rearranged (entries entries' : List BerObject) : Prop :=
  ∃ mid, List.Forall₂ InnerPerm entries mid ∧ mid.Perm entries'

/-- No recognised identifier is stored under twice. -/
structure StoredOnce (entries : List BerObject) : Prop where
  outer : ∀ arcs ∈ extensionFields, (valuesUnder arcs entries).length ≤ 1
  inner : ∀ arcs ∈ tcbFields, (valuesUnder arcs (tcbEntriesOf entries)).length ≤ 1

theorem perm_eq_of_length_le_one {α : Type} {xs ys : List α} (h : xs.Perm ys)
    (hlen : xs.length ≤ 1) : xs = ys := by
  rcases Nat.le_one_iff_eq_zero_or_eq_one.mp hlen with hzero | hone
  · obtain rfl := List.eq_nil_of_length_eq_zero hzero
    exact (List.nil_perm.mp h).symm
  · obtain ⟨x, rfl⟩ := List.length_eq_one_iff.mp hone
    exact List.singleton_perm.mp h

theorem InnerPerm.valueUnder_eq {entry entry' : BerObject} (h : InnerPerm entry entry')
    {arcs : List Nat} (hne : tcbArcs ≠ arcs) : valueUnder arcs entry = valueUnder arcs entry' := by
  cases h with
  | same h => rw [h]
  | tcb hvalue hvalue' _ _ _ =>
      rw [valueUnder_eq_none hvalue hne, valueUnder_eq_none hvalue' hne]

theorem InnerPerm.innerEntries_perm {entry entry' : BerObject} (h : InnerPerm entry entry') :
    (innerEntries entry).Perm (innerEntries entry') := by
  cases h with
  | same h => rw [h]
  | tcb hvalue hvalue' hxs hxs' h =>
      rw [innerEntries_of_some hvalue hxs, innerEntries_of_some hvalue' hxs']
      exact h

/-- The TCB field of an entry, where it is one, is a sequence. -/
def HoldsSequence (entry : BerObject) : Prop :=
  ∀ value, valueUnder tcbArcs entry = some value → ∃ xs, value.asSequence = .ok xs

theorem InnerPerm.holdsSequence_iff {entry entry' : BerObject} (h : InnerPerm entry entry') :
    HoldsSequence entry ↔ HoldsSequence entry' := by
  cases h with
  | same h => rw [h]
  | @tcb value value' xs xs' hvalue hvalue' hxs hxs' _ =>
      simp only [HoldsSequence, hvalue, hvalue', Option.some.injEq, forall_eq', hxs, hxs',
        Except.ok.injEq, exists_eq']

theorem forall_valuesUnder_iff {entries : List BerObject} :
    (∀ value ∈ valuesUnder tcbArcs entries, ∃ xs, value.asSequence = .ok xs) ↔
      ∀ entry ∈ entries, HoldsSequence entry := by
  simp only [mem_valuesUnder, HoldsSequence]
  refine ⟨fun h entry hmem value hvalue => h value ⟨entry, hmem, hvalue⟩, fun h => ?_⟩
  rintro value ⟨entry, hmem, hvalue⟩
  exact h entry hmem value hvalue

theorem Rearranged.valuesUnder_perm {entries entries' : List BerObject}
    (h : Rearranged entries entries') {arcs : List Nat} (hne : tcbArcs ≠ arcs) :
    (valuesUnder arcs entries).Perm (valuesUnder arcs entries') := by
  obtain ⟨mid, hmid, hperm⟩ := h
  have hsame : valuesUnder arcs entries = valuesUnder arcs mid := by
    clear hperm
    induction hmid with
    | nil => rfl
    | cons hround _ ih =>
        rw [valuesUnder, List.filterMap_cons, hround.valueUnder_eq hne, valuesUnder,
          List.filterMap_cons]
        rw [valuesUnder, valuesUnder] at ih
        rw [ih]
  rw [hsame]
  exact hperm.filterMap _

theorem Rearranged.tcbEntriesOf_perm {entries entries' : List BerObject}
    (h : Rearranged entries entries') : (tcbEntriesOf entries).Perm (tcbEntriesOf entries') := by
  obtain ⟨mid, hmid, hperm⟩ := h
  have hsame : (tcbEntriesOf entries).Perm (tcbEntriesOf mid) := by
    clear hperm
    induction hmid with
    | nil => exact List.Perm.refl _
    | cons hround _ ih =>
        rw [tcbEntriesOf, tcbEntriesOf, List.flatMap_cons, List.flatMap_cons]
        exact hround.innerEntries_perm.append ih
  exact hsame.trans (hperm.flatMap_right _)

theorem Rearranged.sequences_iff {entries entries' : List BerObject}
    (h : Rearranged entries entries') :
    (∀ entry ∈ entries, HoldsSequence entry) ↔ ∀ entry ∈ entries', HoldsSequence entry := by
  obtain ⟨mid, hmid, hperm⟩ := h
  have hsame : (∀ entry ∈ entries, HoldsSequence entry) ↔ ∀ entry ∈ mid, HoldsSequence entry := by
    clear hperm
    induction hmid with
    | nil => rfl
    | cons hround _ ih =>
        rw [List.forall_mem_cons, List.forall_mem_cons, hround.holdsSequence_iff, ih]
  rw [hsame]
  exact forall_congr' fun entry => imp_congr_left hperm.mem_iff

/-- Where nothing is stored twice, order does not matter. -/
theorem Rearranged.extracted_iff {entries entries' : List BerObject}
    (h : Rearranged entries entries') (honce : StoredOnce entries) (tcb : PckPlatformTcb) :
    Extracted entries tcb ↔ Extracted entries' tcb := by
  have houter : ∀ arcs ∈ extensionFields, tcbArcs ≠ arcs →
      valuesUnder arcs entries = valuesUnder arcs entries' := fun arcs hmem hne =>
    perm_eq_of_length_le_one (h.valuesUnder_perm hne) (honce.outer arcs hmem)
  have hinner : ∀ arcs ∈ tcbFields, valuesUnder arcs (tcbEntriesOf entries) =
      valuesUnder arcs (tcbEntriesOf entries') := fun arcs hmem =>
    perm_eq_of_length_le_one (h.tcbEntriesOf_perm.filterMap _) (honce.inner arcs hmem)
  have hfmspc := houter fmspcArcs (by decide) (by decide)
  have hpceId := houter pceIdArcs (by decide) (by decide)
  have hpcesvn := hinner pcesvnArcs pcesvnArcs_mem
  refine ⟨fun ⟨hf, hp, hseq, hcomps, hs⟩ => ?_, fun ⟨hf, hp, hseq, hcomps, hs⟩ => ?_⟩
  · rw [hfmspc] at hf
    rw [hpceId] at hp
    rw [hpcesvn] at hs
    rw [forall_valuesUnder_iff, h.sequences_iff] at hseq
    exact ⟨hf, hp, forall_valuesUnder_iff.mpr hseq,
      fun k => hinner _ (componentArcs_mem k) ▸ hcomps k, hs⟩
  · rw [← hfmspc] at hf
    rw [← hpceId] at hp
    rw [← hpcesvn] at hs
    rw [forall_valuesUnder_iff, ← h.sequences_iff] at hseq
    exact ⟨hf, hp, forall_valuesUnder_iff.mpr hseq,
      fun k => (hinner _ (componentArcs_mem k)).symm ▸ hcomps k, hs⟩

/-! ## The certificate -/

variable (C : Crates)

/-- The SGX extension of the leaf of `chain` decodes to the sequence of `entries`. -/
def DecodesTo (chain : ParsedChain) (entries : List BerObject) : Prop :=
  ∃ leaf ext top, chain.leaf = .ok leaf ∧
    leaf.extensions.find? (fun e => e.oid.toIdString == sgxPckExtensionOid) = some ext ∧
    C.parseDer ext.value = .ok top ∧ top.asSequence = .ok entries

variable {C}

theorem DecodesTo.extract_eq {chain : ParsedChain} {entries : List BerObject}
    (h : DecodesTo C chain entries) : extractPckPlatformTcb C chain = platformOf entries := by
  obtain ⟨leaf, ext, top, hleaf, hext, htop, hentries⟩ := h
  rw [extractPckPlatformTcb, hleaf, Checks.ok_bind, hext, okOrReject, Checks.ok_bind, htop,
    orReject, Except.mapError, Checks.ok_bind, hentries, orReject, Except.mapError, Checks.ok_bind]
  rfl

theorem decodesTo_of_extract {chain : ParsedChain} {tcb : PckPlatformTcb}
    (h : extractPckPlatformTcb C chain = .ok tcb) : ∃ entries, DecodesTo C chain entries := by
  obtain ⟨leaf, hleaf, h⟩ := Checks.bind_eq_ok.mp h
  obtain ⟨ext, hext, h⟩ := Checks.bind_eq_ok.mp h
  obtain ⟨top, htop, h⟩ := Checks.bind_eq_ok.mp h
  obtain ⟨entries, hentries, _⟩ := Checks.bind_eq_ok.mp h
  exact ⟨entries, leaf, ext, top, hleaf, okOrReject_eq_ok.mp hext, orReject_eq_ok.mp htop,
    orReject_eq_ok.mp hentries⟩

theorem DecodesTo.certs_ne_nil {chain : ParsedChain} {entries : List BerObject}
    (h : DecodesTo C chain entries) : chain.certs ≠ [] := by
  obtain ⟨leaf, _, _, hleaf, _⟩ := h
  intro hnil
  have hhead := ParsedChain.leaf_eq_ok.mp hleaf
  rw [hnil] at hhead
  cases hhead

/-- Both runs give the same value, or both are refused as a defect of the quote. -/
def SameVerdict {α : Type} (m m' : Outcome α) : Prop :=
  (∃ a, m = .ok a ∧ m' = .ok a) ∨
    ∃ e e', m = .error (.reject e) ∧ m' = .error (.reject e') ∧
      e.category = .quoteParse ∧ e'.category = .quoteParse

/--
**The platform is read from the extension, entry by entry.**

Extraction succeeds with a platform exactly when each of its nineteen numbers is stored
under its own identifier, whatever else the extension holds; entries that store under no
recognised identifier, at either level, change nothing; and where no recognised
identifier occurs twice, neither does rearranging the entries of either level.
-/
theorem platform_extraction_exact (C : Crates) :
    (∀ chain tcb, extractPckPlatformTcb C chain = .ok tcb ↔
      ∃ entries, DecodesTo C chain entries ∧ Extracted entries tcb) ∧
    (∀ chain chain' entries entries', DecodesTo C chain entries → DecodesTo C chain' entries' →
      Alike entries entries' → extractPckPlatformTcb C chain = extractPckPlatformTcb C chain') ∧
    ∀ chain chain' entries entries', DecodesTo C chain entries → DecodesTo C chain' entries' →
      StoredOnce entries → Rearranged entries entries' →
      SameVerdict (extractPckPlatformTcb C chain) (extractPckPlatformTcb C chain') := by
  refine ⟨fun chain tcb => ⟨fun h => ?_, fun h => ?_⟩, ?_, ?_⟩
  · obtain ⟨entries, hentries⟩ := decodesTo_of_extract h
    rw [hentries.extract_eq] at h
    exact ⟨entries, hentries, platformOf_eq_ok.mp h⟩
  · obtain ⟨entries, hentries, hextracted⟩ := h
    rw [hentries.extract_eq]
    exact platformOf_eq_ok.mpr hextracted
  · intro chain chain' entries entries' h h' halike
    rw [h.extract_eq, h'.extract_eq, platformOf_congr halike]
  · intro chain chain' entries entries' h h' honce hperm
    have hrejects := extractPckPlatformTcb_rejectsIn C h.certs_ne_nil
    have hrejects' := extractPckPlatformTcb_rejectsIn C h'.certs_ne_nil
    have hiff : ∀ tcb, extractPckPlatformTcb C chain = .ok tcb ↔
        extractPckPlatformTcb C chain' = .ok tcb := by
      intro tcb
      rw [h.extract_eq, h'.extract_eq, platformOf_eq_ok, platformOf_eq_ok,
        hperm.extracted_iff honce]
    cases hrun : extractPckPlatformTcb C chain with
    | ok tcb => exact .inl ⟨tcb, rfl, (hiff tcb).mp hrun⟩
    | error f =>
        cases hrun' : extractPckPlatformTcb C chain' with
        | ok tcb =>
            rw [(hiff tcb).mpr hrun'] at hrun
            cases hrun
        | error f' =>
            obtain ⟨e, rfl, he⟩ := hrejects.exists_reject hrun
            obtain ⟨e', rfl, he'⟩ := hrejects'.exists_reject hrun'
            exact .inr ⟨e, e', rfl, rfl, List.mem_singleton.mp he, List.mem_singleton.mp he'⟩

namespace Synthetic

/-- The entries of the synthetic platform, with both levels in reverse. -/
def reversedEntries : List BerObject :=
  [der (sgxOid [4]) (octets [0, 0x90, 0x6e, 0xa1, 0, 0]),
    der (sgxOid [3]) (octets [0, 0]),
    der (sgxOid [2]) (sequence ((List.range 17).map fun i =>
      der (sgxOid [2, i + 1]) (integer 5)).reverse)]

/-- The toy decoders, with the reversed tree at a second address. -/
def twoTrees : Crates :=
  { crates (registry "UpToDate") with
    parseDer := fun bs =>
      if bs = [0] then .ok extension else if bs = [1] then .ok (sequence reversedEntries)
      else .error "malformed" }

/-- A chain whose leaf carries the tree at `address`. -/
def chainAt (address : UInt8) : ParsedChain :=
  ⟨.quotePck, [issue pckCa pckLeaf [0x5a, 1] false [⟨⟨sgxOid []⟩, [address]⟩]]⟩

def extractedPlatform : PckPlatformTcb :=
  { fmspc := 0 ::ᵥ 0x90 ::ᵥ 0x6e ::ᵥ 0xa1 ::ᵥ zeros 2, pceId := zeros 2,
    compSvns := List.Vector.replicate 16 5, pcesvn := 5 }

end Synthetic

/-- The reversed tree denotes the same platform. -/
theorem reversed_platform_extracted :
    SameVerdict (extractPckPlatformTcb Synthetic.twoTrees (Synthetic.chainAt 0))
      (extractPckPlatformTcb Synthetic.twoTrees (Synthetic.chainAt 1)) ∧
    extractPckPlatformTcb Synthetic.twoTrees (Synthetic.chainAt 0) =
      .ok Synthetic.extractedPlatform := by
  refine ⟨(platform_extraction_exact Synthetic.twoTrees).2.2 _ _ _ _
    ⟨_, _, Synthetic.extension, rfl, rfl, rfl, rfl⟩
    ⟨_, _, Synthetic.sequence Synthetic.reversedEntries, rfl, rfl, rfl, rfl⟩ ⟨?_, ?_⟩ ?_, by rfl⟩
  · decide
  · decide
  · refine ⟨Synthetic.reversedEntries.reverse, ?_, List.reverse_perm _⟩
    exact .cons (.tcb rfl rfl rfl rfl (List.reverse_perm _).symm)
      (.cons (.same rfl) (.cons (.same rfl) .nil))

end DcapVerify
