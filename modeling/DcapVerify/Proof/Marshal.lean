import DcapVerify.Differ.Marshal
import DcapVerify.Lib.Fields
import DcapVerify.Proof.Differ
import DcapVerify.Proof.Envelope
import Mathlib.Tactic.IntervalCases
import Mathlib.Tactic.MkIffOfInductiveProp

/-!
# The same evidence for both verifiers

A comparison of two verifiers is worth something if both are shown the same thing. The
collateral file is read twice, by two readers of which one decodes what the other only
copies. What both read is the same eight values, wherever in the file they stand. So the
buffers of QVL hold the texts that this crate decided on, and when this crate accepts,
there is one thing that can still keep QVL from being asked: a signed document that is
not UTF-8, which the crate's own reader does not always notice.
-/

namespace DcapVerify.Differ

open Fields

/-! ## The derived reader -/

theorem fillSlot_eq_ok {α : Type} {name : String} {slot new : Option α}
    {value : Except DeError α} :
    fillSlot name slot value = .ok new ↔ slot = none ∧ ∃ a, value = .ok a ∧ new = some a := by
  unfold fillSlot
  cases slot with
  | some a => simp
  | none => cases value <;> simp [eq_comm]

theorem filled_eq_ok {α : Type} {name : String} {slot : Option α} {a : α} :
    filled name slot = .ok a ↔ slot = some a := by
  cases slot <;> simp [filled]

/-- The values of the eight fields, as they stand in the file. -/
structure CollateralTexts where
  version : Bytes
  rootCaCrl : Bytes
  pckCrl : Bytes
  tcbInfoIssuerChain : Bytes
  pckCrlIssuerChain : Bytes
  qeIdentityIssuerChain : Bytes
  tcbInfo : Bytes
  qeIdentity : Bytes

/-- Each field once, in any order and among any others; or the eight of them in a sequence. -/
def Presented.Has : Presented → CollateralTexts → Prop
  | .map members, t =>
      under "version" members = [t.version] ∧ under "root_ca_crl" members = [t.rootCaCrl] ∧
      under "pck_crl" members = [t.pckCrl] ∧
      under "tcb_info_issuer_chain" members = [t.tcbInfoIssuerChain] ∧
      under "pck_crl_issuer_chain" members = [t.pckCrlIssuerChain] ∧
      under "qe_identity_issuer_chain" members = [t.qeIdentityIssuerChain] ∧
      under "tcb_info" members = [t.tcbInfo] ∧ under "qe_identity" members = [t.qeIdentity]
  | .seq elements, t =>
      elements = [t.version, t.rootCaCrl, t.pckCrl, t.tcbInfoIssuerChain, t.pckCrlIssuerChain,
        t.qeIdentityIssuerChain, t.tcbInfo, t.qeIdentity]

section

variable {A B : Type} (S : SerdeJson) (p : Bytes → Except DeError A) (q : Bytes → Except DeError B)

/-- What the loop does to the slots over `members`. -/
@[mk_iff]
structure SlotsFilled (members : List (String × Bytes)) (old new : CollateralSlots A B) :
    Prop where
  version : Once (fun raw a => S.u32 raw = .ok a) old.version (under "version" members)
    new.version
  rootCaCrl : Once (fun raw a => S.string raw = .ok a) old.rootCaCrl
    (under "root_ca_crl" members) new.rootCaCrl
  pckCrl : Once (fun raw a => S.string raw = .ok a) old.pckCrl (under "pck_crl" members)
    new.pckCrl
  tcbInfoIssuerChain : Once (fun raw a => S.string raw = .ok a) old.tcbInfoIssuerChain
    (under "tcb_info_issuer_chain" members) new.tcbInfoIssuerChain
  pckCrlIssuerChain : Once (fun raw a => S.string raw = .ok a) old.pckCrlIssuerChain
    (under "pck_crl_issuer_chain" members) new.pckCrlIssuerChain
  qeIdentityIssuerChain : Once (fun raw a => S.string raw = .ok a) old.qeIdentityIssuerChain
    (under "qe_identity_issuer_chain" members) new.qeIdentityIssuerChain
  tcbInfo : Once (fun raw a => p raw = .ok a) old.tcbInfo (under "tcb_info" members) new.tcbInfo
  qeIdentity : Once (fun raw a => q raw = .ok a) old.qeIdentity (under "qe_identity" members)
    new.qeIdentity

/-- The keys that have a slot. -/
def collateralKeys : List String :=
  ["version", "root_ca_crl", "pck_crl", "tcb_info_issuer_chain", "pck_crl_issuer_chain",
    "qe_identity_issuer_chain", "tcb_info", "qe_identity"]

variable {S p q}

/-- One round of the loop fills at most one slot, and never twice. -/
theorem visitCollateralMember_eq_ok {old new : CollateralSlots A B} {member : String × Bytes} :
    visitCollateralMember S p q old member = .ok new ↔ SlotsFilled S p q [member] old new := by
  obtain ⟨key, raw⟩ := member
  obtain ⟨v, a, b, c, d, e, f, g⟩ := old
  obtain ⟨v', a', b', c', d', e', f', g'⟩ := new
  rw [slotsFilled_iff]
  by_cases hkey : key ∈ collateralKeys
  · simp only [collateralKeys, List.mem_cons, List.not_mem_nil, or_false] at hkey
    rcases hkey with rfl | rfl | rfl | rfl | rfl | rfl | rfl | rfl <;>
      simp [visitCollateralMember, under, once_nil, once_singleton, Checks.bind_eq_ok,
        fillSlot_eq_ok] <;>
      grind
  · simp only [collateralKeys, List.mem_cons, List.not_mem_nil, or_false, not_or] at hkey
    obtain ⟨hv, ha, hb, hc, hd, he, hf, hg⟩ := hkey
    simp [visitCollateralMember, under, once_nil, *]

theorem SlotsFilled.nil {old new : CollateralSlots A B} :
    SlotsFilled S p q [] old new ↔ old = new := by
  obtain ⟨v, a, b, c, d, e, f, g⟩ := old
  obtain ⟨v', a', b', c', d', e', f', g'⟩ := new
  simp [slotsFilled_iff, under, once_nil]

/-- Filling over a list is filling over its parts. -/
theorem SlotsFilled.cons {old new : CollateralSlots A B} {member : String × Bytes}
    {members : List (String × Bytes)} : SlotsFilled S p q (member :: members) old new ↔
      ∃ mid, SlotsFilled S p q [member] old mid ∧ SlotsFilled S p q members mid new := by
  refine ⟨fun h => ?_, fun h => ?_⟩
  · obtain ⟨v, hv, hv'⟩ := (once_under_cons _ member members).mp h.version
    obtain ⟨a, ha, ha'⟩ := (once_under_cons _ member members).mp h.rootCaCrl
    obtain ⟨b, hb, hb'⟩ := (once_under_cons _ member members).mp h.pckCrl
    obtain ⟨c, hc, hc'⟩ := (once_under_cons _ member members).mp h.tcbInfoIssuerChain
    obtain ⟨d, hd, hd'⟩ := (once_under_cons _ member members).mp h.pckCrlIssuerChain
    obtain ⟨e, he, he'⟩ := (once_under_cons _ member members).mp h.qeIdentityIssuerChain
    obtain ⟨f, hf, hf'⟩ := (once_under_cons _ member members).mp h.tcbInfo
    obtain ⟨g, hg, hg'⟩ := (once_under_cons _ member members).mp h.qeIdentity
    exact ⟨⟨v, a, b, c, d, e, f, g⟩, ⟨hv, ha, hb, hc, hd, he, hf, hg⟩,
      ⟨hv', ha', hb', hc', hd', he', hf', hg'⟩⟩
  · obtain ⟨mid, h, h'⟩ := h
    exact {
      version := (once_under_cons ..).mpr ⟨_, h.version, h'.version⟩
      rootCaCrl := (once_under_cons ..).mpr ⟨_, h.rootCaCrl, h'.rootCaCrl⟩
      pckCrl := (once_under_cons ..).mpr ⟨_, h.pckCrl, h'.pckCrl⟩
      tcbInfoIssuerChain :=
        (once_under_cons ..).mpr ⟨_, h.tcbInfoIssuerChain, h'.tcbInfoIssuerChain⟩
      pckCrlIssuerChain :=
        (once_under_cons ..).mpr ⟨_, h.pckCrlIssuerChain, h'.pckCrlIssuerChain⟩
      qeIdentityIssuerChain :=
        (once_under_cons ..).mpr ⟨_, h.qeIdentityIssuerChain, h'.qeIdentityIssuerChain⟩
      tcbInfo := (once_under_cons ..).mpr ⟨_, h.tcbInfo, h'.tcbInfo⟩
      qeIdentity := (once_under_cons ..).mpr ⟨_, h.qeIdentity, h'.qeIdentity⟩ }

/-- **The loop, exactly.** -/
theorem foldlM_visitCollateralMember {members : List (String × Bytes)}
    {old new : CollateralSlots A B} :
    members.foldlM (visitCollateralMember S p q) old = .ok new ↔
      SlotsFilled S p q members old new := by
  induction members generalizing old with
  | nil => rw [List.foldlM_nil, Checks.pure_eq_ok, SlotsFilled.nil]
  | cons member members ih =>
      rw [List.foldlM_cons, Checks.bind_eq_ok, SlotsFilled.cons]
      refine exists_congr fun mid => ?_
      rw [visitCollateralMember_eq_ok, ih]

variable (S p q) in
/-- The eight values decode to the fields. -/
structure Decodes (t : CollateralTexts) (r : CollateralFields A B) : Prop where
  version : S.u32 t.version = .ok r.version
  rootCaCrl : S.string t.rootCaCrl = .ok r.rootCaCrl
  pckCrl : S.string t.pckCrl = .ok r.pckCrl
  tcbInfoIssuerChain : S.string t.tcbInfoIssuerChain = .ok r.tcbInfoIssuerChain
  pckCrlIssuerChain : S.string t.pckCrlIssuerChain = .ok r.pckCrlIssuerChain
  qeIdentityIssuerChain : S.string t.qeIdentityIssuerChain = .ok r.qeIdentityIssuerChain
  tcbInfo : p t.tcbInfo = .ok r.tcbInfo
  qeIdentity : q t.qeIdentity = .ok r.qeIdentity

/-- **The map form, exactly.** -/
theorem visitMap_eq_ok {members : List (String × Bytes)} {r : CollateralFields A B} :
    (do finishCollateral (← members.foldlM (visitCollateralMember S p q) {})) = .ok r ↔
      ∃ t, (Presented.map members).Has t ∧ Decodes S p q t r := by
  simp only [Checks.bind_eq_ok, foldlM_visitCollateralMember, finishCollateral, filled_eq_ok,
    Except.ok.injEq]
  refine ⟨fun h => ?_, fun h => ?_⟩
  · obtain ⟨slots, h, v, hv, a, ha, b, hb, c, hc, d, hd, e, he, f, hf, g, hg, rfl⟩ := h
    obtain ⟨tv, htv, hv⟩ := once_none_some.mp (hv ▸ h.version)
    obtain ⟨ta, hta, ha⟩ := once_none_some.mp (ha ▸ h.rootCaCrl)
    obtain ⟨tb, htb, hb⟩ := once_none_some.mp (hb ▸ h.pckCrl)
    obtain ⟨tc, htc, hc⟩ := once_none_some.mp (hc ▸ h.tcbInfoIssuerChain)
    obtain ⟨td, htd, hd⟩ := once_none_some.mp (hd ▸ h.pckCrlIssuerChain)
    obtain ⟨te, hte, he⟩ := once_none_some.mp (he ▸ h.qeIdentityIssuerChain)
    obtain ⟨tf, htf, hf⟩ := once_none_some.mp (hf ▸ h.tcbInfo)
    obtain ⟨tg, htg, hg⟩ := once_none_some.mp (hg ▸ h.qeIdentity)
    exact ⟨⟨tv, ta, tb, tc, td, te, tf, tg⟩, ⟨htv, hta, htb, htc, htd, hte, htf, htg⟩,
      ⟨hv, ha, hb, hc, hd, he, hf, hg⟩⟩
  · obtain ⟨t, ⟨htv, hta, htb, htc, htd, hte, htf, htg⟩, h⟩ := h
    refine ⟨⟨some r.version, some r.rootCaCrl, some r.pckCrl, some r.tcbInfoIssuerChain,
      some r.pckCrlIssuerChain, some r.qeIdentityIssuerChain, some r.tcbInfo, some r.qeIdentity⟩,
      ?_, _, rfl, _, rfl, _, rfl, _, rfl, _, rfl, _, rfl, _, rfl, _, rfl, rfl⟩
    exact {
      version := once_none_some.mpr ⟨_, htv, h.version⟩
      rootCaCrl := once_none_some.mpr ⟨_, hta, h.rootCaCrl⟩
      pckCrl := once_none_some.mpr ⟨_, htb, h.pckCrl⟩
      tcbInfoIssuerChain := once_none_some.mpr ⟨_, htc, h.tcbInfoIssuerChain⟩
      pckCrlIssuerChain := once_none_some.mpr ⟨_, htd, h.pckCrlIssuerChain⟩
      qeIdentityIssuerChain := once_none_some.mpr ⟨_, hte, h.qeIdentityIssuerChain⟩
      tcbInfo := once_none_some.mpr ⟨_, htf, h.tcbInfo⟩
      qeIdentity := once_none_some.mpr ⟨_, htg, h.qeIdentity⟩ }

theorem element_eq_ok {elements : List Bytes} {i : Nat} {raw : Bytes} :
    element elements i = .ok raw ↔ elements[i]? = some raw := by
  unfold element
  cases elements[i]? <;> simp

/-- **The sequence form, exactly.** -/
theorem visitCollateralSeq_eq_ok {elements : List Bytes} {r : CollateralFields A B} :
    visitCollateralSeq S p q elements = .ok r ↔
      ∃ t, (Presented.seq elements).Has t ∧ Decodes S p q t r := by
  simp only [visitCollateralSeq, Checks.bind_eq_ok, element_eq_ok]
  refine ⟨fun h => ?_, fun h => ?_⟩
  · obtain ⟨tv, htv, v, hv, ta, hta, a, ha, tb, htb, b, hb, tc, htc, c, hc, td, htd, d, hd, te, hte,
      e, he, tf, htf, f, hf, tg, htg, g, hg, h⟩ := h
    by_cases hlong : elements.length > 8
    · rw [if_pos hlong] at h
      cases h
    · rw [if_neg hlong] at h
      cases h
      refine ⟨⟨tv, ta, tb, tc, td, te, tf, tg⟩, ?_, ⟨hv, ha, hb, hc, hd, he, hf, hg⟩⟩
      refine List.ext_getElem? fun i => ?_
      by_cases hi : i < 8
      · interval_cases i <;> assumption
      · rw [List.getElem?_eq_none (by omega), List.getElem?_eq_none (by simpa using hi)]
  · obtain ⟨t, helements, h⟩ := h
    obtain rfl := helements
    exact ⟨_, rfl, _, h.version, _, rfl, _, h.rootCaCrl, _, rfl, _, h.pckCrl, _, rfl, _,
      h.tcbInfoIssuerChain, _, rfl, _, h.pckCrlIssuerChain, _, rfl, _, h.qeIdentityIssuerChain, _,
      rfl, _, h.tcbInfo, _, rfl, _, h.qeIdentity, rfl⟩

/-- **What both readers read.** -/
theorem readCollateral_eq_ok {json : Bytes} {r : CollateralFields A B} :
    readCollateral S p q json = .ok r ↔
      ∃ presented t, S.present json = .ok presented ∧ presented.Has t ∧ Decodes S p q t r := by
  rw [readCollateral, Checks.bind_eq_ok]
  refine exists_congr fun presented => ?_
  cases presented with
  | map members => simp only [visitMap_eq_ok, exists_and_left]
  | seq elements => simp only [visitCollateralSeq_eq_ok, exists_and_left]

end

/-! ## The two readers -/

section

variable (C : Crates) (S : SerdeJson) (Q : Qvl)

/-- The file has the eight values `t`. -/
def ReadAs (json : Bytes) (t : CollateralTexts) : Prop :=
  ∃ presented, S.present json = .ok presented ∧ presented.Has t

/-- A value that is the text of a string. -/
def Utf8 (raw : Bytes) : Prop := ∃ text, asBytes text = raw

variable {S}

theorem Presented.Has.unique {presented : Presented} {t t' : CollateralTexts}
    (h : presented.Has t) (h' : presented.Has t') : t = t' := by
  obtain ⟨v, a, b, c, d, e, f, g⟩ := t
  obtain ⟨v', a', b', c', d', e', f', g'⟩ := t'
  cases presented with
  | map members =>
      obtain ⟨hv, ha, hb, hc, hd, he, hf, hg⟩ := h
      obtain ⟨hv', ha', hb', hc', hd', he', hf', hg'⟩ := h'
      rw [hv] at hv'
      rw [ha] at ha'
      rw [hb] at hb'
      rw [hc] at hc'
      rw [hd] at hd'
      rw [he] at he'
      rw [hf] at hf'
      rw [hg] at hg'
      simp_all
  | seq elements =>
      have heq := h.symm.trans h'
      simpa using heq

theorem ReadAs.unique {json : Bytes} {t t' : CollateralTexts} (h : ReadAs S json t)
    (h' : ReadAs S json t') : t = t' := by
  obtain ⟨presented, hpresent, hhas⟩ := h
  obtain ⟨presented', hpresent', hhas'⟩ := h'
  obtain rfl := Except.ok.inj (hpresent.symm.trans hpresent')
  exact hhas.unique hhas'

theorem rawValue_eq_ok {raw : Bytes} {text : String} :
    rawValue raw = .ok text ↔ asBytes text = raw := by
  unfold rawValue String.fromUTF8? asBytes
  by_cases hvalid : (⟨raw.toArray⟩ : ByteArray).IsValidUTF8
  · rw [dif_pos hvalid, Except.ok.injEq]
    refine ⟨fun h => by rw [← h]; rfl, fun h => ?_⟩
    subst h
    exact String.toByteArray_inj.mp rfl
  · rw [dif_neg hvalid]
    refine iff_of_false (by simp) fun h => hvalid ?_
    subst h
    exact text.isValidUTF8

/-- The fields of a collateral value. -/
def collateralFields (c : SgxCollateral) : CollateralFields (Signed TcbInfo) (Signed QeIdentity) :=
  { c with }

theorem sgxCollateralFromSlice_eq_ok {json : Bytes} {c : SgxCollateral} :
    sgxCollateralFromSlice C S json = .ok c ↔ ∃ t, ReadAs S json t ∧
      Decodes S (readSigned C S (tcbInfoBody C)) (readSigned C S (qeIdentityBody C)) t
        (collateralFields c) := by
  simp only [sgxCollateralFromSlice, Checks.bind_eq_ok, Checks.mapError_eq_ok,
    readCollateral_eq_ok, ReadAs]
  refine ⟨fun h => ?_, fun h => ?_⟩
  · obtain ⟨fields, ⟨presented, t, hpresent, hhas, hdec⟩, h⟩ := h
    cases h
    exact ⟨t, ⟨presented, hpresent, hhas⟩, hdec⟩
  · obtain ⟨t, ⟨presented, hpresent, hhas⟩, hdec⟩ := h
    exact ⟨collateralFields c, ⟨presented, t, hpresent, hhas, hdec⟩, rfl⟩

theorem rawCollateralFromSlice_eq_ok {json : Bytes} {raw : RawCollateral} :
    rawCollateralFromSlice S json = .ok raw ↔ ∃ t, ReadAs S json t ∧
      Decodes S rawValue rawValue t raw.toCollateralFields := by
  simp only [rawCollateralFromSlice, Checks.bind_eq_ok, Checks.mapError_eq_ok,
    readCollateral_eq_ok, ReadAs]
  refine ⟨fun h => ?_, fun h => ?_⟩
  · obtain ⟨fields, ⟨presented, t, hpresent, hhas, hdec⟩, h⟩ := h
    cases h
    exact ⟨t, ⟨presented, hpresent, hhas⟩, hdec⟩
  · obtain ⟨t, ⟨presented, hpresent, hhas⟩, hdec⟩ := h
    exact ⟨raw.toCollateralFields, ⟨presented, t, hpresent, hhas, hdec⟩, rfl⟩

/-! ## The two verifiers -/

/-- The buffers for the texts of a collateral value, its signed documents as they stand in the
file. -/
def marshalled (c : SgxCollateral) (t : CollateralTexts) : QuoteCollateral where
  majorVersion := 3
  minorVersion := 1
  teeType := 0
  pckCrlIssuerChain := blob (asBytes c.pckCrlIssuerChain)
  rootCaCrl := blob (asBytes c.rootCaCrl)
  pckCrl := blob (asBytes c.pckCrl)
  tcbInfoIssuerChain := blob (asBytes c.tcbInfoIssuerChain)
  tcbInfo := blob t.tcbInfo
  qeIdentityIssuerChain := blob (asBytes c.qeIdentityIssuerChain)
  qeIdentity := blob t.qeIdentity

variable {C} {Q}

/-- **What QVL is shown**, of a file that this crate can read. -/
theorem runQvl_of_read {json : Bytes} {c : SgxCollateral} {t : CollateralTexts}
    (ht : ReadAs S json t)
    (hdec : Decodes S (readSigned C S (tcbInfoBody C)) (readSigned C S (qeIdentityBody C)) t
      (collateralFields c)) (quote : Bytes) (time : Int64) :
    (Utf8 t.tcbInfo → Utf8 t.qeIdentity → runQvl S Q quote json time defaultMarshal =
      qvlOutcome (Q.teeVerifyQuote quote (marshalled c t) time)) ∧
    (¬ (Utf8 t.tcbInfo ∧ Utf8 t.qeIdentity) →
      ∃ reason, runQvl S Q quote json time defaultMarshal = .notRun reason) := by
  refine ⟨fun htcb hqe => ?_, fun hnot => ?_⟩
  · obtain ⟨tcb, htcb⟩ := htcb
    obtain ⟨qe, hqe⟩ := hqe
    have hraw : rawCollateralFromSlice S json =
        .ok ⟨{ collateralFields c with tcbInfo := tcb, qeIdentity := qe }⟩ :=
      rawCollateralFromSlice_eq_ok.mpr ⟨t, ht, { hdec with
        tcbInfo := rawValue_eq_ok.mpr htcb
        qeIdentity := rawValue_eq_ok.mpr hqe }⟩
    rw [runQvl, hraw]
    show qvlOutcome _ = qvlOutcome _
    rw [marshalled, ← htcb, ← hqe]
    rfl
  · cases hraw : rawCollateralFromSlice S json with
    | error e => exact ⟨_, by rw [runQvl, hraw]⟩
    | ok raw =>
        obtain ⟨t', ht', hraw⟩ := rawCollateralFromSlice_eq_ok.mp hraw
        obtain rfl := ht.unique ht'
        exact absurd ⟨⟨_, rawValue_eq_ok.mp hraw.tcbInfo⟩, _, rawValue_eq_ok.mp hraw.qeIdentity⟩
          hnot

/-- Only a file that can be read is accepted. -/
theorem read_of_accept {fromSlice : Bytes → Except String SgxCollateral} {quote json : Bytes}
    {time : Int64} {standing : TcbStanding}
    (h : runDcap C fromSlice quote json time = .accept standing) : ∃ c, fromSlice json = .ok c := by
  cases hread : fromSlice json with
  | ok c => exact ⟨c, rfl⟩
  | error e =>
      rw [runDcap, runDcapUnwinding, hread] at h
      cases h

theorem qvlOutcome_ne_notRun (r : Except UInt32 (UInt32 × SgxQlQvResult)) (reason : String) :
    qvlOutcome r ≠ .notRun reason := by
  rcases r with code | ⟨expStatus, result⟩ <;> simp [qvlOutcome]

theorem classify_notRun_iff {standing : TcbStanding} {qvl : QvlOutcome} :
    classify (.accept standing) qvl = .ok (.dangerous "qvl-not-run") ↔
      ∃ reason, qvl = .notRun reason := by
  cases qvl with
  | notRun reason => simp [classify, qvlClass]
  | error code => simp [classify, qvlClass]
  | verdict expStatus result =>
      refine iff_of_false (fun h => ?_) (by simp)
      cases hacc : qvlAccepts result with
      | false => simp [classify, qvlClass, hacc] at h
      | true =>
          by_cases hexp : expStatus = 0
          · simp only [classify, qvlClass, hacc, if_pos, if_pos hexp] at h
            split at h <;> cases h
          · simp [classify, qvlClass, hacc, hexp] at h

/--
**Both verifiers are shown the same evidence.**

Whenever this crate accepts a case, the file has eight values of which it decided on the
decoded ones. QVL is asked about the same quote and time and the same texts, each with a
NUL at its end: the five it decoded, and the two documents as they stand, of which the
signed bodies are members. The one exception is a document that is not UTF-8 outside what
the crate decodes. Then QVL is not asked, and the case is filed as such a danger.
-/
theorem same_evidence {C : Crates} {S : SerdeJson} {Q : Qvl} {quote json : Bytes} {time : Int64}
    {record : CaseRecord} {standing : TcbStanding}
    (hrun : runCase C S Q quote json time defaultMarshal = .ok record)
    (haccept : record.dcap = .accept standing) :
    ∃ c t, sgxCollateralFromSlice C S json = .ok c ∧ ReadAs S json t ∧
      (∃ members, S.members t.tcbInfo = .ok members ∧
        Signed.Denotes C (tcbInfoBody C) members c.tcbInfo) ∧
      (∃ members, S.members t.qeIdentity = .ok members ∧
        Signed.Denotes C (qeIdentityBody C) members c.qeIdentity) ∧
      (record.bucket = .dangerous "qvl-not-run" ↔ ¬ (Utf8 t.tcbInfo ∧ Utf8 t.qeIdentity)) ∧
      (Utf8 t.tcbInfo → Utf8 t.qeIdentity →
        record.qvl = qvlOutcome (Q.teeVerifyQuote quote (marshalled c t) time)) := by
  obtain ⟨bucket, hbucket, hrecord⟩ := Checks.bind_eq_ok.mp hrun
  cases hrecord
  obtain ⟨c, hread⟩ := read_of_accept haccept
  obtain ⟨t, ht, hdec⟩ := (sgxCollateralFromSlice_eq_ok C).mp hread
  obtain ⟨tcbMembers, htcb, htcbDenotes⟩ := Checks.bind_eq_ok.mp hdec.tcbInfo
  obtain ⟨qeMembers, hqe, hqeDenotes⟩ := Checks.bind_eq_ok.mp hdec.qeIdentity
  obtain ⟨hasked, hskipped⟩ := runQvl_of_read (Q := Q) ht hdec quote time
  refine ⟨c, t, hread, ht, ⟨tcbMembers, htcb, ?_⟩, ⟨qeMembers, hqe, ?_⟩, ?_, hasked⟩
  · exact (Signed.visitMap_eq_ok_iff (show "tcbInfo" ≠ "signature" by decide)).mp htcbDenotes
  · exact (Signed.visitMap_eq_ok_iff (show "enclaveIdentity" ≠ "signature" by decide)).mp hqeDenotes
  · change runDcap C (sgxCollateralFromSlice C S) quote json time = .accept standing at haccept
    rw [haccept] at hbucket
    have hiff : classify (.accept standing) (runQvl S Q quote json time defaultMarshal) =
        .ok (.dangerous "qvl-not-run") ↔ _ := classify_notRun_iff
    rw [hbucket, Except.ok.injEq] at hiff
    rw [hiff]
    refine ⟨fun h hutf8 => ?_, hskipped⟩
    obtain ⟨reason, h⟩ := h
    exact qvlOutcome_ne_notRun _ reason ((hasked hutf8.1 hutf8.2).symm.trans h)

end

/-- The honest collateral in a small format, with `tcbInfo` as the value of the TCB info. -/
def honestFile (tcbInfo : Bytes) : Bytes :=
  asBytes "tcb_info=" ++ tcbInfo ++ asBytes (";version=3;root_ca_crl=A;pck_crl=B;comment=;" ++
    "tcb_info_issuer_chain=30;pck_crl_issuer_chain=10;qe_identity_issuer_chain=30;qe_identity=Q")

def honestMember (raw : Bytes) : Except DeError (String × Bytes) :=
  match raw.splitOn 61 with
  | [key, value] => do
      let key ← rawValue key
      .ok (key, value)
  | _ => .error (.custom "expected a member")

/-- A reader of that format. -/
def honestSerde : SerdeJson where
  present json := do
    let members ← (json.splitOn 59).mapM honestMember
    .ok (.map members)
  u32 raw := if raw = asBytes "3" then .ok 3 else .error (.custom "invalid type")
  string := rawValue
  members raw :=
    if raw = asBytes "Q" then
      .ok [("enclaveIdentity", "qe-identity"),
        ("signature", (Synthetic.collateral "UpToDate").qeIdentity.signatureHex)]
    else if raw.head? = some 84 then
      .ok [("tcbInfo", "tcb-info"),
        ("signature", (Synthetic.collateral "UpToDate").tcbInfo.signatureHex), ("note", "?")]
    else .error (.custom "invalid type")
  message _ _ := "invalid"

/-- A QVL that accepts. -/
def acceptingQvl : Qvl where
  pemParse _ := .error "no block"
  teeVerifyQuote _ _ _ := .ok (0, .ok)

/-- An envelope with a member that is not text: this crate skips it and accepts, and QVL is not
asked. -/
theorem unreadable_envelope_not_run : ∃ record t,
    runCase (Synthetic.crates (Synthetic.registry "UpToDate")) honestSerde acceptingQvl
      (Synthetic.quote 5 Synthetic.pckChain).encode (honestFile [84, 255]) 1500 defaultMarshal =
        .ok record ∧
    record.dcap = .accept .upToDate ∧ record.bucket = .dangerous "qvl-not-run" ∧
    ReadAs honestSerde (honestFile [84, 255]) t ∧ ¬ (Utf8 t.tcbInfo ∧ Utf8 t.qeIdentity) := by
  have hcase : (runCase (Synthetic.crates (Synthetic.registry "UpToDate")) honestSerde acceptingQvl
      (Synthetic.quote 5 Synthetic.pckChain).encode (honestFile [84, 255]) 1500
      defaultMarshal).toOption.map (fun r => (r.dcap, r.bucket)) =
        some (.accept .upToDate, .dangerous "qvl-not-run") := by
    decide +kernel
  cases hrun : runCase (Synthetic.crates (Synthetic.registry "UpToDate")) honestSerde acceptingQvl
      (Synthetic.quote 5 Synthetic.pckChain).encode (honestFile [84, 255]) 1500
      defaultMarshal with
  | error e =>
      rw [hrun] at hcase
      cases hcase
  | ok record =>
      rw [hrun] at hcase
      obtain ⟨haccept, hbucket⟩ := Prod.mk.inj (Option.some.inj hcase)
      obtain ⟨c, t, -, ht, -, -, hiff, -⟩ := same_evidence hrun haccept
      exact ⟨record, t, rfl, haccept, hbucket, ht, hiff.mp hbucket⟩

/-! ## Calibration -/

theorem label_eq_default :
    ∀ cfg ∈ calibrationCells, cfg.label = defaultMarshal.label → cfg = defaultMarshal := by
  decide

/-- What is chosen is in the table and passes. -/
theorem calibrate_passes {Q : Qvl} {quote : Bytes} {raw : RawCollateral} {time : Int64}
    {cfg : MarshalConfig} (h : calibrate Q quote raw time = some cfg) :
    cfg ∈ calibrationCells ∧ cellPasses Q quote raw time cfg = true := by
  rw [calibrate, Option.or_eq_some_iff] at h
  have hmem : cfg ∈ calibrationCells.filter (cellPasses Q quote raw time) := by
    rcases h with hfind | ⟨-, hhead⟩
    · exact List.mem_of_find?_eq_some hfind
    · exact List.mem_of_head? hhead
  exact List.mem_filter.mp hmem

theorem calibrate_eq_none {Q : Qvl} {quote : Bytes} {raw : RawCollateral} {time : Int64} :
    calibrate Q quote raw time = none ↔
      ∀ cfg ∈ calibrationCells, cellPasses Q quote raw time cfg = false := by
  rw [calibrate, Option.or_eq_none_iff, List.head?_eq_none_iff, List.filter_eq_nil_iff]
  simp only [Bool.not_eq_true]
  refine ⟨fun h => h.2, fun h => ⟨?_, h⟩⟩
  rw [List.filter_eq_nil_iff.mpr fun cfg hcfg => by simp [h cfg hcfg]]
  rfl

/-- **The default is chosen whenever it passes.** -/
theorem calibrate_eq_default {Q : Qvl} {quote : Bytes} {raw : RawCollateral} {time : Int64} :
    calibrate Q quote raw time = some defaultMarshal ↔
      cellPasses Q quote raw time defaultMarshal = true := by
  refine ⟨fun h => (calibrate_passes h).2, fun h => ?_⟩
  have hmem : defaultMarshal ∈ calibrationCells.filter (cellPasses Q quote raw time) :=
    List.mem_filter.mpr ⟨by decide, h⟩
  obtain ⟨cfg, hfind⟩ := Option.isSome_iff_exists.mp
    (List.find?_isSome (p := fun cfg => cfg.label == defaultMarshal.label).mpr
      ⟨_, hmem, beq_self_eq_true _⟩)
  have hcell := List.mem_of_mem_filter (List.mem_of_find?_eq_some hfind)
  obtain rfl := label_eq_default cfg hcell (by simpa using List.find?_some hfind)
  rw [calibrate, hfind]
  rfl

end DcapVerify.Differ
