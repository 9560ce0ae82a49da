import DcapVerify.Types.Collateral
import DcapVerify.Lib.Fields
import DcapVerify.Synthetic

/-!
# Signed envelopes

A signed document arrives as an object with a body and a signature among its members.
The signature is checked over the body's raw text, decisions are taken from its parse,
and both must come from one place. They do: deserialisation succeeds exactly when either
member occurs once, so neither the order of the members nor anything else among them has
a say.
-/

namespace DcapVerify

namespace Signed

/-- The raw values of the members under `key`, in order. -/
def rawUnder (key : String) (members : List (String × String)) : List String :=
  (members.filter fun member => member.1 = key).map Prod.snd

theorem rawUnder_cons (key : String) (member : String × String) (members : List (String × String)) :
    rawUnder key (member :: members) = rawUnder key [member] ++ rawUnder key members := by
  rw [rawUnder, rawUnder, rawUnder, ← List.map_append, ← List.filter_append]
  rfl

theorem rawUnder_singleton (key raw : String) : rawUnder key [(key, raw)] = [raw] := by
  simp [rawUnder]

theorem rawUnder_of_ne {key key' : String} (raw : String) (h : key' ≠ key) :
    rawUnder key [(key', raw)] = [] := by
  simp [rawUnder, h]

variable (C : Crates) {T : Type} (B : SignedBody T)

/-- What the loop does to the two slots over `members`. -/
def SlotsFilled (members : List (String × String)) (slots slots' : SignedSlots) : Prop :=
  Fields.Once (fun raw text => raw = text) slots.bodyRaw (rawUnder B.wireField members)
      slots'.bodyRaw ∧
    Fields.Once (fun raw text => C.jsonString raw = .ok text) slots.signatureHex
      (rawUnder "signature" members) slots'.signatureHex

variable {C} {B}

/-- One round of the loop fills at most one slot, and never twice. -/
theorem visitMember_eq_ok (hB : B.wireField ≠ "signature") {slots slots' : SignedSlots}
    {member : String × String} :
    visitMember C B slots member = .ok slots' ↔ SlotsFilled C B [member] slots slots' := by
  obtain ⟨key, raw⟩ := member
  obtain ⟨bodyRaw, signatureHex⟩ := slots
  obtain ⟨bodyRaw', signatureHex'⟩ := slots'
  unfold visitMember SlotsFilled
  by_cases hwire : key = B.wireField
  · subst hwire
    rw [rawUnder_singleton, rawUnder_of_ne raw hB, Fields.once_singleton, Fields.once_nil]
    cases bodyRaw with
    | some text => simp
    | none => simp [eq_comm]
  · rw [rawUnder_of_ne raw hwire, Fields.once_nil]
    by_cases hsignature : key = "signature"
    · subst hsignature
      rw [rawUnder_singleton, Fields.once_singleton]
      cases signatureHex with
      | some text => simp [hwire]
      | none =>
          simp only [if_neg hwire, if_true, Option.isSome_none, Bool.false_eq_true, if_false,
            Checks.bind_eq_ok, Checks.mapError_eq_ok, Except.ok.injEq, SignedSlots.mk.injEq,
            true_and]
          refine ⟨fun h => ?_, fun h => ?_⟩
          · obtain ⟨text, htext, hbody, hsig⟩ := h
            exact ⟨hbody, text, htext, hsig.symm⟩
          · obtain ⟨hbody, text, htext, hsig⟩ := h
            exact ⟨text, htext, hbody, hsig.symm⟩
    · rw [rawUnder_of_ne raw hsignature, Fields.once_nil]
      simp [hwire, hsignature]

/-- Filling over a list is filling over its parts. -/
theorem slotsFilled_cons {member : String × String} {members : List (String × String)}
    {slots slots' : SignedSlots} :
    SlotsFilled C B (member :: members) slots slots' ↔
      ∃ mid, SlotsFilled C B [member] slots mid ∧ SlotsFilled C B members mid slots' := by
  rw [SlotsFilled, rawUnder_cons, rawUnder_cons "signature", Fields.once_append,
    Fields.once_append]
  refine ⟨fun h => ?_, fun h => ?_⟩
  · obtain ⟨⟨body, hbody, hbody'⟩, sig, hsig, hsig'⟩ := h
    exact ⟨⟨body, sig⟩, ⟨hbody, hsig⟩, hbody', hsig'⟩
  · obtain ⟨mid, ⟨hbody, hsig⟩, hbody', hsig'⟩ := h
    exact ⟨⟨mid.bodyRaw, hbody, hbody'⟩, mid.signatureHex, hsig, hsig'⟩

/-- **The loop, exactly.** -/
theorem foldlM_visitMember_eq_ok (hB : B.wireField ≠ "signature")
    {members : List (String × String)} {slots slots' : SignedSlots} :
    members.foldlM (visitMember C B) slots = .ok slots' ↔ SlotsFilled C B members slots slots' := by
  induction members generalizing slots with
  | nil =>
      have hnil : ∀ key, rawUnder key [] = [] := fun _ => rfl
      rw [List.foldlM_nil, Checks.pure_eq_ok, SlotsFilled, hnil, hnil, Fields.once_nil,
        Fields.once_nil, SignedSlots.mk.injEq]
  | cons member members ih =>
      rw [List.foldlM_cons, Checks.bind_eq_ok, slotsFilled_cons]
      refine exists_congr fun mid => ?_
      rw [visitMember_eq_ok hB, ih]

variable (C) (B)

/-- What an envelope must be to denote `signed`: the body once, the signature once, and the body's
raw text kept and parsed. -/
structure Denotes (members : List (String × String)) (signed : Signed T) : Prop where
  body : rawUnder B.wireField members = [signed.bodyJson]
  signature : ∃ raw, rawUnder "signature" members = [raw] ∧
    C.jsonString raw = .ok signed.signatureHex
  parsed : B.fromStr signed.bodyJson = .ok signed.body

variable {C} {B}

/-- **Deserialisation, exactly.** -/
theorem visitMap_eq_ok_iff (hB : B.wireField ≠ "signature") {members : List (String × String)}
    {signed : Signed T} :
    visitMap C B members = .ok signed ↔ Denotes C B members signed := by
  rw [visitMap, Checks.bind_eq_ok]
  refine ⟨fun h => ?_, fun h => ?_⟩
  · obtain ⟨⟨bodyRaw, signatureHex⟩, hrun, h⟩ := h
    obtain ⟨hbody, hsignature⟩ := (foldlM_visitMember_eq_ok hB).mp hrun
    cases bodyRaw with
    | none => cases h
    | some text => cases signatureHex with
      | none => cases h
      | some sig =>
          obtain ⟨body, hparsed, h⟩ := Checks.bind_eq_ok.mp h
          cases h
          obtain ⟨raw, hraw, rfl⟩ := Fields.once_none_some.mp hbody
          obtain ⟨rawSig, hrawSig, htext⟩ := Fields.once_none_some.mp hsignature
          exact ⟨hraw, ⟨rawSig, hrawSig, htext⟩, Checks.mapError_eq_ok.mp hparsed⟩
  · refine ⟨⟨some signed.bodyJson, some signed.signatureHex⟩, ?_, ?_⟩
    · exact (foldlM_visitMember_eq_ok hB).mpr
        ⟨Fields.once_none_some.mpr ⟨_, h.body, rfl⟩, Fields.once_none_some.mpr h.signature⟩
    · exact Checks.bind_eq_ok.mpr ⟨signed.body, Checks.mapError_eq_ok.mpr h.parsed, rfl⟩

/-! ## Arrangements -/

variable (B)

/-- The members of an envelope that are read. -/
def envelopeMembers (members : List (String × String)) : List (String × String) :=
  members.filter fun member => member.1 = B.wireField ∨ member.1 = "signature"

variable {B}

/-- Both runs give the same document, or both are refused. -/
def SameResult {ε α : Type} (m m' : Except ε α) : Prop :=
  (∃ a, m = .ok a ∧ m' = .ok a) ∨ ∃ e e', m = .error e ∧ m' = .error e'

theorem rawUnder_envelopeMembers {key : String} (h : key = B.wireField ∨ key = "signature")
    (members : List (String × String)) :
    rawUnder key (envelopeMembers B members) = rawUnder key members := by
  rw [rawUnder, rawUnder, envelopeMembers, List.filter_filter]
  refine congrArg (List.map Prod.snd) (List.filter_congr fun member _ => ?_)
  by_cases hkey : member.1 = key
  · subst hkey
    simp [h]
  · simp [hkey]

theorem rawUnder_perm {key : String} (h : key = B.wireField ∨ key = "signature")
    {members members' : List (String × String)}
    (hperm : (envelopeMembers B members).Perm (envelopeMembers B members')) :
    (rawUnder key members).Perm (rawUnder key members') := by
  rw [← rawUnder_envelopeMembers h, ← rawUnder_envelopeMembers h members']
  exact (hperm.filter _).map _

theorem Denotes.of_perm {members members' : List (String × String)} {signed : Signed T}
    (hperm : (envelopeMembers B members).Perm (envelopeMembers B members'))
    (h : Denotes C B members signed) : Denotes C B members' signed := by
  have hbody := rawUnder_perm (.inl rfl) hperm
  have hsignature := rawUnder_perm (.inr rfl) hperm
  obtain ⟨raw, hraw, htext⟩ := h.signature
  rw [h.body] at hbody
  rw [hraw] at hsignature
  exact ⟨(List.singleton_perm.mp hbody).symm,
    ⟨raw, (List.singleton_perm.mp hsignature).symm, htext⟩, h.parsed⟩

variable (C) (B)

/-- What deserialisation guarantees about envelopes of one kind. -/
structure EnvelopeLaws : Prop where
  exact : ∀ (members : List (String × String)) (signed : Signed T),
    visitMap C B members = .ok signed ↔ Denotes C B members signed
  arranged : ∀ members members' : List (String × String),
    (envelopeMembers B members).Perm (envelopeMembers B members') →
    SameResult (visitMap C B members) (visitMap C B members')

variable {C} {B}

theorem envelopeLaws (hB : B.wireField ≠ "signature") : EnvelopeLaws C B where
  exact _ _ := visitMap_eq_ok_iff hB
  arranged members members' hperm := by
    cases hrun : visitMap C B members with
    | ok signed =>
        have hdenotes := (visitMap_eq_ok_iff hB).mp hrun
        exact .inl ⟨signed, rfl, (visitMap_eq_ok_iff hB).mpr (hdenotes.of_perm hperm)⟩
    | error e =>
        cases hrun' : visitMap C B members' with
        | error e' => exact .inr ⟨e, e', rfl, rfl⟩
        | ok signed =>
            have hdenotes := (visitMap_eq_ok_iff hB).mp hrun'
            rw [(visitMap_eq_ok_iff hB).mpr (hdenotes.of_perm hperm.symm)] at hrun
            cases hrun

end Signed

/--
**An envelope is read the same however its members are arranged.**

For both kinds of signed document: deserialisation succeeds exactly when the body and a
textual signature occur once each and the body parses, it keeps the body's raw text, and
rearranging the members, adding others or leaving them out changes nothing.
-/
theorem signed_documents_exact (C : Crates) :
    Signed.EnvelopeLaws C (tcbInfoBody C) ∧ Signed.EnvelopeLaws C (qeIdentityBody C) := by
  refine ⟨Signed.envelopeLaws ?_, Signed.envelopeLaws ?_⟩
  · show "tcbInfo" ≠ "signature"
    decide
  · show "enclaveIdentity" ≠ "signature"
    decide

/-- The signature first and a member gone: the same document. -/
theorem reordered_document_same :
    let C := Synthetic.crates (Synthetic.registry "UpToDate")
    Signed.SameResult
      (Signed.visitMap C (tcbInfoBody C)
        [("tcbInfo", "tcb-info"), ("extra", "0"), ("signature", "00")])
      (Signed.visitMap C (tcbInfoBody C) [("signature", "00"), ("tcbInfo", "tcb-info")]) :=
  (signed_documents_exact _).1.arranged _ _ (by decide)

end DcapVerify
