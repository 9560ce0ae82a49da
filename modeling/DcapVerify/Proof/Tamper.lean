import DcapVerify.Proof.QuoteEdit
import DcapVerify.Proof.Blame

/-!
# Changing one byte of a quote

A quote that has passed every check but possibly the DEBUG gate, with one byte
replaced. Where the byte lies decides which check reads it first, and that check
rejects in its own category, unless a primitive accepts the change as well: a key
accepts one signature on two messages or two signatures on one, or two strings have
one digest. Each lemma states its accident, and the rejection is exactly its absence.
-/

namespace DcapVerify

variable {C : Crates}

/-! ## Inputs that differ in the quote -/

/-- The same input with another quote. -/
def Input.withQuote (i : Input) (q : SgxQuote) : Input := { i with quote := q }

/-- Two readings with the same signed bytes differ in their signatures at most. -/
theorem Input.agreeOutside_of_signed {i : Input} {q' : SgxQuote} {b b' t t' : Bytes}
    {D : List Part} (hread : SgxQuote.read b = (.ok i.quote, t))
    (hread' : SgxQuote.read b' = (.ok q', t'))
    (hsigned : q'.signedBytes = i.quote.signedBytes)
    (hsig : AgreeOutside D i (i.withQuote { i.quote with signature := q'.signature })) :
    AgreeOutside D i (i.withQuote q') := by
  obtain ⟨hvendor, hattr, hmeasure⟩ := read_fields hread
  obtain ⟨hvendor', hattr', hmeasure'⟩ := read_fields hread'
  rw [hsigned] at hvendor' hattr' hmeasure'
  intro p hp
  cases p with
  | qeVendorId => exact List.Vector.eq _ _ (hvendor.trans hvendor'.symm)
  | attributes => exact List.Vector.eq _ _ (hattr.trans hattr'.symm)
  | measurement => exact List.Vector.eq _ _ (hmeasure.trans hmeasure'.symm)
  | signedBytes => exact hsigned.symm
  | chainText kind =>
      cases kind with
      | quotePck => exact hsig (.chainText .quotePck) hp
      | _ => rfl
  | isvSignature => exact hsig .isvSignature hp
  | attestationPubKey => exact hsig .attestationPubKey hp
  | qeReport => exact hsig .qeReport hp
  | qeReportRaw => exact hsig .qeReportRaw hp
  | qeReportSignature => exact hsig .qeReportSignature hp
  | qeAuthData => exact hsig .qeAuthData hp
  | document doc => cases doc <;> rfl
  | _ => rfl

/-- Two readings with the same signature, whose signed bytes differ in neither vendor nor
measurement. -/
theorem Input.agreeOutside_of_signature {i : Input} {q' : SgxQuote} {b b' t t' : Bytes} {k : Nat}
    {v : UInt8} (hread : SgxQuote.read b = (.ok i.quote, t))
    (hread' : SgxQuote.read b' = (.ok q', t')) (hsig : q'.signature = i.quote.signature)
    (hsigned : q'.signedBytes = i.quote.signedBytes.set k v) (hk : k < 12 ∨ 28 ≤ k)
    (hk' : k < 112 ∨ 144 ≤ k) :
    AgreeOutside [.attributes, .signedBytes] i (i.withQuote q') := by
  obtain ⟨hvendor, _, hmeasure⟩ := read_fields hread
  obtain ⟨hvendor', _, hmeasure'⟩ := read_fields hread'
  have hslice : Octets.slice 12 16 q'.signedBytes = Octets.slice 12 16 i.quote.signedBytes := by
    rw [hsigned]
    rcases hk with hk | hk
    · exact Octets.slice_set_of_lt hk
    · exact Octets.slice_set_of_le hk
  have hslice' : Octets.slice 112 32 q'.signedBytes = Octets.slice 112 32 i.quote.signedBytes := by
    rw [hsigned]
    rcases hk' with hk | hk
    · exact Octets.slice_set_of_lt hk
    · exact Octets.slice_set_of_le hk
  rw [hslice] at hvendor'
  rw [hslice'] at hmeasure'
  intro p hp
  cases p with
  | qeVendorId => exact List.Vector.eq _ _ (hvendor.trans hvendor'.symm)
  | measurement => exact List.Vector.eq _ _ (hmeasure.trans hmeasure'.symm)
  | attributes | signedBytes => exact absurd (by decide) hp
  | chainText kind =>
      cases kind with
      | quotePck => exact congrArg SgxEcdsaSignature.certData hsig.symm
      | _ => rfl
  | isvSignature => exact congrArg SgxEcdsaSignature.isvSignature hsig.symm
  | attestationPubKey => exact congrArg SgxEcdsaSignature.attestationPubKey hsig.symm
  | qeReport => exact congrArg SgxEcdsaSignature.qeReport hsig.symm
  | qeReportRaw => exact congrArg SgxEcdsaSignature.qeReportRaw hsig.symm
  | qeReportSignature => exact congrArg SgxEcdsaSignature.qeReportSignature hsig.symm
  | qeAuthData => exact congrArg SgxEcdsaSignature.qeAuthData hsig.symm
  | document doc => cases doc <;> rfl
  | _ => rfl

/-! ## Accidents -/

/-- The attestation key accepts the signature on the message. -/
def AcceptedByAttestationKey (C : Crates) (attestationPubKey message signature : Bytes) : Prop :=
  ∃ key sig, C.fromSec1Bytes (0x04 :: attestationPubKey) = .ok key ∧
    C.signatureFromSlice signature = .ok sig ∧ C.verify key message sig = true

/-- The PCK key accepts the signature on the message. -/
def AcceptedByPckKey (C : Crates) (i : Input) (message signature : Bytes) : Prop :=
  ∃ leaf key sig, (i.chain C .quotePck).certs.head? = some leaf ∧
    C.fromSec1Bytes leaf.publicKey.subjectPublicKey = .ok key ∧
    C.signatureFromSlice signature = .ok sig ∧ C.verify key message sig = true

/-- Two keys and auth data are bound by one report exactly when their digests agree. -/
theorem binding_iff {s s' : SgxEcdsaSignature} (h : BindsKey C s)
    (hreport : s'.qeReport = s.qeReport) :
    BindsKey C s' ↔ C.sha256 (s'.attestationPubKey.toList ++ s'.qeAuthData) =
      C.sha256 (s.attestationPubKey.toList ++ s.qeAuthData) := by
  rw [BindsKey, hreport, h, List.append_cancel_right_eq]
  refine ⟨fun h => ?_, fun h => ?_⟩
  · exact List.Vector.eq _ _ h.symm
  · rw [h]

/-! ## One lemma a field -/

/-- The input with the quote read from other bytes is rejected in one of the categories. -/
def Input.RejectedReading (C : Crates) (i : Input) (b : Bytes) (k : ErrorCategory) : Prop :=
  ∃ q t, SgxQuote.read b = (.ok q, t) ∧
    ∃ e, (i.withQuote q).verify C = .error (.reject e) ∧ e.category = k

theorem Input.rejectedReading_iff {i : Input} {b t : Bytes} {q : SgxQuote} {k : ErrorCategory}
    (h : SgxQuote.read b = (.ok q, t)) :
    i.RejectedReading C b k ↔ ∃ e, (i.withQuote q).verify C = .error (.reject e) ∧
      e.category = k := by
  refine ⟨fun h' => ?_, fun h' => ⟨q, t, h, h'⟩⟩
  obtain ⟨q', t', hread, he⟩ := h'
  rw [h] at hread
  cases hread
  exact he

section

variable {i : Input} {b t raw : Bytes} {k : Nat} {v : UInt8}
  (hpass : ∀ s, s ≠ .debug → Stage.check C s i = .ok ())
  (hread : SgxQuote.read b = (.ok i.quote, t)) (hl : Layout b i.quote t raw)

include hpass

/-- A change that is first read by `s`, judged by `s`. -/
theorem rejected_iff_of_edit {j : Input} {D : List Part} {s : Stage} {c : ErrorCategory}
    (hagree : Input.AgreeOutside D i j) (hs : ∀ t ∈ s.before, t ≠ .debug ∧ t.Ignores D)
    (hfail : RejectsIn [c] (Stage.check C s j)) (hown : s.Owns c) :
    (∃ e, j.verify C = .error (.reject e) ∧ e.category = c) ↔ Stage.check C s j ≠ .ok () :=
  Input.rejected_iff
    (fun t ht => (hagree.check (hs t ht).2).symm.trans (hpass t (hs t ht).1)) hfail hown

/-- With the PCK chain unchanged, the QE report's signature is all that can be at fault. -/
theorem qeReportSignature_rejectsIn {j : Input}
    (hchain : j.chain C .quotePck = i.chain C .quotePck) :
    RejectsIn [.qeReportSignatureInvalid] (Stage.check C .qeReportSignature j) := by
  obtain ⟨key, hkey, _⟩ := Checks.bind_eq_ok.mp (hpass .qeReportSignature (by decide))
  rw [Stage.check, hchain, hkey, Checks.ok_bind]
  exact checkQeReportSignature_rejectsIn C _ key

include hread hl

theorem set_qeVendorId (hlo : 12 ≤ k) (hhi : k < 28) (hv : b[k]? ≠ some v) :
    i.RejectedReading C (b.set k v) .qeVendorInvalid := by
  obtain ⟨q', hq', _, hsigned⟩ := hl.set_signed (k := k) (by omega) (by omega) v
  -- the vendor is checked first
  have hbefore : ∀ t ∈ Stage.qeVendor.before, Stage.check C t (i.withQuote q') = .ok () := by
    intro t ht
    have hnil : Stage.qeVendor.before = [] := by decide
    rw [hnil] at ht
    exact absurd ht List.not_mem_nil
  refine (Input.rejectedReading_iff hq').mpr
    ((Input.rejected_iff hbefore (checkQeVendor_rejectsIn C _) (by decide)).mpr fun hok => ?_)
  have hvendor : i.quote.header.qeVendorId = intelQeVendorId :=
    (checkQeVendor_eq_ok C).mp (hpass .qeVendor (by decide))
  have hvendor' : q'.header.qeVendorId = intelQeVendorId := (checkQeVendor_eq_ok C).mp hok
  -- the two vendors are one slice of the signed bytes, with and without the change
  have hslice := (read_fields hread).1
  have hslice' := (read_fields hq').1
  rw [hsigned, hvendor', ← hvendor, hslice] at hslice'
  have hlen : i.quote.signedBytes.length = 432 := hl.signedLength
  rw [hl.getElem?_signed (by omega)] at hv
  exact Octets.slice_set_ne hlo (by omega) (by omega) hv hslice'.symm

theorem set_measurement (hlo : 112 ≤ k) (hhi : k < 144) (hv : b[k]? ≠ some v) :
    i.RejectedReading C (b.set k v) .mrenclaveMismatch := by
  obtain ⟨q', hq', _, hsigned⟩ := hl.set_signed (k := k) (by omega) (by omega) v
  obtain ⟨hvendor, _, hmeasure⟩ := read_fields hread
  obtain ⟨hvendor', _, hmeasure'⟩ := read_fields hq'
  rw [hsigned] at hvendor' hmeasure'
  -- only the vendor is checked before, and it is unchanged
  have hbefore : ∀ t ∈ Stage.mrenclave.before, Stage.check C t (i.withQuote q') = .ok () := by
    intro t ht
    have hone : Stage.mrenclave.before = [.qeVendor] := by decide
    rw [hone] at ht
    obtain rfl := List.mem_singleton.mp ht
    rw [Octets.slice_set_of_le (by omega), ← hvendor] at hvendor'
    exact (checkQeVendor_eq_ok C).mpr ((List.Vector.eq _ _ hvendor').trans
      ((checkQeVendor_eq_ok C).mp (hpass .qeVendor (by decide))))
  refine (Input.rejectedReading_iff hq').mpr
    ((Input.rejected_iff hbefore (checkMrenclave_rejectsIn C _ _) (by decide)).mpr fun hok => ?_)
  have hpin : i.quote.reportBody.mrenclave = i.expectedMrenclave :=
    (checkMrenclave_eq_ok C).mp (hpass .mrenclave (by decide))
  have hpin' : q'.reportBody.mrenclave = i.expectedMrenclave := (checkMrenclave_eq_ok C).mp hok
  rw [hpin', ← hpin, hmeasure] at hmeasure'
  have hlen : i.quote.signedBytes.length = 432 := hl.signedLength
  rw [hl.getElem?_signed (by omega)] at hv
  exact Octets.slice_set_ne hlo (by omega) (by omega) hv hmeasure'.symm

theorem set_signedBytes (hlo : 4 ≤ k) (hhi : k < 432) (hvendor : k < 12 ∨ 28 ≤ k)
    (hmeasure : k < 112 ∨ 144 ≤ k) :
    i.RejectedReading C (b.set k v) .quoteSignatureInvalid ↔
      ¬ AcceptedByAttestationKey C i.quote.signature.attestationPubKey.toList
        (i.quote.signedBytes.set k v) i.quote.signature.isvSignature.toList := by
  obtain ⟨q', hq', hsig, hsigned⟩ := hl.set_signed hlo hhi v
  have hagree := Input.agreeOutside_of_signature hread hq' hsig hsigned hvendor hmeasure
  have hcheck : Stage.check C .quoteSignature (i.withQuote q') = checkQuoteSignature C q' := rfl
  rw [Input.rejectedReading_iff hq', rejected_iff_of_edit hpass hagree (s := .quoteSignature)
    (by decide) (checkQuoteSignature_rejectsIn C _) (by decide), hcheck, Ne,
    checkQuoteSignature_eq_ok, hsig, hsigned, AcceptedByAttestationKey]

theorem set_isvSignature (hk : k < 64) :
    i.RejectedReading C (b.set (436 + k) v) .quoteSignatureInvalid ↔
      ¬ AcceptedByAttestationKey C i.quote.signature.attestationPubKey.toList i.quote.signedBytes
        (i.quote.signature.isvSignature.toList.set k v) := by
  have hlen := hl.section_length
  obtain ⟨q', hq', hsig, hsigned⟩ := hl.set_section (v := v) (by omega)
    (hl.sectionOf.set_isvSignature hk)
  have hagree : Input.AgreeOutside [.isvSignature] i (i.withQuote q') := by
    refine Input.agreeOutside_of_signed hread hq' hsigned ?_
    rw [hsig]
    intro p hp
    cases p with
    | isvSignature => exact absurd (by decide) hp
    | chainText kind => cases kind <;> rfl
    | document doc => cases doc <;> rfl
    | _ => rfl
  have hcheck : Stage.check C .quoteSignature (i.withQuote q') = checkQuoteSignature C q' := rfl
  rw [Input.rejectedReading_iff hq', rejected_iff_of_edit hpass hagree (s := .quoteSignature)
    (by decide) (checkQuoteSignature_rejectsIn C _) (by decide), hcheck, Ne,
    checkQuoteSignature_eq_ok, hsig, hsigned, AcceptedByAttestationKey, toList_setByte]

theorem set_attestationPubKey (hk : k < 64) :
    i.RejectedReading C (b.set (500 + k) v) .qeBindingInvalid ↔
      C.sha256
          (i.quote.signature.attestationPubKey.toList.set k v ++ i.quote.signature.qeAuthData) ≠
        C.sha256 (i.quote.signature.attestationPubKey.toList ++ i.quote.signature.qeAuthData) := by
  have hlen := hl.section_length
  obtain ⟨q', hq', hsig, hsigned⟩ := hl.set_section (k := 64 + k) (v := v) (by omega)
    (hl.sectionOf.set_attestationPubKey hk)
  have hagree : Input.AgreeOutside [.attestationPubKey] i (i.withQuote q') := by
    refine Input.agreeOutside_of_signed hread hq' hsigned ?_
    rw [hsig]
    intro p hp
    cases p with
    | attestationPubKey => exact absurd (by decide) hp
    | chainText kind => cases kind <;> rfl
    | document doc => cases doc <;> rfl
    | _ => rfl
  have hoff : 500 + k = 436 + (64 + k) := by omega
  have hcheck : Stage.check C .qeBinding (i.withQuote q') = checkQeBinding C q'.signature := rfl
  have hbinds := (checkQeBinding_eq_ok C).mp (hpass .qeBinding (by decide))
  rw [hoff, Input.rejectedReading_iff hq', rejected_iff_of_edit hpass hagree (s := .qeBinding)
    (by decide) (checkQeBinding_rejectsIn C _) (by decide), hcheck, Ne, checkQeBinding_eq_ok,
    binding_iff hbinds (by rw [hsig]), hsig, toList_setByte]

theorem set_qeAuthData (hk : k < i.quote.signature.qeAuthData.length) :
    i.RejectedReading C (b.set (1014 + k) v) .qeBindingInvalid ↔
      C.sha256
          (i.quote.signature.attestationPubKey.toList ++ i.quote.signature.qeAuthData.set k v) ≠
        C.sha256 (i.quote.signature.attestationPubKey.toList ++ i.quote.signature.qeAuthData) := by
  have hlen := hl.section_length
  obtain ⟨q', hq', hsig, hsigned⟩ := hl.set_section (k := 578 + k) (v := v) (by omega)
    (hl.sectionOf.set_qeAuthData hk)
  have hagree : Input.AgreeOutside [.qeAuthData] i (i.withQuote q') := by
    refine Input.agreeOutside_of_signed hread hq' hsigned ?_
    rw [hsig]
    intro p hp
    cases p with
    | qeAuthData => exact absurd (by decide) hp
    | chainText kind => cases kind <;> rfl
    | document doc => cases doc <;> rfl
    | _ => rfl
  have hoff : 1014 + k = 436 + (578 + k) := by omega
  have hcheck : Stage.check C .qeBinding (i.withQuote q') = checkQeBinding C q'.signature := rfl
  have hbinds := (checkQeBinding_eq_ok C).mp (hpass .qeBinding (by decide))
  rw [hoff, Input.rejectedReading_iff hq', rejected_iff_of_edit hpass hagree (s := .qeBinding)
    (by decide) (checkQeBinding_rejectsIn C _) (by decide), hcheck, Ne, checkQeBinding_eq_ok,
    binding_iff hbinds (by rw [hsig]), hsig]

theorem set_qeReportSignature (hk : k < 64) :
    i.RejectedReading C (b.set (948 + k) v) .qeReportSignatureInvalid ↔
      ¬ AcceptedByPckKey C i i.quote.signature.qeReportRaw.toList
        (i.quote.signature.qeReportSignature.toList.set k v) := by
  have hlen := hl.section_length
  obtain ⟨q', hq', hsig, hsigned⟩ := hl.set_section (k := 512 + k) (v := v) (by omega)
    (hl.sectionOf.set_qeReportSignature hk)
  have hagree : Input.AgreeOutside [.qeReportSignature] i (i.withQuote q') := by
    refine Input.agreeOutside_of_signed hread hq' hsigned ?_
    rw [hsig]
    intro p hp
    cases p with
    | qeReportSignature => exact absurd (by decide) hp
    | chainText kind => cases kind <;> rfl
    | document doc => cases doc <;> rfl
    | _ => rfl
  have hoff : 948 + k = 436 + (512 + k) := by omega
  have hchain : (i.withQuote q').chain C .quotePck = i.chain C .quotePck :=
    (Part.same_chain (hagree (.chainText .quotePck) (by decide))).symm
  rw [hoff, Input.rejectedReading_iff hq', rejected_iff_of_edit hpass hagree
    (s := .qeReportSignature) (by decide) (qeReportSignature_rejectsIn hpass hchain)
    (by decide), Ne, Stage.qeReportSignature_passes, hchain, AcceptedByPckKey]
  simp only [Input.withQuote, hsig, toList_setByte]

/-- The QE report is matched against the identity before its signature is looked at. -/
theorem set_qeReport (hk : k < 384) :
    i.RejectedReading C (b.set (564 + k) v) .qeIdentityMismatch ∨
      i.RejectedReading C (b.set (564 + k) v) .qeReportSignatureInvalid ∨
      AcceptedByPckKey C i (i.quote.signature.qeReportRaw.toList.set k v)
        i.quote.signature.qeReportSignature.toList := by
  have hlen := hl.section_length
  obtain ⟨report, _, hsec⟩ := hl.sectionOf.set_qeReport (v := v) hk
  obtain ⟨q', hq', hsig, hsigned⟩ := hl.set_section (k := 128 + k) (v := v) (by omega) hsec
  have hagree : Input.AgreeOutside [.qeReport, .qeReportRaw] i (i.withQuote q') := by
    refine Input.agreeOutside_of_signed hread hq' hsigned ?_
    rw [hsig]
    intro p hp
    cases p with
    | qeReport | qeReportRaw => exact absurd (by decide) hp
    | chainText kind => cases kind <;> rfl
    | document doc => cases doc <;> rfl
    | _ => rfl
  have hoff : 564 + k = 436 + (128 + k) := by omega
  have hchain : (i.withQuote q').chain C .quotePck = i.chain C .quotePck :=
    (Part.same_chain (hagree (.chainText .quotePck) (by decide))).symm
  have hbefore : ∀ s ∈ Stage.qeIdentity.before, Stage.check C s (i.withQuote q') = .ok () := by
    have hall : ∀ s ∈ Stage.qeIdentity.before,
        s ≠ .debug ∧ s.Ignores [.qeReport, .qeReportRaw] := by decide
    exact fun s hs => (hagree.check (hall s hs).2).symm.trans (hpass s (hall s hs).1)
  simp only [hoff, Input.rejectedReading_iff hq']
  -- the identity's hex fields decode, so a mismatch is all that the first of the two can report
  have hmatch : RejectsIn [.qeIdentityMismatch] (Stage.check C .qeIdentity (i.withQuote q')) :=
    checkQeIdentity_blameless C (hpass .qeIdentity (by decide)) _
  cases hid : Stage.check C .qeIdentity (i.withQuote q') with
  | error f =>
      obtain ⟨e, rfl, he⟩ := hmatch.exists_reject hid
      exact .inl ⟨e, Input.verify_stops hbefore hid, List.mem_singleton.mp he⟩
  | ok u =>
      have hbefore' : ∀ s ∈ Stage.qeReportSignature.before,
          Stage.check C s (i.withQuote q') = .ok () := by
        have hsplit : Stage.qeReportSignature.before =
            Stage.qeIdentity.before ++ [.qeIdentity] := by decide
        intro s hs
        rw [hsplit] at hs
        rcases List.mem_append.mp hs with hs | hs
        · exact hbefore s hs
        · rw [List.mem_singleton.mp hs]
          exact hid
      have hiff := Input.rejected_iff hbefore' (qeReportSignature_rejectsIn hpass hchain)
        (by decide)
      rw [Ne, Stage.qeReportSignature_passes, hchain] at hiff
      by_cases hacc : AcceptedByPckKey C i (i.quote.signature.qeReportRaw.toList.set k v)
          i.quote.signature.qeReportSignature.toList
      · exact .inr (.inr hacc)
      · refine .inr (.inl (hiff.mpr ?_))
        simp only [Input.withQuote, hsig, toList_setByte]
        exact hacc

end

/-! ## Bytes that hold the format together -/

section

variable {q : SgxQuote} {b t raw : Bytes} {k : Nat} {v : UInt8} (hl : Layout b q t raw)

include hl

theorem unreadable_of_type (hk : k < 4) (hv : b[k]? ≠ some v) (q' : SgxQuote) (t' raw' : Bytes) :
    ¬ Layout (b.set k v) q' t' raw' := by
  intro hl'
  have hlen := hl.length
  by_cases h : k < 2
  · have hversion : Octets.slice 0 2 (b.set k v) = Octets.slice 0 2 b :=
      hl'.slice_version.trans hl.slice_version.symm
    exact Octets.slice_set_ne (by omega) h (by omega) hv hversion
  · have htype : Octets.slice 2 2 (b.set k v) = Octets.slice 2 2 b :=
      hl'.slice_attKeyType.trans hl.slice_attKeyType.symm
    exact Octets.slice_set_ne (by omega) hk (by omega) hv htype

theorem unreadable_of_length (hk : k < 4) (hv : b[432 + k]? ≠ some v) (q' : SgxQuote)
    (t' raw' : Bytes) : ¬ Layout (b.set (432 + k) v) q' t' raw' := by
  intro hl'
  have hlen : q.signedBytes.length = 432 := hl.signedLength
  rw [hl.bytes, Octets.getElem?_append_add hlen,
    List.getElem?_append_left (by rw [le32_length]; exact hk)] at hv
  rw [hl.bytes, Octets.set_append_add hlen,
    List.set_append_left _ _ (by rw [le32_length]; exact hk)] at hl'
  have hx := hl'.length_unique hl.signedLength (by rw [List.length_set, le32_length]) hl.sectionOf
  exact Octets.set_ne_self (by rw [le32_length]; exact hk) hv hx

end

/-! ## Every byte -/

/-- What the first 1012 bytes of a quote are. -/
inductive QuoteField where
  | format
  | qeVendorId
  | measurement
  | otherSigned
  | isvSignature
  | attestationPubKey
  | qeReport
  | qeReportSignature
  deriving DecidableEq, Repr

namespace QuoteField

/-- The field a byte belongs to. -/
def containing (off : Nat) : QuoteField :=
  if off < 4 then .format
  else if off < 12 then .otherSigned
  else if off < 28 then .qeVendorId
  else if off < 112 then .otherSigned
  else if off < 144 then .measurement
  else if off < 432 then .otherSigned
  else if off < 436 then .format
  else if off < 500 then .isvSignature
  else if off < 564 then .attestationPubKey
  else if off < 948 then .qeReport
  else .qeReportSignature

/-- The bytes of a field. -/
def Covers (off : Nat) : QuoteField → Prop
  | .format => off < 4 ∨ ∃ k < 4, off = 432 + k
  | .qeVendorId => 12 ≤ off ∧ off < 28
  | .measurement => 112 ≤ off ∧ off < 144
  | .otherSigned => 4 ≤ off ∧ off < 432 ∧ (off < 12 ∨ 28 ≤ off) ∧ (off < 112 ∨ 144 ≤ off)
  | .isvSignature => ∃ k < 64, off = 436 + k
  | .attestationPubKey => ∃ k < 64, off = 500 + k
  | .qeReport => ∃ k < 384, off = 564 + k
  | .qeReportSignature => ∃ k < 64, off = 948 + k

theorem covers_containing {off : Nat} (h : off < 1012) : (containing off).Covers off := by
  unfold containing
  split
  · exact .inl ‹_›
  split
  · exact ⟨by omega, by omega, by omega, by omega⟩
  split
  · exact ⟨by omega, by omega⟩
  split
  · exact ⟨by omega, by omega, by omega, by omega⟩
  split
  · exact ⟨by omega, by omega⟩
  split
  · exact ⟨by omega, by omega, by omega, by omega⟩
  split
  · exact .inr ⟨off - 432, by omega, by omega⟩
  split
  · exact ⟨off - 436, by omega, by omega⟩
  split
  · exact ⟨off - 500, by omega, by omega⟩
  split
  · exact ⟨off - 564, by omega, by omega⟩
  · exact ⟨off - 948, by omega, by omega⟩

/-- The categories in which a change of the field is rejected. -/
def categories : QuoteField → List ErrorCategory
  | .format => [.quoteParse]
  | .qeVendorId => [.qeVendorInvalid]
  | .measurement => [.mrenclaveMismatch]
  | .otherSigned | .isvSignature => [.quoteSignatureInvalid]
  | .attestationPubKey => [.qeBindingInvalid]
  | .qeReport => [.qeIdentityMismatch, .qeReportSignatureInvalid]
  | .qeReportSignature => [.qeReportSignatureInvalid]

/-- What a primitive does if the byte at `off` can become `v` and go unnoticed. -/
def Accident (C : Crates) (i : Input) (off : Nat) (v : UInt8) : QuoteField → Prop
  | .format | .qeVendorId | .measurement => False
  | .otherSigned => AcceptedByAttestationKey C i.quote.signature.attestationPubKey.toList
      (i.quote.signedBytes.set off v) i.quote.signature.isvSignature.toList
  | .isvSignature => AcceptedByAttestationKey C i.quote.signature.attestationPubKey.toList
      i.quote.signedBytes (i.quote.signature.isvSignature.toList.set (off - 436) v)
  | .attestationPubKey =>
      C.sha256 (i.quote.signature.attestationPubKey.toList.set (off - 500) v ++
        i.quote.signature.qeAuthData) =
      C.sha256 (i.quote.signature.attestationPubKey.toList ++ i.quote.signature.qeAuthData)
  | .qeReport => AcceptedByPckKey C i (i.quote.signature.qeReportRaw.toList.set (off - 564) v)
      i.quote.signature.qeReportSignature.toList
  | .qeReportSignature => AcceptedByPckKey C i i.quote.signature.qeReportRaw.toList
      (i.quote.signature.qeReportSignature.toList.set (off - 948) v)

end QuoteField

/-- The bytes do not parse, or what they parse to is rejected, in category `k`. -/
def Input.RejectedBytes (C : Crates) (i : Input) (b : Bytes) (k : ErrorCategory) : Prop :=
  (∃ e, (SgxQuote.read b).1 = .error (.reject e) ∧ e.category = k) ∨ i.RejectedReading C b k

/--
**No byte of an accepted quote changes unnoticed.**

Replace any of the first 1012 bytes of an accepted quote, which are everything up to the
auth data, by another value. The result is rejected in a category of the field the byte
belongs to, unless a primitive accepts the change.
-/
theorem byte_change_rejected {i : Input} {r : TcbStanding × SgxReportBody} {b t : Bytes}
    (haccept : verifyRemoteAttestation C i.currentTime i.collateral i.quote i.expectedMrenclave
      i.minTcbEvaluationDataNumber = .ok r)
    (hread : SgxQuote.read b = (.ok i.quote, t)) {off : Nat} (hoff : off < 1012) {v : UInt8}
    (hv : b[off]? ≠ some v) :
    (∃ k ∈ (QuoteField.containing off).categories, i.RejectedBytes C (b.set off v) k) ∨
      (QuoteField.containing off).Accident C i off v := by
  have hpass : ∀ s, s ≠ .debug → Stage.check C s i = .ok () := fun s _ =>
    (Input.verify_eq_ok.mp haccept).1 s
  obtain ⟨raw, hl⟩ := Layout.of_read hread
  have hunreadable (h : ∀ (q' : SgxQuote) (t' raw' : Bytes), ¬ Layout (b.set off v) q' t' raw') :
      ∃ k ∈ [ErrorCategory.quoteParse], i.RejectedBytes C (b.set off v) k :=
    ⟨.quoteParse, List.mem_singleton_self _, .inl (read_rejected h)⟩
  have hcovers := QuoteField.covers_containing hoff
  cases hfield : QuoteField.containing off with
  | format =>
      rw [hfield] at hcovers
      rcases hcovers with h | ⟨k, hk, rfl⟩
      · exact .inl (hunreadable (unreadable_of_type hl h hv))
      · exact .inl (hunreadable (unreadable_of_length hl hk hv))
  | qeVendorId =>
      rw [hfield] at hcovers
      obtain ⟨hlo, hhi⟩ := hcovers
      exact .inl ⟨.qeVendorInvalid, List.mem_singleton_self _,
        .inr (set_qeVendorId hpass hread hl hlo hhi hv)⟩
  | measurement =>
      rw [hfield] at hcovers
      obtain ⟨hlo, hhi⟩ := hcovers
      exact .inl ⟨.mrenclaveMismatch, List.mem_singleton_self _,
        .inr (set_measurement hpass hread hl hlo hhi hv)⟩
  | otherSigned =>
      rw [hfield] at hcovers
      obtain ⟨hlo, hhi, hvendor, hmeasure⟩ := hcovers
      by_cases h : QuoteField.otherSigned.Accident C i off v
      · exact .inr h
      · exact .inl ⟨.quoteSignatureInvalid, List.mem_singleton_self _,
          .inr ((set_signedBytes hpass hread hl hlo hhi hvendor hmeasure).mpr h)⟩
  | isvSignature =>
      rw [hfield] at hcovers
      obtain ⟨k, hk, rfl⟩ := hcovers
      rw [QuoteField.Accident, Nat.add_sub_cancel_left, or_iff_not_imp_right]
      exact fun h => ⟨.quoteSignatureInvalid, List.mem_singleton_self _,
        .inr ((set_isvSignature hpass hread hl hk).mpr h)⟩
  | attestationPubKey =>
      rw [hfield] at hcovers
      obtain ⟨k, hk, rfl⟩ := hcovers
      rw [QuoteField.Accident, Nat.add_sub_cancel_left, or_iff_not_imp_right]
      exact fun h => ⟨.qeBindingInvalid, List.mem_singleton_self _,
        .inr ((set_attestationPubKey hpass hread hl hk).mpr h)⟩
  | qeReport =>
      rw [hfield] at hcovers
      obtain ⟨k, hk, rfl⟩ := hcovers
      rw [QuoteField.Accident, Nat.add_sub_cancel_left]
      rcases set_qeReport hpass hread hl (k := k) (v := v) hk with h | h | h
      · exact .inl ⟨.qeIdentityMismatch, by decide, .inr h⟩
      · exact .inl ⟨.qeReportSignatureInvalid, by decide, .inr h⟩
      · exact .inr h
  | qeReportSignature =>
      rw [hfield] at hcovers
      obtain ⟨k, hk, rfl⟩ := hcovers
      rw [QuoteField.Accident, Nat.add_sub_cancel_left, or_iff_not_imp_right]
      exact fun h => ⟨.qeReportSignatureInvalid, List.mem_singleton_self _,
        .inr ((set_qeReportSignature hpass hread hl hk).mpr h)⟩

section

open Synthetic

/-- The honest evidence. -/
def honestInput : Input :=
  ⟨currentTime, collateral "UpToDate", quote 5 pckChain, mrenclave, 17⟩

/-- The first byte of the quote signature, changed. -/
theorem signature_byte_rejected :
    honestInput.RejectedBytes (crates (registry "UpToDate"))
      ((quote 5 pckChain).encode.set 436 0) .quoteSignatureInvalid := by
  have hv : (quote 5 pckChain).encode[436]? ≠ some 0 := by decide +kernel
  rcases byte_change_rejected (i := honestInput) honest_accepted honest_read
    (by decide) hv with h | h
  · obtain ⟨k, hk, h⟩ := h
    rw [List.mem_singleton.mp hk] at h
    exact h
  · -- under the toy scheme only the signature itself is accepted
    obtain ⟨key, sig, hkey, hsig, hverify⟩ := h
    have hsign : (quote 5 pckChain).signature.isvSignature.toList.set 0 0 =
        (quote 5 pckChain).signature.isvSignature.toList := eq_sign_of_verify hkey hsig hverify
    exact absurd hsign (by decide +kernel)

end

end DcapVerify
