import DcapVerify.Fixtures.Derive
import DcapVerify.Proof.PolicyOrder
import DcapVerify.Proof.Tamper

/-!
# The derived corpus is right

Each case that the derivation script makes from a quote is recorded with one
category. Whatever debug-mode case it is derived from, the verifier rejects it in
that category, unless a primitive happens to accept what was changed: `Survives` is
that accident, spelled out for each edit. The script's comments claim the category;
here it follows from where the edit lies and from the order of the checks.

The script pins the base quote's own measurement, asks for no evaluation round and has
every case checked at one time, so a base that is itself checked at that time differs
from its cases in the edit alone.
-/

namespace DcapVerify

variable {C : Crates}

namespace Fixtures

/-- What the verifier is given in a case. -/
def FixtureCase.input (case : FixtureCase) (collateral : SgxCollateral) (quote : SgxQuote) :
    Input :=
  ⟨case.currentTime, collateral, quote, case.mrenclave, case.minTcbEvaluationDataNumber⟩

section

variable {collateralFromSlice : Bytes → Except String SgxCollateral} {case : FixtureCase}
  {collateral : SgxCollateral}

/-- On decoded files, a case is rejected as the verifier rejects its input. -/
theorem rejectedAs_iff_verify
    (hcoll : collateralFromSlice case.collateralBytes = .ok collateral) {quote : SgxQuote}
    (hquote : (SgxQuote.read case.quoteBytes).1 = .ok quote) (k : ErrorCategory) :
    RejectedAs C collateralFromSlice case k.asStr ↔
      ∃ e, (case.input collateral quote).verify C = .error (.reject e) ∧ e.category = k := by
  have hverify : (case.input collateral quote).verify C = verifyRemoteAttestation C
      case.currentTime collateral quote case.mrenclave case.minTcbEvaluationDataNumber := rfl
  simp only [RejectedAs, runCase, hcoll, hquote, ← hverify]
  cases (case.input collateral quote).verify C with
  | ok r => simp
  | error f =>
      cases f with
      | panic op => simp
      | reject e =>
          simp only [Except.ok.injEq, Verdict.reject.injEq, exists_and_left, exists_eq', and_true,
            Except.error.injEq, Fault.reject.injEq, exists_eq_left']
          exact ErrorCategory.asStr_injective.eq_iff

/-- In a category other than the parser's, it is rejected after its quote has been read. -/
theorem rejectedAs_iff_reading
    (hcoll : collateralFromSlice case.collateralBytes = .ok collateral) {quote : SgxQuote}
    {k : ErrorCategory} (hk : k ≠ .quoteParse) :
    RejectedAs C collateralFromSlice case k.asStr ↔
      (case.input collateral quote).RejectedReading C case.quoteBytes k := by
  cases hr : SgxQuote.read case.quoteBytes with
  | mk r t =>
      cases r with
      | ok q =>
          rw [Input.rejectedReading_iff hr, rejectedAs_iff_verify hcoll (congrArg Prod.fst hr)]
          rfl
      | error f =>
          have hparse := (SgxQuote.read_failure hr).2
          refine iff_of_false ?_ ?_
          · rintro ⟨message, hrun⟩
            rw [runCase, hcoll, hr] at hrun
            cases f with
            | panic op => cases hparse
            | reject e =>
                simp only [Except.ok.injEq, Verdict.reject.injEq] at hrun
                exact hk ((ErrorCategory.asStr_injective hrun.1).symm.trans
                  (Option.some.inj hparse))
          · rintro ⟨q, t', hread, _⟩
            rw [hr] at hread
            cases hread

/-- A quote that does not parse is rejected as such. -/
theorem rejectedAs_of_unreadable
    (hcoll : collateralFromSlice case.collateralBytes = .ok collateral)
    (h : ∀ (q : SgxQuote) (t raw : Bytes), ¬ Layout case.quoteBytes q t raw) :
    RejectedAs C collateralFromSlice case "quote-parse-error" := by
  obtain ⟨e, he, hk⟩ := read_rejected h
  refine ⟨errorDisplay e, ?_⟩
  rw [runCase, hcoll]
  simp only [he, hk]
  rfl

end

/-! ## Writing and loading -/

theorem universalNewlines_eq {raw : Bytes} (h : 13 ∉ raw) :
    ∀ {prev : UInt8}, prev ≠ 13 → universalNewlines prev raw = raw := by
  induction raw with
  | nil => exact fun _ => rfl
  | cons b rest ih =>
      intro prev hprev
      obtain ⟨hb, hrest⟩ := not_or.mp (List.mem_cons.not.mp h)
      have hb' : b ≠ 13 := Ne.symm hb
      rw [universalNewlines, if_neg hb', if_neg (fun h => hprev h.2), ih hrest hb']
      rfl

/-- A text without carriage returns is read as it is. -/
theorem readText_eq_some {raw text : Bytes} (h : 13 ∉ raw) (hread : readText raw = some text) :
    text = raw := by
  unfold readText at hread
  split at hread
  · rw [← Option.some.inj hread, universalNewlines_eq h (by decide)]
  · cases hread

theorem expect_eq_ok {α : Type} {o : Option α} {msg : String} {a : α} :
    expect o msg = .ok a ↔ o = some a := by
  cases o <;> simp [expect]

/-- The time every derived case is checked at. -/
def atBaseTime : SystemTime := ⟨baseTime.toNat * 10 ^ 9, by decide⟩

theorem epochPlus_baseTime : epochPlus baseTime = some atBaseTime := rfl

/-- What a loaded case takes from its files as it is. -/
theorem loadCase_eq_ok {files : CaseFiles} {case : FixtureCase}
    (h : loadCase C files = .ok case) :
    case.quoteBytes = files.quote ∧ case.collateralBytes = files.collateral ∧
      epochPlus files.metadata.currentTimeUnix = some case.currentTime := by
  obtain ⟨mr, _, h⟩ := Checks.bind_eq_ok.mp h
  obtain ⟨mrenclave, _, h⟩ := Checks.bind_eq_ok.mp h
  obtain ⟨currentTime, htime, h⟩ := Checks.bind_eq_ok.mp h
  obtain ⟨floor, _, h⟩ := Checks.bind_eq_ok.mp h
  cases h
  exact ⟨rfl, rfl, expect_eq_ok.mp htime⟩

/-- A record the script has made is loaded back. -/
theorem loadCase_rej (hhex : ∀ bytes, C.hexDecode (hex bytes) = .ok bytes)
    (quote collateral : Bytes) (cat : String) (mrenclave : MREnclave) :
    loadCase C ⟨quote, collateral, rej cat baseTime (hex mrenclave.toList) 0⟩ =
      .ok ⟨quote, collateral, mrenclave, atBaseTime, 0, "reject", some cat⟩ := by
  have hinto : tryInto 32 mrenclave.toList = some mrenclave := tryInto_eq_some.mpr rfl
  simp only [loadCase, rej, hhex, Except.toOption, expect, hinto, epochPlus_baseTime,
    Checks.ok_bind, if_true, floorOf]
  rfl

/-! ## The edits -/

theorem update_eq_some {f : UInt8 → UInt8} {buf buf' : Bytes} {off : Nat} :
    update f buf off = some buf' ↔ ∃ x, buf[off]? = some x ∧ buf' = buf.set off (f x) := by
  rw [update, Option.map_eq_some_iff]
  simp only [eq_comm]

theorem packInto_eq_some {buf buf' field : Bytes} {off : Nat}
    (h : packInto buf off field = some buf') :
    off + field.length ≤ buf.length ∧
      buf' = buf.take off ++ (field ++ buf.drop (off + field.length)) := by
  unfold packInto at h
  split at h
  · rename_i hle
    cases h
    exact ⟨hle, List.append_assoc _ _ _⟩
  · cases h

/-- What is packed is read back. -/
theorem slice_packInto {buf buf' field : Bytes} {off : Nat}
    (h : packInto buf off field = some buf') : Octets.slice off field.length buf' = field := by
  obtain ⟨hle, rfl⟩ := packInto_eq_some h
  have hlen : (buf.take off).length = off := by rw [List.length_take]; omega
  rw [Octets.slice_append_of_le (by omega), hlen, Nat.sub_self, Octets.slice_append_self rfl]

/-- Nothing in front of it changes. -/
theorem slice_packInto_of_le {buf buf' field : Bytes} {off o len : Nat}
    (h : packInto buf off field = some buf') (ho : o + len ≤ off) :
    Octets.slice o len buf' = Octets.slice o len buf := by
  obtain ⟨hle, rfl⟩ := packInto_eq_some h
  have hlen : (buf.take off).length = off := by rw [List.length_take]; omega
  conv_rhs => rw [← List.take_append_drop off buf]
  rw [Octets.slice_append_left (by omega), Octets.slice_append_left (by omega)]

/-! ## The accidents -/

/-- What a primitive does where the edit goes unnoticed: it accepts another signature on a message,
or one signature on two messages, or hashes two strings alike. No primitive helps a quote that no
longer parses, or one that names another vendor. -/
def QuoteCase.Survives (C : Crates) (i : Input) (case : QuoteCase) : Prop :=
  let s := i.quote.signature
  match case with
  | .isvSignatureBitflip => ∃ sig, flip s.isvSignature.toList 0 = some sig ∧
      AcceptedByAttestationKey C s.attestationPubKey.toList i.quote.signedBytes sig
  | .attributesDebugBitCleared => ∃ signed, clearDebugBit i.quote.signedBytes = some signed ∧
      AcceptedByAttestationKey C s.attestationPubKey.toList signed s.isvSignature.toList
  | .attestPubkeyBitflip => ∃ pubkey, flip s.attestationPubKey.toList 0 = some pubkey ∧
      C.sha256 (pubkey ++ s.qeAuthData) = C.sha256 (s.attestationPubKey.toList ++ s.qeAuthData)
  | .qeAuthDataBitflip => ∃ auth, flip s.qeAuthData 0 = some auth ∧
      C.sha256 (s.attestationPubKey.toList ++ auth) =
        C.sha256 (s.attestationPubKey.toList ++ s.qeAuthData)
  | .qeReportSignatureBitflip => ∃ sig, flip s.qeReportSignature.toList 0 = some sig ∧
      AcceptedByPckKey C i s.qeReportRaw.toList sig
  | .qeVendorIdFlip | .quoteVersion4 | .quoteAttKeyType1 | .quoteCertDataType1
  | .quoteSigSectionSlack | .quoteTruncated => False

/-! ## One lemma an edit -/

theorem xor_one_ne (x : UInt8) : x ^^^ 0x01 ≠ x := by
  intro h
  have hx := congrArg (x ^^^ ·) h
  simp only [← UInt8.xor_assoc, UInt8.xor_self] at hx
  simp at hx

section

variable {i : Input} {b b' t raw : Bytes} (hpass : ∀ s, s ≠ .debug → Stage.check C s i = .ok ())
  (hread : SgxQuote.read b = (.ok i.quote, t)) (hl : Layout b i.quote t raw)

include hpass hread hl

theorem edit_qeVendorIdFlip (h : flip b offQeVendorId = some b') :
    i.RejectedReading C b' .qeVendorInvalid := by
  obtain ⟨x, hx, rfl⟩ := update_eq_some.mp h
  refine set_qeVendorId hpass hread hl (by decide) (by decide) ?_
  rw [hx]
  exact fun heq => xor_one_ne x (Option.some.inj heq).symm

theorem edit_isvSignatureBitflip (h : flip b offIsvSig = some b') :
    i.RejectedReading C b' .quoteSignatureInvalid ↔
      ¬ QuoteCase.Survives C i .isvSignatureBitflip := by
  obtain ⟨x, hx, rfl⟩ := update_eq_some.mp h
  have hlen := hl.section_length
  have hget : i.quote.signature.isvSignature.toList[0]? = some x := by
    rw [← hl.sectionOf.getElem?_isvSignature (by decide), ← hl.getElem?_section (by omega)]
    exact hx
  have hflip : flip i.quote.signature.isvSignature.toList 0 =
      some (i.quote.signature.isvSignature.toList.set 0 (x ^^^ 0x01)) :=
    update_eq_some.mpr ⟨x, hget, rfl⟩
  have hset := set_isvSignature (k := 0) (v := x ^^^ 0x01) hpass hread hl (by decide)
  rw [QuoteCase.Survives]
  simp only [hflip, Option.some.injEq, exists_eq_left']
  exact hset

theorem edit_attestPubkeyBitflip (h : flip b offAttestPubkey = some b') :
    i.RejectedReading C b' .qeBindingInvalid ↔
      ¬ QuoteCase.Survives C i .attestPubkeyBitflip := by
  obtain ⟨x, hx, rfl⟩ := update_eq_some.mp h
  have hlen := hl.section_length
  have hget : i.quote.signature.attestationPubKey.toList[0]? = some x := by
    rw [← hl.sectionOf.getElem?_attestationPubKey (by decide), ← hl.getElem?_section (by omega)]
    exact hx
  have hflip : flip i.quote.signature.attestationPubKey.toList 0 =
      some (i.quote.signature.attestationPubKey.toList.set 0 (x ^^^ 0x01)) :=
    update_eq_some.mpr ⟨x, hget, rfl⟩
  have hset := set_attestationPubKey (k := 0) (v := x ^^^ 0x01) hpass hread hl (by decide)
  rw [QuoteCase.Survives]
  simp only [hflip, Option.some.injEq, exists_eq_left']
  exact hset

theorem edit_qeAuthDataBitflip (hauth : 0 < i.quote.signature.qeAuthData.length)
    (h : flip b offQeAuthData = some b') :
    i.RejectedReading C b' .qeBindingInvalid ↔
      ¬ QuoteCase.Survives C i .qeAuthDataBitflip := by
  obtain ⟨x, hx, rfl⟩ := update_eq_some.mp h
  have hlen := hl.section_length
  have hget : i.quote.signature.qeAuthData[0]? = some x := by
    rw [← hl.sectionOf.getElem?_qeAuthData hauth, ← hl.getElem?_section (by omega)]
    exact hx
  have hflip : flip i.quote.signature.qeAuthData 0 =
      some (i.quote.signature.qeAuthData.set 0 (x ^^^ 0x01)) :=
    update_eq_some.mpr ⟨x, hget, rfl⟩
  have hset := set_qeAuthData (k := 0) (v := x ^^^ 0x01) hpass hread hl hauth
  rw [QuoteCase.Survives]
  simp only [hflip, Option.some.injEq, exists_eq_left']
  exact hset

theorem edit_qeReportSignatureBitflip (h : flip b offQeReportSig = some b') :
    i.RejectedReading C b' .qeReportSignatureInvalid ↔
      ¬ QuoteCase.Survives C i .qeReportSignatureBitflip := by
  obtain ⟨x, hx, rfl⟩ := update_eq_some.mp h
  have hlen := hl.section_length
  have hget : i.quote.signature.qeReportSignature.toList[0]? = some x := by
    rw [← hl.sectionOf.getElem?_qeReportSignature (by decide), ← hl.getElem?_section (by omega)]
    exact hx
  have hflip : flip i.quote.signature.qeReportSignature.toList 0 =
      some (i.quote.signature.qeReportSignature.toList.set 0 (x ^^^ 0x01)) :=
    update_eq_some.mpr ⟨x, hget, rfl⟩
  have hset := set_qeReportSignature (k := 0) (v := x ^^^ 0x01) hpass hread hl (by decide)
  rw [QuoteCase.Survives]
  simp only [hflip, Option.some.injEq, exists_eq_left']
  exact hset

theorem edit_attributesDebugBitCleared (h : clearDebugBit b = some b') :
    i.RejectedReading C b' .quoteSignatureInvalid ↔
      ¬ QuoteCase.Survives C i .attributesDebugBitCleared := by
  obtain ⟨x, hx, rfl⟩ := update_eq_some.mp h
  have hclear : clearDebugBit i.quote.signedBytes =
      some (i.quote.signedBytes.set 96 (x &&& ~~~0x02)) := by
    refine update_eq_some.mpr ⟨x, ?_, rfl⟩
    rw [← hl.getElem?_signed (by decide)]
    exact hx
  have hset := set_signedBytes (k := 96) (v := x &&& ~~~0x02) hpass hread hl (by decide)
    (by decide) (by decide) (by decide)
  rw [QuoteCase.Survives]
  simp only [hclear, Option.some.injEq, exists_eq_left']
  exact hset

end

/-! ## Edits that leave no quote -/

section

variable {b b' t raw : Bytes} {q : SgxQuote}

theorem unreadable_version4 (h : setU16 b offVersion 4 = some b') (q' : SgxQuote)
    (t' raw' : Bytes) : ¬ Layout b' q' t' raw' := by
  intro hl
  have hslice : Octets.slice 0 2 b' = le16 4 := slice_packInto h
  exact absurd (hslice.symm.trans hl.slice_version) (by decide)

theorem unreadable_attKeyType1 (h : setU16 b offAttKeyType 1 = some b') (q' : SgxQuote)
    (t' raw' : Bytes) : ¬ Layout b' q' t' raw' := by
  intro hl
  have hslice : Octets.slice 2 2 b' = le16 1 := slice_packInto h
  exact absurd (hslice.symm.trans hl.slice_attKeyType) (by decide)

theorem unreadable_certDataType1 (hread : Layout b q t raw)
    (hauth : q.signature.qeAuthData.length = 32) (h : setU16 b offCertDataType 1 = some b')
    (q' : SgxQuote) (t' raw' : Bytes) : ¬ Layout b' q' t' raw' := by
  intro hl
  -- the length in front of the auth data is still 32, so the type is still looked for where it was
  have hlen : q'.signature.qeAuthData.length = 32 := by
    have hslice : Octets.slice 1012 2 b' = le16 (UInt16.ofNat 32) := by
      rw [slice_packInto_of_le h (by decide), hread.slice_authLength, hauth]
    have heq := ByteReader.le16_injective (hl.slice_authLength.symm.trans hslice)
    have hfits := hl.sectionOf.authFits
    have hnat := congrArg UInt16.toNat heq
    rw [UInt16.toNat_ofNat', UInt16.toNat_ofNat'] at hnat
    omega
  have htype : Octets.slice 1046 2 b' = le16 certDataTypePckChain := by
    rw [← hl.slice_certDataType, hlen]
  have hslice : Octets.slice 1046 2 b' = le16 1 := slice_packInto h
  exact absurd (hslice.symm.trans htype) (by decide)

theorem getRange_eq_some {bytes x : Bytes} {lo hi : Nat} (h : getRange bytes lo hi = some x) :
    x = Octets.slice lo (hi - lo) bytes := by
  unfold getRange at h
  split at h
  · exact (Option.some.inj h).symm
  · cases h

/-- The section is followed by bytes that its length now covers. -/
theorem addSigSlack_eq_some {n : Nat} (hread : Layout b q t raw) (h : addSigSlack b n = some b') :
    raw.length + n < 2 ^ 32 ∧ b' = q.signedBytes ++
      (le32 (UInt32.ofNat (raw.length + n)) ++ (raw ++ (List.replicate n 0 ++ t))) := by
  obtain ⟨sigLen, hsigLen, h⟩ := Option.bind_eq_some_iff.mp h
  obtain ⟨field, hfield, hn⟩ := Option.bind_eq_some_iff.mp hsigLen
  have hslice : field = le32 (UInt32.ofNat raw.length) :=
    (getRange_eq_some hfield).trans hread.slice_length
  have hsig : sigLen.toNat = raw.length := by
    have hof : sigLen = UInt32.ofNat raw.length := by
      rw [← Option.some.inj hn]
      exact (ByteReader.u32FromLeBytes_eq_iff (by rw [hslice, le32_length])).mpr hslice
    rw [hof, UInt32.toNat_ofNat', Nat.mod_eq_of_lt hread.fits]
  rw [hsig] at h
  dsimp only at h
  split at h
  · rename_i hfits
    obtain ⟨packed, hpacked, h⟩ := Option.bind_eq_some_iff.mp h
    obtain ⟨_, hpacked⟩ := packInto_eq_some hpacked
    have hlen : q.signedBytes.length = 432 := hread.signedLength
    have htake : b.take 432 = q.signedBytes := by
      rw [hread.bytes, List.take_left' hlen]
    have hpacked' : packed =
        (q.signedBytes ++ (le32 (UInt32.ofNat (raw.length + n)) ++ raw)) ++ t := by
      rw [hpacked, le32_length, offSigLen, htake, hread.drop_section]
      simp only [List.append_assoc]
    have hfin : (q.signedBytes ++ (le32 (UInt32.ofNat (raw.length + n)) ++ raw)).length =
        offSigLen + 4 + raw.length := by
      simp [hlen, offSigLen]
      omega
    refine ⟨hfits, ?_⟩
    rw [← Option.some.inj h, hpacked', List.take_left' hfin, List.drop_left' hfin]
    simp only [List.append_assoc]
  · cases h

theorem unreadable_sigSectionSlack (hread : Layout b q t raw) (h : addSigSlack b 4 = some b')
    (q' : SgxQuote) (t' raw' : Bytes) : ¬ Layout b' q' t' raw' := by
  intro hl
  obtain ⟨hfits, rfl⟩ := addSigSlack_eq_some hread h
  have hlen := ByteReader.le32_injective
    (hl.length_unique hread.signedLength (le32_length _) hread.sectionOf)
  have hnat := congrArg UInt32.toNat hlen
  rw [UInt32.toNat_ofNat', UInt32.toNat_ofNat'] at hnat
  omega

theorem unreadable_truncated (q' : SgxQuote) (t' raw' : Bytes) :
    ¬ Layout (b.take 100) q' t' raw' := by
  intro hl
  have hlen := hl.length
  rw [List.length_take] at hlen
  omega

end

/-! ## The corpus -/

/-- The measurement the script cuts out of the quote is the one the verifier has read. -/
theorem slice_mrenclave {b t : Bytes} {q : SgxQuote} (hread : SgxQuote.read b = (.ok q, t)) :
    Octets.slice 112 32 b = q.reportBody.mrenclave.toList := by
  obtain ⟨raw, hl⟩ := Layout.of_read hread
  rw [(read_fields hread).2.2, ← hl.slice_signed, Octets.slice_slice (by decide)]

/-- A case whose quote is an edit of `b`, beside parameters under which `b` passes every check but
the last: it is rejected in the edit's category exactly unless the edit survives. -/
theorem edit_rejected {collateralFromSlice : Bytes → Except String SgxCollateral}
    {derived : FixtureCase} {collateral : SgxCollateral} {quote : SgxQuote} {b rest : Bytes}
    (hcoll : collateralFromSlice derived.collateralBytes = .ok collateral)
    (hread : SgxQuote.read b = (.ok quote, rest))
    (hpass : ∀ s, s ≠ .debug → Stage.check C s (derived.input collateral quote) = .ok ())
    (hauth : quote.signature.qeAuthData.length = 32) (case : QuoteCase)
    (hderive : case.derive b = some derived.quoteBytes) :
    RejectedAs C collateralFromSlice derived case.category ↔
      ¬ case.Survives C (derived.input collateral quote) := by
  obtain ⟨raw, hl⟩ := Layout.of_read hread
  have hread' : SgxQuote.read b = (.ok (derived.input collateral quote).quote, rest) := hread
  have hl' : Layout b (derived.input collateral quote).quote rest raw := hl
  -- an edit that leaves a quote is judged by the verifier, one that leaves none by the parser
  have hjudged (k : ErrorCategory) (hk : k ≠ .quoteParse) :
      RejectedAs C collateralFromSlice derived k.asStr ↔
        (derived.input collateral quote).RejectedReading C derived.quoteBytes k :=
    rejectedAs_iff_reading hcoll hk
  have hunreadable (h : ∀ (q' : SgxQuote) (t' raw' : Bytes),
      ¬ Layout derived.quoteBytes q' t' raw') :=
    @rejectedAs_of_unreadable C _ derived _ hcoll h
  cases case with
  | qeVendorIdFlip =>
      exact iff_of_true ((hjudged .qeVendorInvalid (by decide)).mpr
        (edit_qeVendorIdFlip hpass hread' hl' hderive)) id
  | isvSignatureBitflip =>
      exact (hjudged .quoteSignatureInvalid (by decide)).trans
        (edit_isvSignatureBitflip hpass hread' hl' hderive)
  | attestPubkeyBitflip =>
      exact (hjudged .qeBindingInvalid (by decide)).trans
        (edit_attestPubkeyBitflip hpass hread' hl' hderive)
  | qeReportSignatureBitflip =>
      exact (hjudged .qeReportSignatureInvalid (by decide)).trans
        (edit_qeReportSignatureBitflip hpass hread' hl' hderive)
  | qeAuthDataBitflip =>
      have hpos : 0 < quote.signature.qeAuthData.length := by omega
      exact (hjudged .qeBindingInvalid (by decide)).trans
        (edit_qeAuthDataBitflip hpass hread' hl' hpos hderive)
  | attributesDebugBitCleared =>
      exact (hjudged .quoteSignatureInvalid (by decide)).trans
        (edit_attributesDebugBitCleared hpass hread' hl' hderive)
  | quoteVersion4 => exact iff_of_true (hunreadable (unreadable_version4 hderive)) id
  | quoteAttKeyType1 => exact iff_of_true (hunreadable (unreadable_attKeyType1 hderive)) id
  | quoteCertDataType1 =>
      exact iff_of_true (hunreadable (unreadable_certDataType1 hl hauth hderive)) id
  | quoteSigSectionSlack =>
      exact iff_of_true (hunreadable (unreadable_sigSectionSlack hl hderive)) id
  | quoteTruncated =>
      have hcut : b.take 100 = derived.quoteBytes := Option.some.inj hderive
      exact iff_of_true (hunreadable (hcut ▸ unreadable_truncated)) id

/--
**Every derived quote case is rejected in its category.**

Take any case that the verifier rejects for being in debug mode and nothing else, at the
time the script writes down, with 32 bytes of auth data and no carriage return in its
collateral. Whatever the derivation script writes of it loads, and it is rejected as its
record says, exactly unless a primitive accepts what was changed.
-/
theorem derived_quotes_rejected {collateralFromSlice : Bytes → Except String SgxCollateral}
    {base files : CaseFiles} {loaded : FixtureCase} {collateral : SgxCollateral}
    {quote : SgxQuote} {rest : Bytes}
    (hhex : ∀ bytes, C.hexDecode (hex bytes) = .ok bytes)
    (hloaded : loadCase C base = .ok loaded)
    (htime : base.metadata.currentTimeUnix = baseTime) (hreturn : 13 ∉ base.collateral)
    (hcoll : collateralFromSlice base.collateral = .ok collateral)
    (hread : SgxQuote.read base.quote = (.ok quote, rest))
    (hbase : RejectedAs C collateralFromSlice loaded "debug-enclave-rejected")
    (hauth : quote.signature.qeAuthData.length = 32) (case : QuoteCase)
    (hfiles : case.files base = some files) :
    ∃ derived, loadCase C files = .ok derived ∧
      (RejectedAsRecorded C collateralFromSlice derived ↔
        ¬ case.Survives C (loaded.input collateral quote)) := by
  obtain ⟨hquote, hcollateral, hnow⟩ := loadCase_eq_ok hloaded
  obtain ⟨dc, hdc, hfiles⟩ := Option.bind_eq_some_iff.mp hfiles
  obtain ⟨quoteBytes, hderive, hfiles⟩ := Option.bind_eq_some_iff.mp hfiles
  rw [readText_eq_some hreturn hdc, slice_mrenclave hread] at hfiles
  rw [htime, epochPlus_baseTime] at hnow
  obtain ⟨e, he, hk⟩ := (rejectedAs_iff_verify (hcollateral ▸ hcoll)
    (hquote ▸ congrArg Prod.fst hread) .debugEnclaveRejected).mp hbase
  obtain ⟨hpass, _⟩ := Input.passes_of_debug he hk
  -- the base's pin is the quote's own measurement, or the base had been rejected for that
  have hpin : quote.reportBody.mrenclave = loaded.mrenclave :=
    (checkMrenclave_eq_ok C).mp (hpass .mrenclave (by decide))
  obtain ⟨derived, hderived, hinput⟩ : ∃ derived : FixtureCase,
      derived = ⟨quoteBytes, base.collateral, quote.reportBody.mrenclave, atBaseTime, 0, "reject",
        some case.category⟩ ∧
      derived.input collateral quote = (loaded.input collateral quote).withFloor 0 := by
    refine ⟨_, rfl, ?_⟩
    rw [FixtureCase.input, FixtureCase.input, Input.withFloor, hpin, Option.some.inj hnow]
  refine ⟨derived, ?_, ?_⟩
  · rw [← Option.some.inj hfiles, hderived]
    exact loadCase_rej hhex _ _ _ _
  · have hedit := @edit_rejected C collateralFromSlice derived collateral quote base.quote rest
      (by rw [hderived]; exact hcoll) hread
      (hinput ▸ fun s hs => Stage.check_lower_floor UInt32.zero_le (hpass s hs)) hauth case
      (by rw [hderived]; exact hderive)
    have hverdict : derived.verdict = "reject" := by rw [hderived]
    have hcategory : derived.category.getD "?" = case.category := by rw [hderived]; rfl
    -- the accident is about quote and collateral, which the floor is no part of
    rw [RejectedAsRecorded, hcategory, hedit, hinput]
    exact ⟨fun h => h.2, fun h => ⟨hverdict, h⟩⟩

section

open Synthetic

/-- A debug-mode quote with 32 bytes of auth data. -/
def debugQuote : SgxQuote :=
  let q := quote 7 pckChain
  { q with signature := { q.signature with qeAuthData := List.replicate 32 0 } }

/-- The synthetic PKI with windows that the script's time is in. -/
def lasting : Registry :=
  let reg := registry "UpToDate"
  { reg with
    certs := reg.certs.map fun cert => { cert with validity := ⟨1000, 2 ^ 31⟩ }
    crls := reg.crls.map fun crl => { crl with nextUpdate := some (2 ^ 31) }
    tcbInfo := { reg.tcbInfo with nextUpdate := 2 ^ 31 }
    qeIdentity := { reg.qeIdentity with nextUpdate := 2 ^ 31 } }

def lastingCollateral : SgxCollateral :=
  let c := collateral "UpToDate"
  { c with
    tcbInfo := { c.tcbInfo with body := lasting.tcbInfo }
    qeIdentity := { c.qeIdentity with body := lasting.qeIdentity } }

/-- The one collateral file there is. -/
def lastingFromSlice (bytes : Bytes) : Except String SgxCollateral :=
  if bytes = asBytes "collateral" then .ok lastingCollateral else .error "malformed"

def debugBase : CaseFiles where
  quote := debugQuote.encode
  collateral := asBytes "collateral"
  metadata := rej "debug-enclave-rejected" baseTime (hex mrenclave.toList) 0

def debugCase : FixtureCase :=
  ⟨debugBase.quote, debugBase.collateral, mrenclave, atBaseTime, 0, "reject",
    some "debug-enclave-rejected"⟩

theorem debugQuote_read : SgxQuote.read debugBase.quote = (.ok debugQuote, []) := by
  decide +kernel

theorem debugCase_rejected :
    RejectedAs (crates lasting) lastingFromSlice debugCase "debug-enclave-rejected" := by
  refine (@rejectedAs_iff_verify _ _ debugCase lastingCollateral rfl _
    (congrArg Prod.fst debugQuote_read) .debugEnclaveRejected).mpr
    ⟨⟨.debugEnclaveRejected,
      "report attributes 07000000000000000000000000000000 carry the DEBUG flag"⟩, ?_, rfl⟩
  show verifyRemoteAttestation _ _ _ _ _ _ = _
  decide +kernel

/-- One bit of the quote signature, on a debug-mode quote. -/
theorem debug_flip_rejected :
    ∃ files derived, QuoteCase.isvSignatureBitflip.files debugBase = some files ∧
      loadCase (crates lasting) files = .ok derived ∧
      RejectedAsRecorded (crates lasting) lastingFromSlice derived := by
  have hfiles : QuoteCase.isvSignatureBitflip.files debugBase =
      some ⟨debugBase.quote.set 436 ((debugBase.quote[436]?.getD 0) ^^^ 1), debugBase.collateral,
        rej "quote-signature-invalid" baseTime (hex mrenclave.toList) 0⟩ := by
    decide +kernel
  have hhex := hexDecode_hexEncode lasting
  obtain ⟨derived, hloaded, hiff⟩ := derived_quotes_rejected hhex (loadCase_rej hhex _ _ _ _) rfl
    (by decide) rfl debugQuote_read debugCase_rejected rfl .isvSignatureBitflip hfiles
  refine ⟨_, derived, hfiles, hloaded, hiff.mpr ?_⟩
  rintro ⟨sig, hflip, key, sig', hkey, hsig, hv⟩
  -- under the toy scheme only the signature itself is accepted
  have hsign : sig = debugQuote.signature.isvSignature.toList := eq_sign_of_verify hkey hsig hv
  have hne : flip debugQuote.signature.isvSignature.toList 0 ≠
      some debugQuote.signature.isvSignature.toList := by decide +kernel
  exact hne (hsign ▸ hflip)

end

end Fixtures

end DcapVerify
