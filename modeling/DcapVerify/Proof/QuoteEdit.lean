import DcapVerify.Proof.Footprint
import DcapVerify.Proof.Peek

/-!
# Editing an encoded quote

Where the parts of a quote lie in its bytes, and what reading the bytes gives once
one of them has been changed. A change to the signed bytes that keeps version and
key type, and a change to the signature section that leaves a section, read back as
the quote with that change. A changed length, version or type reads back as nothing.
-/

namespace DcapVerify

/-! ## The layout -/

/-- `b` is the encoding of `q` followed by `t`, and `raw` is its signature section. -/
structure Layout (b : Bytes) (q : SgxQuote) (t raw : Bytes) : Prop where
  bytes : b = q.signedBytes ++ (le32 (UInt32.ofNat raw.length) ++ (raw ++ t))
  signedLength : q.signedBytes.length = quoteSignedLen
  version : Octets.slice 0 2 q.signedBytes = le16 3
  attKeyType : Octets.slice 2 2 q.signedBytes = le16 2
  fits : raw.length < 2 ^ 32
  sectionOf : SectionOf q.signature raw

theorem Layout.of_read {b t : Bytes} {q : SgxQuote} (h : SgxQuote.read b = (.ok q, t)) :
    ∃ raw, Layout b q t raw := by
  obtain ⟨p, hp, rfl⟩ := QuoteV3.read_eq_ok_iff.mp h
  refine ⟨p.signatureSection, ?_, ?_, ?_, ?_, p.sectionFits, ?_⟩
  · rw [hp.signedBytes, QuoteV3.bytes, List.append_assoc, List.append_assoc]
  · rw [hp.signedBytes, p.signed.toList_length]
  · rw [hp.signedBytes, p.version]
  · rw [hp.signedBytes, p.attKeyType]
  · obtain ⟨_, raw, _, _, _, hsec, hx⟩ := (hp.quoteOf t).parts
    have hraw : raw = p.signatureSection := by
      rw [hsec.bytes, hp.isvSignature, hp.attestationPubKey, hp.qeReportRaw, hp.qeReportSignature,
        hp.qeAuthData, hp.certData]
      rfl
    exact hraw ▸ hsec

/-- Whatever has the layout is read. -/
theorem read_of_layout {signed raw t : Bytes} {s : SgxEcdsaSignature}
    (hlen : signed.length = quoteSignedLen) (hversion : Octets.slice 0 2 signed = le16 3)
    (hkeyType : Octets.slice 2 2 signed = le16 2) (hfits : raw.length < 2 ^ 32)
    (hsec : SectionOf s raw) :
    ∃ q, SgxQuote.read (signed ++ (le32 (UInt32.ofNat raw.length) ++ (raw ++ t))) = (.ok q, t) ∧
      q.signature = s ∧ q.signedBytes = signed := by
  obtain ⟨rfl, hqe, hauth, hty, hcert⟩ := hsec
  let p : QuoteV3 :=
    { signed := ⟨signed, hlen⟩, isvSignature := s.isvSignature,
      attestationPubKey := s.attestationPubKey, qeReportRaw := s.qeReportRaw,
      qeReportSignature := s.qeReportSignature, qeAuthData := s.qeAuthData,
      certData := s.certData, version := hversion, attKeyType := hkeyType, authFits := hauth,
      certFits := hcert, sectionFits := hfits }
  obtain ⟨q, hq⟩ := p.exists_denotes
  refine ⟨q, QuoteV3.read_eq_ok_iff.mpr ⟨p, hq, ?_⟩, ?_, hq.signedBytes⟩
  · rw [QuoteV3.bytes, List.append_assoc, List.append_assoc]
    rfl
  · have hreport : q.signature.qeReport = s.qeReport := Except.ok.inj (hq.qeReport.symm.trans hqe)
    have htype : q.signature.certDataType = s.certDataType := hq.certDataType.trans hty.symm
    have h₁ := hq.isvSignature
    have h₂ := hq.attestationPubKey
    have h₃ := hq.qeReportRaw
    have h₄ := hq.qeReportSignature
    have h₅ := hq.qeAuthData
    have h₆ := hq.certData
    revert h₁ h₂ h₃ h₄ h₅ h₆ hreport htype
    cases q.signature
    cases s
    rintro rfl rfl rfl rfl rfl rfl rfl rfl
    rfl

/-- Bytes that are no encoding are rejected as unparseable. -/
theorem read_rejected {b : Bytes}
    (h : ∀ (q : SgxQuote) (t raw : Bytes), ¬ Layout b q t raw) :
    ∃ e, (SgxQuote.read b).1 = .error (.reject e) ∧ e.category = .quoteParse := by
  cases hr : SgxQuote.read b with
  | mk r t =>
      cases r with
      | ok q =>
          obtain ⟨raw, hl⟩ := Layout.of_read hr
          exact absurd hl (h q t raw)
      | error f =>
          obtain ⟨_, hc⟩ := SgxQuote.read_failure hr
          cases f with
          | panic op => cases hc
          | reject e => exact ⟨e, rfl, Option.some.inj hc⟩

namespace Layout

variable {b t raw : Bytes} {q : SgxQuote}

theorem section_length (h : Layout b q t raw) :
    raw.length = 64 + 64 + 384 + 64 + q.signature.qeAuthData.length +
      q.signature.certData.length + 8 := by
  rw [h.sectionOf.bytes, sectionBytes_length]
  simp

theorem length (h : Layout b q t raw) : b.length = 436 + raw.length + t.length := by
  have hlen : q.signedBytes.length = 432 := h.signedLength
  rw [h.bytes]
  simp only [List.length_append, le32_length, hlen]
  omega

theorem slice_signed (h : Layout b q t raw) : Octets.slice 0 432 b = q.signedBytes := by
  have hlen : q.signedBytes.length = 432 := h.signedLength
  rw [h.bytes, Octets.slice_append_self hlen]

theorem slice_length (h : Layout b q t raw) :
    Octets.slice 432 4 b = le32 (UInt32.ofNat raw.length) := by
  have hlen : q.signedBytes.length = 432 := h.signedLength
  rw [h.bytes, Octets.slice_append_of_le (by omega), hlen,
    Octets.slice_append_self (le32_length _)]

theorem drop_section (h : Layout b q t raw) : b.drop 436 = raw ++ t := by
  have hlen : q.signedBytes.length = 432 := h.signedLength
  rw [h.bytes, ← List.append_assoc, List.drop_left' (by simp [hlen])]

/-- The two type fields of the section lie where the lengths put them. -/
theorem slice_authLength (h : Layout b q t raw) :
    Octets.slice 1012 2 b = le16 (UInt16.ofNat q.signature.qeAuthData.length) := by
  have hdrop : Octets.slice 1012 2 b = Octets.slice 576 2 (b.drop 436) := by
    rw [Octets.slice, Octets.slice, List.drop_drop]
  rw [hdrop, h.drop_section, h.sectionOf.bytes, sectionBytes]
  simp [Octets.slice_append_of_le, Octets.slice_append_self]

theorem slice_certDataType (h : Layout b q t raw) :
    Octets.slice (1014 + q.signature.qeAuthData.length) 2 b = le16 certDataTypePckChain := by
  have hdrop : Octets.slice (1014 + q.signature.qeAuthData.length) 2 b =
      Octets.slice (578 + q.signature.qeAuthData.length) 2 (b.drop 436) := by
    rw [Octets.slice, Octets.slice, List.drop_drop]
    congr 2
    omega
  -- everything in front of the type field, and everything behind it
  obtain ⟨front, rest, hraw, hfront⟩ : ∃ front rest,
      raw = front ++ (le16 certDataTypePckChain ++ rest) ∧
        front.length = 578 + q.signature.qeAuthData.length := by
    refine ⟨q.signature.isvSignature.toList ++ (q.signature.attestationPubKey.toList ++
      (q.signature.qeReportRaw.toList ++ (q.signature.qeReportSignature.toList ++
      (le16 (UInt16.ofNat q.signature.qeAuthData.length) ++ q.signature.qeAuthData)))),
      le32 (UInt32.ofNat q.signature.certData.length) ++ q.signature.certData, ?_, ?_⟩
    · rw [h.sectionOf.bytes, sectionBytes]
      simp only [List.append_assoc]
    · simp
      omega
  rw [hdrop, h.drop_section, hraw, ← hfront, List.append_assoc, List.append_assoc,
    Octets.slice_append_of_le (le_refl _), Nat.sub_self, Octets.slice_append_self (le16_length _)]

end Layout

namespace Layout

variable {b t raw : Bytes} {q : SgxQuote}

theorem slice_version (h : Layout b q t raw) : Octets.slice 0 2 b = le16 3 := by
  rw [← h.version, ← h.slice_signed, Octets.slice_slice (by decide)]

theorem slice_attKeyType (h : Layout b q t raw) : Octets.slice 2 2 b = le16 2 := by
  rw [← h.attKeyType, ← h.slice_signed, Octets.slice_slice (by decide)]

/-- The length field is right for the section behind it, whichever quote is read. -/
theorem length_unique {signed x t' raw' : Bytes} {q' : SgxQuote} {s : SgxEcdsaSignature}
    (hsigned : signed.length = quoteSignedLen) (hx : x.length = 4) (hsec : SectionOf s raw)
    (h : Layout (signed ++ (x ++ (raw ++ t))) q' t' raw') :
    x = le32 (UInt32.ofNat raw.length) := by
  have hlen : signed.length = 432 := hsigned
  have hdrop : (signed ++ (x ++ (raw ++ t))).drop 436 = raw ++ t := by
    rw [← List.append_assoc, List.drop_left' (by simp [hlen, hx])]
  have hlength := h.slice_length
  rw [Octets.slice_append_of_le (by omega), hlen, Octets.slice_append_self hx] at hlength
  -- a section is followed by its rest in one way only
  obtain ⟨_, hraw, _⟩ := reads_signatureFields.unique hsec h.sectionOf
    (hdrop.symm.trans h.drop_section)
  rw [hraw, hlength]

/-! ## Changing one byte -/

/-- In the signed bytes, behind version and key type. -/
theorem set_signed (h : Layout b q t raw) {k : Nat} (hlo : 4 ≤ k) (hhi : k < 432) (v : UInt8) :
    ∃ q', SgxQuote.read (b.set k v) = (.ok q', t) ∧ q'.signature = q.signature ∧
      q'.signedBytes = q.signedBytes.set k v := by
  have hlen : q.signedBytes.length = 432 := h.signedLength
  rw [h.bytes, List.set_append_left _ _ (by omega)]
  refine read_of_layout ?_ ?_ ?_ h.fits h.sectionOf
  · rw [List.length_set]
    exact h.signedLength
  · rw [Octets.slice_set_of_le (by omega), h.version]
  · rw [Octets.slice_set_of_le (by omega), h.attKeyType]

theorem getElem?_signed (h : Layout b q t raw) {k : Nat} (hk : k < 432) :
    b[k]? = q.signedBytes[k]? := by
  have hlen : q.signedBytes.length = 432 := h.signedLength
  rw [h.bytes, List.getElem?_append_left (by omega)]

theorem getElem?_section (h : Layout b q t raw) {k : Nat} (hk : k < raw.length) :
    b[436 + k]? = raw[k]? := by
  have hlen : q.signedBytes.length = 432 := h.signedLength
  have hk' : 436 + k = 432 + (4 + k) := by omega
  rw [h.bytes, hk', Octets.getElem?_append_add hlen, Octets.getElem?_append_add (le32_length _),
    List.getElem?_append_left hk]

/-- In the signature section, if a section is left. -/
theorem set_section (h : Layout b q t raw) {k : Nat} {v : UInt8} {s : SgxEcdsaSignature}
    (hk : k < raw.length) (hs : SectionOf s (raw.set k v)) :
    ∃ q', SgxQuote.read (b.set (436 + k) v) = (.ok q', t) ∧ q'.signature = s ∧
      q'.signedBytes = q.signedBytes := by
  have hlen : q.signedBytes.length = 432 := h.signedLength
  have hset : b.set (436 + k) v =
      q.signedBytes ++ (le32 (UInt32.ofNat (raw.set k v).length) ++ (raw.set k v ++ t)) := by
    have hk' : 436 + k = 432 + (4 + k) := by omega
    rw [h.bytes, hk', Octets.set_append_add hlen, Octets.set_append_add (le32_length _),
      List.set_append_left _ _ hk, List.length_set]
  rw [hset]
  exact read_of_layout h.signedLength h.version h.attKeyType (by rw [List.length_set]; exact h.fits)
    hs

end Layout

/-- An array with one element replaced. -/
def setByte {n : Nat} (a : U8Array n) (k : Nat) (v : UInt8) : U8Array n :=
  ⟨a.toList.set k v, by rw [List.length_set, a.toList_length]⟩

@[simp] theorem toList_setByte {n : Nat} (a : U8Array n) (k : Nat) (v : UInt8) :
    (setByte a k v).toList = a.toList.set k v := rfl

namespace SectionOf

variable {s : SgxEcdsaSignature} {raw : Bytes} {k : Nat} {v : UInt8}

theorem getElem?_isvSignature (h : SectionOf s raw) (hk : k < 64) :
    raw[k]? = s.isvSignature.toList[k]? := by
  rw [h.bytes, sectionBytes, List.getElem?_append_left (by simpa using hk)]

theorem getElem?_attestationPubKey (h : SectionOf s raw) (hk : k < 64) :
    raw[64 + k]? = s.attestationPubKey.toList[k]? := by
  rw [h.bytes, sectionBytes, Octets.getElem?_append_add (List.Vector.toList_length _),
    List.getElem?_append_left (by simpa using hk)]

theorem getElem?_qeReportSignature (h : SectionOf s raw) (hk : k < 64) :
    raw[512 + k]? = s.qeReportSignature.toList[k]? := by
  have hk' : 512 + k = 64 + (64 + (384 + k)) := by omega
  rw [h.bytes, sectionBytes, hk', Octets.getElem?_append_add (List.Vector.toList_length _),
    Octets.getElem?_append_add (List.Vector.toList_length _),
    Octets.getElem?_append_add s.qeReportRaw.toList_length,
    List.getElem?_append_left (by simpa using hk)]

theorem getElem?_qeAuthData (h : SectionOf s raw) (hk : k < s.qeAuthData.length) :
    raw[578 + k]? = s.qeAuthData[k]? := by
  have hk' : 578 + k = 64 + (64 + (384 + (64 + (2 + k)))) := by omega
  rw [h.bytes, sectionBytes, hk', Octets.getElem?_append_add (List.Vector.toList_length _),
    Octets.getElem?_append_add (List.Vector.toList_length _),
    Octets.getElem?_append_add s.qeReportRaw.toList_length,
    Octets.getElem?_append_add (List.Vector.toList_length _),
    Octets.getElem?_append_add (le16_length _), List.getElem?_append_left hk]

theorem set_isvSignature (h : SectionOf s raw) (hk : k < 64) :
    SectionOf { s with isvSignature := setByte s.isvSignature k v } (raw.set k v) where
  bytes := by
    rw [h.bytes, sectionBytes, List.set_append_left _ _ (by simpa using hk)]
    rfl
  qeReport := h.qeReport
  authFits := h.authFits
  certDataType := h.certDataType
  certFits := h.certFits

theorem set_attestationPubKey (h : SectionOf s raw) (hk : k < 64) :
    SectionOf { s with attestationPubKey := setByte s.attestationPubKey k v }
      (raw.set (64 + k) v) where
  bytes := by
    rw [h.bytes, sectionBytes, Octets.set_append_add (List.Vector.toList_length _),
      List.set_append_left _ _ (by simpa using hk)]
    rfl
  qeReport := h.qeReport
  authFits := h.authFits
  certDataType := h.certDataType
  certFits := h.certFits

theorem set_qeReport (h : SectionOf s raw) (hk : k < 384) :
    ∃ report, SgxReportBody.parse (s.qeReportRaw.toList.set k v) = .ok report ∧
      SectionOf { s with qeReportRaw := setByte s.qeReportRaw k v, qeReport := report }
        (raw.set (128 + k) v) := by
  have hlen := (setByte s.qeReportRaw k v).toList_length
  obtain ⟨report, hreport⟩ := SgxReportBody.parse_of_length hlen
  refine ⟨report, hreport, ?_, hreport, h.authFits, h.certDataType, h.certFits⟩
  have hk' : 128 + k = 64 + (64 + k) := by omega
  rw [h.bytes, sectionBytes, hk', Octets.set_append_add (List.Vector.toList_length _),
    Octets.set_append_add (List.Vector.toList_length _),
    List.set_append_left _ _ (by simpa using hk)]
  rfl

theorem set_qeReportSignature (h : SectionOf s raw) (hk : k < 64) :
    SectionOf { s with qeReportSignature := setByte s.qeReportSignature k v }
      (raw.set (512 + k) v) where
  bytes := by
    have hk' : 512 + k = 64 + (64 + (384 + k)) := by omega
    rw [h.bytes, sectionBytes, hk', Octets.set_append_add (List.Vector.toList_length _),
      Octets.set_append_add (List.Vector.toList_length _),
      Octets.set_append_add s.qeReportRaw.toList_length,
      List.set_append_left _ _ (by simpa using hk)]
    rfl
  qeReport := h.qeReport
  authFits := h.authFits
  certDataType := h.certDataType
  certFits := h.certFits

theorem set_qeAuthData (h : SectionOf s raw) (hk : k < s.qeAuthData.length) :
    SectionOf { s with qeAuthData := s.qeAuthData.set k v } (raw.set (578 + k) v) where
  bytes := by
    have hk' : 578 + k = 64 + (64 + (384 + (64 + (2 + k)))) := by omega
    rw [h.bytes, sectionBytes, hk', Octets.set_append_add (List.Vector.toList_length _),
      Octets.set_append_add (List.Vector.toList_length _),
      Octets.set_append_add s.qeReportRaw.toList_length,
      Octets.set_append_add (List.Vector.toList_length _), Octets.set_append_add (le16_length _),
      List.set_append_left _ _ hk, sectionBytes, List.length_set]
  qeReport := h.qeReport
  authFits := by rw [List.length_set]; exact h.authFits
  certDataType := h.certDataType
  certFits := h.certFits

end SectionOf

/-! ## The fields of the signed bytes -/

theorem SgxReportBody.Encodes.attributes_slice {b : SgxReportBody} {raw : Bytes}
    (h : SgxReportBody.Encodes b raw) : Octets.slice 48 16 raw = b.attributes.toList := by
  obtain ⟨r1, r2, r3, r4, h1, h2, h3, h4, rfl⟩ := h
  simp [Octets.slice_append_of_le, Octets.slice_append_self, h1]

/-- The three fields the pipeline reads of header and report body are slices of the signed bytes. -/
theorem read_fields {b t : Bytes} {q : SgxQuote} (h : SgxQuote.read b = (.ok q, t)) :
    q.header.qeVendorId.toList = Octets.slice 12 16 q.signedBytes ∧
      q.reportBody.attributes.toList = Octets.slice 96 16 q.signedBytes ∧
      q.reportBody.mrenclave.toList = Octets.slice 112 32 q.signedBytes := by
  obtain ⟨p, hp, _⟩ := QuoteV3.read_eq_ok_iff.mp h
  have henc := SgxReportBody.parse_eq_ok.mp hp.reportBody
  rw [hp.signedBytes]
  refine ⟨hp.headerQeVendorId, ?_, ?_⟩
  · rw [← henc.attributes_slice, Octets.slice_slice (by decide)]
  · rw [← henc.mrenclave_slice, Octets.slice_slice (by decide)]

end DcapVerify
