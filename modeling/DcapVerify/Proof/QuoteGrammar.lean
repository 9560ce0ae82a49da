import DcapVerify.Proof.ReportGrammar

/-!
# The v3 quote grammar

An encoded quote is `S ‖ le32 |G| ‖ G`: 432 signed bytes `S` that open with
version 3 and key type 2, then a signature section `G` holding two signatures, a
key, the QE report, and two length-prefixed strings.

`QuoteV3` is that grammar as a type: its values are the decompositions, lengths
and fixed fields included, so an ill-formed one cannot be written down. The
results connect it to `SgxQuote.read` in both directions. The parser's three
attacker-controlled lengths are handled where they are read, by exactness of each
reader; nothing here reasons about offsets.
-/

namespace DcapVerify

open ByteReader

/-- The signature section with the given parts. -/
def sectionBytes (isv pk raw rsig auth cert : Bytes) : Bytes :=
  isv ++ (pk ++ (raw ++ (rsig ++ (le16 (UInt16.ofNat auth.length) ++ (auth ++
    (le16 certDataTypePckChain ++ (le32 (UInt32.ofNat cert.length) ++ cert)))))))

theorem sectionBytes_length (isv pk raw rsig auth cert : Bytes) :
    (sectionBytes isv pk raw rsig auth cert).length =
      isv.length + pk.length + raw.length + rsig.length + auth.length + cert.length + 8 := by
  simp [sectionBytes]
  omega

/-- The first 48 bytes of a quote with the given header. -/
def headerBytes (h : SgxQuoteHeader) : Bytes :=
  le16 h.version ++ (le16 h.attKeyType ++ (le32 h.reserved ++ (le16 h.qeSvn ++ (le16 h.pceSvn ++
    (h.qeVendorId.toList ++ h.userData.toList)))))

@[simp] theorem headerBytes_length (h : SgxQuoteHeader) : (headerBytes h).length = 48 := by
  simp [headerBytes]

/-- Any 48 bytes are a header. -/
theorem exists_header {bs : Bytes} (h : bs.length = 48) : ∃ hd, bs = headerBytes hd := by
  obtain ⟨a, r, rfl, ha, h⟩ := Octets.exists_prefix (n := 2) (m := 46) h
  obtain ⟨b, r, rfl, hb, h⟩ := Octets.exists_prefix (n := 2) (m := 44) h
  obtain ⟨c, r, rfl, hc, h⟩ := Octets.exists_prefix (n := 4) (m := 40) h
  obtain ⟨d, r, rfl, hd, h⟩ := Octets.exists_prefix (n := 2) (m := 38) h
  obtain ⟨e, r, rfl, he, h⟩ := Octets.exists_prefix (n := 2) (m := 36) h
  obtain ⟨v, u, rfl, hv, hu⟩ := Octets.exists_prefix (n := 16) (m := 20) h
  refine ⟨⟨u16FromLeBytes a, u16FromLeBytes b, u32FromLeBytes c, u16FromLeBytes d,
    u16FromLeBytes e, ⟨v, hv⟩, ⟨u, hu⟩⟩, ?_⟩
  rw [headerBytes, ← (u16FromLeBytes_eq_iff ha).mp rfl, ← (u16FromLeBytes_eq_iff hb).mp rfl,
    ← (u32FromLeBytes_eq_iff hc).mp rfl, ← (u16FromLeBytes_eq_iff hd).mp rfl,
    ← (u16FromLeBytes_eq_iff he).mp rfl]
  rfl

/-! ## The signature section -/

/-- `raw` is the signature section that `s` is read from. -/
structure SectionOf (s : SgxEcdsaSignature) (raw : Bytes) : Prop where
  bytes : raw = sectionBytes s.isvSignature.toList s.attestationPubKey.toList s.qeReportRaw.toList
    s.qeReportSignature.toList s.qeAuthData s.certData
  qeReport : SgxReportBody.parse s.qeReportRaw.toList = .ok s.qeReport
  authFits : s.qeAuthData.length < 2 ^ 16
  certDataType : s.certDataType = certDataTypePckChain
  certFits : s.certData.length < 2 ^ 32

/-- A length prefix is right exactly when it is the length and the length fits. -/
theorem toNat_eq_iff16 {n : UInt16} {len : Nat} :
    len = n.toNat ↔ len < 2 ^ 16 ∧ n = UInt16.ofNat len := by
  have := n.toNat_lt
  rw [← UInt16.toNat_inj, UInt16.toNat_ofNat']
  omega

theorem toNat_eq_iff32 {n : UInt32} {len : Nat} :
    len = n.toNat ↔ len < 2 ^ 32 ∧ n = UInt32.ofNat len := by
  have := n.toNat_lt
  rw [← UInt32.toNat_inj, UInt32.toNat_ofNat']
  omega

theorem reads_check {c : Prop} [Decidable c] {e : VerifyError} :
    Wire.Reads (check (rejectIf c e)) (fun _ x => ¬ c ∧ x = []) :=
  (Wire.Reads.lift _).congr fun _ x => by rw [rejectIf_eq_ok]

theorem reads_signatureFields : Wire.Reads SgxQuote.readSignatureFields SectionOf := by
  refine Wire.Reads.congr
    ((reads_array 64 _).field fun isv _ => (reads_array 64 _).field fun pk _ =>
    (reads_array 384 _).field fun raw _ => (Wire.Reads.lift _).field fun rep _ =>
    (reads_array 64 _).field fun rsig _ => (reads_u16Le _).field fun alen _ =>
    (reads_take _ _).field fun auth _ => (reads_u16Le _).field fun ty _ =>
    reads_check.field fun _ _ => (reads_u32Le _).field fun clen _ =>
    (reads_take _ _).field fun cert _ => Wire.Reads.pure _) ?_
  intro s x
  refine ⟨fun h => ?_, fun h => ?_⟩
  · obtain ⟨isv, _, -, ⟨pk, _, -, ⟨raw, _, -, ⟨rep, _, hrep, ⟨rsig, _, -, ⟨alen, _, -, ⟨auth, _, ha,
      ⟨ty, _, -, ⟨_, _, hty, ⟨clen, _, -, ⟨cert, _, hc, ⟨rfl, rfl⟩, rfl⟩, rfl⟩, rfl⟩, rfl⟩, rfl⟩,
      rfl⟩, rfl⟩, rfl⟩, rfl⟩, rfl⟩, rfl⟩ := h
    -- the two length fields are what ties the strings to their prefixes
    obtain ⟨hafit, rfl⟩ := toNat_eq_iff16.mp ha
    obtain ⟨hcfit, rfl⟩ := toNat_eq_iff32.mp hc
    obtain rfl := Decidable.not_not.mp hty
    exact ⟨by simp only [sectionBytes, List.nil_append, List.append_nil], hrep, hafit, rfl, hcfit⟩
  · obtain ⟨rfl, hrep, hafit, hty, hcfit⟩ := h
    refine ⟨_, _, ⟨⟩, ⟨_, _, ⟨⟩, ⟨_, _, ⟨⟩, ⟨_, _, hrep, ⟨_, _, ⟨⟩,
      ⟨UInt16.ofNat s.qeAuthData.length, _, ⟨⟩, ⟨_, _, toNat_eq_iff16.mpr ⟨hafit, rfl⟩,
      ⟨s.certDataType, _, ⟨⟩, ⟨(), _, not_not.mpr hty, ⟨UInt32.ofNat s.certData.length, _, ⟨⟩,
      ⟨_, _, toNat_eq_iff32.mpr ⟨hcfit, rfl⟩, ⟨rfl, rfl⟩, (List.append_nil _).symm⟩,
      rfl⟩, rfl⟩, rfl⟩, rfl⟩, rfl⟩, rfl⟩, rfl⟩, rfl⟩, rfl⟩, ?_⟩
    rw [hty]
    rfl

/-- `read_signature` accepts exactly the sections, with nothing left over. -/
theorem readSignature_eq_ok {raw : Bytes} {s : SgxEcdsaSignature} :
    SgxQuote.readSignature raw = .ok s ↔ SectionOf s raw := by
  rw [SgxQuote.readSignature, Checks.bind_eq_ok, ← reads_signatureFields.whole]
  refine ⟨fun h => ?_, fun h => ?_⟩
  · obtain ⟨⟨s', rest⟩, hr, h⟩ := h
    obtain ⟨hrest, h⟩ := Checks.seq_eq_ok.mp h
    rw [rejectIf_eq_ok, not_not] at hrest
    rw [Checks.pure_eq_ok] at h
    rw [hr, hrest, h]
  · exact ⟨(s, []), h, Checks.seq_eq_ok.mpr ⟨by simp, rfl⟩⟩

/-! ## The whole quote -/

/-- `x` is the encoding that `q` is read from, at the start of `input`. -/
structure QuoteOf (input : Bytes) (q : SgxQuote) (x : Bytes) : Prop where
  parts : ∃ body raw, body.length = reportBodyLen ∧ SgxReportBody.parse body = .ok q.reportBody ∧
    raw.length < 2 ^ 32 ∧ SectionOf q.signature raw ∧
    x = headerBytes q.header ++ (body ++ (le32 (UInt32.ofNat raw.length) ++ raw))
  version : q.header.version = quoteVersion3
  attKeyType : q.header.attKeyType = attKeyTypeEcdsaP256
  signedBytes : SgxQuote.getTo input quoteSignedLen = some q.signedBytes

theorem reads_quoteFields (input : Bytes) :
    Wire.Reads (SgxQuote.readFields input) (QuoteOf input) := by
  refine Wire.Reads.congr ((reads_u16Le _).field fun ver _ => reads_check.field fun _ _ =>
    (reads_u16Le _).field fun aty _ => reads_check.field fun _ _ =>
    (reads_u32Le _).field fun res _ => (reads_u16Le _).field fun qsvn _ =>
    (reads_u16Le _).field fun psvn _ =>
    (reads_array 16 _).field fun vid _ => (reads_array 20 _).field fun usr _ =>
    (reads_take 384 _).field fun body _ => (Wire.Reads.lift _).field fun rep _ =>
    (Wire.Reads.lift _).field fun sb _ => (reads_u32Le _).field fun slen _ =>
    (reads_take _ _).field fun raw _ => (Wire.Reads.lift _).field fun sg _ => Wire.Reads.pure _) ?_
  intro q x
  refine ⟨fun h => ?_, fun h => ?_⟩
  · obtain ⟨ver, _, -, ⟨_, _, hver, ⟨aty, _, -, ⟨_, _, haty, ⟨res, _, -, ⟨qsvn, _, -, ⟨psvn, _, -,
      ⟨vid, _, -, ⟨usr, _, -, ⟨body, _, hbl, ⟨rep, _, hrep, ⟨sb, _, hsb, ⟨slen, _, -,
      ⟨raw, _, hs, ⟨sg, _, hsg, ⟨rfl, rfl⟩, rfl⟩, rfl⟩, rfl⟩, rfl⟩, rfl⟩, rfl⟩, rfl⟩, rfl⟩, rfl⟩,
      rfl⟩, rfl⟩, rfl⟩, rfl⟩, rfl⟩, rfl⟩ := h
    obtain ⟨hsfit, rfl⟩ := toNat_eq_iff32.mp hs
    refine ⟨⟨body, raw, hbl, hrep, hsfit, readSignature_eq_ok.mp hsg, ?_⟩,
      not_not.mp hver, not_not.mp haty, okOrReject_eq_ok.mp hsb⟩
    simp only [headerBytes, List.nil_append, List.append_nil, List.append_assoc]
  · obtain ⟨⟨body, raw, hbl, hrep, hsfit, hsec, rfl⟩, hver, haty, hsb⟩ := h
    refine ⟨_, _, ⟨⟩, ⟨(), _, not_not.mpr hver, ⟨_, _, ⟨⟩, ⟨(), _, not_not.mpr haty, ⟨_, _, ⟨⟩,
      ⟨_, _, ⟨⟩, ⟨_, _, ⟨⟩, ⟨_, _, ⟨⟩, ⟨_, _, ⟨⟩, ⟨body, _, hbl, ⟨_, _, hrep,
      ⟨_, _, okOrReject_eq_ok.mpr hsb, ⟨UInt32.ofNat raw.length, _, ⟨⟩,
      ⟨raw, _, toNat_eq_iff32.mpr ⟨hsfit, rfl⟩, ⟨_, _, readSignature_eq_ok.mpr hsec, ⟨rfl, rfl⟩,
      (List.append_nil _).symm⟩, rfl⟩, rfl⟩, rfl⟩, rfl⟩, rfl⟩, rfl⟩, rfl⟩, rfl⟩, rfl⟩, rfl⟩, rfl⟩,
      rfl⟩, rfl⟩, ?_⟩
    simp only [headerBytes, List.nil_append, List.append_nil, List.append_assoc]

theorem SgxQuote.read_eq_ok {b t : Bytes} {q : SgxQuote} :
    SgxQuote.read b = (.ok q, t) ↔ ∃ x, QuoteOf b q x ∧ b = x ++ t := by
  rw [← reads_quoteFields b b q t, SgxQuote.read]
  cases h : SgxQuote.readFields b b with
  | ok r => obtain ⟨q', t'⟩ := r; simp
  | error e => simp

/-- Only a successful read moves the cursor. -/
theorem SgxQuote.read_error {b t : Bytes} {f : Fault} (h : SgxQuote.read b = (.error f, t)) :
    t = b ∧ SgxQuote.readFields b b = .error f := by
  rw [SgxQuote.read] at h
  cases hr : SgxQuote.readFields b b with
  | ok r => rw [hr] at h; simp at h
  | error e => rw [hr] at h; simp at h; exact ⟨h.2.symm, by rw [h.1]⟩

/-! ## Every failure is a parse error -/

theorem fails_signatureFields : Wire.Fails ParseFault SgxQuote.readSignatureFields :=
  Wire.Fails.bind (reads_array 64 _) (fails_array 64 _) fun _ _ _ =>
  Wire.Fails.bind (reads_array 64 _) (fails_array 64 _) fun _ _ _ =>
  Wire.Fails.bind (reads_array 384 _) (fails_array 384 _) fun _ _ _ =>
  Wire.Fails.bind (Wire.Reads.lift _)
    (Wire.Fails.lift (SgxReportBody.parse_rejectsIn _)) fun _ _ _ =>
  Wire.Fails.bind (reads_array 64 _) (fails_array 64 _) fun _ _ _ =>
  Wire.Fails.bind (reads_u16Le _) (fails_u16Le _) fun _ _ _ =>
  Wire.Fails.bind (reads_take _ _) (fails_take _ _) fun _ _ _ =>
  Wire.Fails.bind (reads_u16Le _) (fails_u16Le _) fun _ _ _ =>
  Wire.Fails.bind reads_check fails_check fun _ _ _ =>
  Wire.Fails.bind (reads_u32Le _) (fails_u32Le _) fun _ _ _ =>
  Wire.Fails.bind (reads_take _ _) (fails_take _ _) fun _ _ _ => Wire.Fails.pure _

theorem readSignature_rejectsIn (raw : Bytes) :
    RejectsIn [.quoteParse] (SgxQuote.readSignature raw) :=
  RejectsIn.bind (fails_signatureFields raw) fun _ _ =>
    RejectsIn.bind (RejectsIn.rejectIf (by simp)) fun _ _ => RejectsIn.ok _

theorem fails_quoteFields (input : Bytes) : Wire.Fails ParseFault (SgxQuote.readFields input) :=
  Wire.Fails.bind (reads_u16Le _) (fails_u16Le _) fun _ _ _ =>
  Wire.Fails.bind reads_check fails_check fun _ _ _ =>
  Wire.Fails.bind (reads_u16Le _) (fails_u16Le _) fun _ _ _ =>
  Wire.Fails.bind reads_check fails_check fun _ _ _ =>
  Wire.Fails.bind (reads_u32Le _) (fails_u32Le _) fun _ _ _ =>
  Wire.Fails.bind (reads_u16Le _) (fails_u16Le _) fun _ _ _ =>
  Wire.Fails.bind (reads_u16Le _) (fails_u16Le _) fun _ _ _ =>
  Wire.Fails.bind (reads_array 16 _) (fails_array 16 _) fun _ _ _ =>
  Wire.Fails.bind (reads_array 20 _) (fails_array 20 _) fun _ _ _ =>
  Wire.Fails.bind (reads_take 384 _) (fails_take 384 _) fun _ _ _ =>
  Wire.Fails.bind (Wire.Reads.lift _)
    (Wire.Fails.lift (SgxReportBody.parse_rejectsIn _)) fun _ _ _ =>
  Wire.Fails.bind (Wire.Reads.lift _)
    (Wire.Fails.lift (RejectsIn.okOrReject (by simp))) fun _ _ _ =>
  Wire.Fails.bind (reads_u32Le _) (fails_u32Le _) fun _ _ _ =>
  Wire.Fails.bind (reads_take _ _) (fails_take _ _) fun _ _ _ =>
  Wire.Fails.bind (Wire.Reads.lift _) (Wire.Fails.lift (readSignature_rejectsIn _)) fun _ _ _ =>
    Wire.Fails.pure _

/-- A failed read is a parse error, and the cursor has not moved. -/
theorem SgxQuote.read_failure {b t : Bytes} {f : Fault} (h : SgxQuote.read b = (.error f, t)) :
    t = b ∧ f.category? = some .quoteParse := by
  obtain ⟨ht, hf⟩ := SgxQuote.read_error h
  obtain ⟨k, hk, hc⟩ := fails_quoteFields b b f hf
  rw [List.mem_singleton] at hk
  exact ⟨ht, hk ▸ hc⟩

/-! ## The grammar as a type -/

/-- A well-formed encoding, as its parts. -/
@[ext]
structure QuoteV3 where
  signed : U8Array quoteSignedLen
  isvSignature : U8Array 64
  attestationPubKey : U8Array 64
  qeReportRaw : U8Array reportBodyLen
  qeReportSignature : U8Array 64
  qeAuthData : Bytes
  certData : Bytes
  version : Octets.slice 0 2 signed.toList = le16 3
  attKeyType : Octets.slice 2 2 signed.toList = le16 2
  authFits : qeAuthData.length < 2 ^ 16
  certFits : certData.length < 2 ^ 32
  sectionFits : (sectionBytes isvSignature.toList attestationPubKey.toList qeReportRaw.toList
    qeReportSignature.toList qeAuthData certData).length < 2 ^ 32

namespace QuoteV3

/-- `G`. -/
def signatureSection (p : QuoteV3) : Bytes :=
  sectionBytes p.isvSignature.toList p.attestationPubKey.toList p.qeReportRaw.toList
    p.qeReportSignature.toList p.qeAuthData p.certData

/-- `S ‖ le32 |G| ‖ G`. -/
def bytes (p : QuoteV3) : Bytes :=
  p.signed.toList ++ (le32 (UInt32.ofNat p.signatureSection.length) ++ p.signatureSection)

/-- `q`'s fields are the parts of `p`. -/
structure Denotes (p : QuoteV3) (q : SgxQuote) : Prop where
  signedBytes : q.signedBytes = p.signed.toList
  headerVersion : le16 q.header.version = Octets.slice 0 2 p.signed.toList
  headerAttKeyType : le16 q.header.attKeyType = Octets.slice 2 2 p.signed.toList
  headerReserved : le32 q.header.reserved = Octets.slice 4 4 p.signed.toList
  headerQeSvn : le16 q.header.qeSvn = Octets.slice 8 2 p.signed.toList
  headerPceSvn : le16 q.header.pceSvn = Octets.slice 10 2 p.signed.toList
  headerQeVendorId : q.header.qeVendorId.toList = Octets.slice 12 16 p.signed.toList
  headerUserData : q.header.userData.toList = Octets.slice 28 20 p.signed.toList
  reportBody : SgxReportBody.parse (Octets.slice 48 384 p.signed.toList) = .ok q.reportBody
  isvSignature : q.signature.isvSignature = p.isvSignature
  attestationPubKey : q.signature.attestationPubKey = p.attestationPubKey
  qeReportRaw : q.signature.qeReportRaw = p.qeReportRaw
  qeReport : SgxReportBody.parse p.qeReportRaw.toList = .ok q.signature.qeReport
  qeReportSignature : q.signature.qeReportSignature = p.qeReportSignature
  qeAuthData : q.signature.qeAuthData = p.qeAuthData
  certDataType : q.signature.certDataType = certDataTypePckChain
  certData : q.signature.certData = p.certData

/-- The header's fields are the slices of the first 48 bytes. -/
theorem header_slices {hd : SgxQuoteHeader} {body : Bytes} :
    let s := headerBytes hd ++ body
    le16 hd.version = Octets.slice 0 2 s ∧ le16 hd.attKeyType = Octets.slice 2 2 s ∧
      le32 hd.reserved = Octets.slice 4 4 s ∧ le16 hd.qeSvn = Octets.slice 8 2 s ∧
      le16 hd.pceSvn = Octets.slice 10 2 s ∧ hd.qeVendorId.toList = Octets.slice 12 16 s ∧
      hd.userData.toList = Octets.slice 28 20 s := by
  simp [headerBytes, Octets.slice_append_of_le, Octets.slice_append_self]

/-- The seven header slices and the report body, in order, are all of `S`. -/
theorem Denotes.signed_eq {p : QuoteV3} {q : SgxQuote} (h : p.Denotes q) :
    p.signed.toList = headerBytes q.header ++ Octets.slice 48 384 p.signed.toList := by
  rw [headerBytes, h.headerVersion, h.headerAttKeyType, h.headerReserved, h.headerQeSvn,
    h.headerPceSvn, h.headerQeVendorId, h.headerUserData]
  simp only [List.append_assoc]
  rw [← Octets.slice_add 28 20 384, ← Octets.slice_add 12 16 404, ← Octets.slice_add 10 2 420,
    ← Octets.slice_add 8 2 422, ← Octets.slice_add 4 4 424, ← Octets.slice_add 2 2 428,
    ← Octets.slice_add 0 2 430]
  exact (Octets.slice_self p.signed.toList_length).symm

/-- The parts of `p` are what is read from its bytes, whatever follows them. -/
theorem Denotes.quoteOf {p : QuoteV3} {q : SgxQuote} (h : p.Denotes q) (t : Bytes) :
    QuoteOf (p.bytes ++ t) q p.bytes := by
  have hlen : p.signed.toList.length = 432 := p.signed.toList_length
  refine ⟨⟨Octets.slice 48 384 p.signed.toList, p.signatureSection, ?_, h.reportBody, p.sectionFits,
    ?_, ?_⟩, ?_, ?_, ?_⟩
  · rw [Octets.slice, List.length_take, List.length_drop, hlen]; rfl
  · refine ⟨?_, ?_, ?_, h.certDataType, ?_⟩
    · rw [signatureSection, h.isvSignature, h.attestationPubKey, h.qeReportRaw,
        h.qeReportSignature, h.qeAuthData, h.certData]; rfl
    · rw [h.qeReportRaw]; exact h.qeReport
    · rw [h.qeAuthData]; exact p.authFits
    · rw [h.certData]; exact p.certFits
  · rw [bytes, h.signed_eq, List.append_assoc, ← h.signed_eq]
  · exact ByteReader.le16_injective (h.headerVersion.trans p.version)
  · exact ByteReader.le16_injective (h.headerAttKeyType.trans p.attKeyType)
  · have hle : quoteSignedLen ≤ (p.bytes ++ t).length := by
      show 432 ≤ _
      rw [bytes, List.append_assoc, List.length_append, hlen]; omega
    rw [SgxQuote.getTo, if_pos hle, h.signedBytes, bytes, List.append_assoc]
    exact congrArg some (List.take_left' hlen)

/-- Conversely, whatever is read is the reading of well-formed parts. -/
theorem exists_of_quoteOf {q : SgxQuote} {x t : Bytes} (h : QuoteOf (x ++ t) q x) :
    ∃ p : QuoteV3, p.Denotes q ∧ x = p.bytes := by
  obtain ⟨⟨body, raw, hbl, hrep, hfit, hsec, rfl⟩, hver, haty, hsb⟩ := h
  obtain ⟨rfl, hqe, hafit, hty, hcfit⟩ := hsec
  have hlen : (headerBytes q.header ++ body).length = quoteSignedLen := by
    rw [List.length_append, headerBytes_length, hbl]; rfl
  have hs := @header_slices q.header body
  obtain ⟨h1, h2, h3, h4, h5, h6, h7⟩ := hs
  -- the signed bytes are the first 432 of the input, which are the header and the body
  have hsigned : q.signedBytes = headerBytes q.header ++ body := by
    have hle : quoteSignedLen ≤ ((headerBytes q.header ++ (body ++ (le32 (UInt32.ofNat
        (sectionBytes q.signature.isvSignature.toList q.signature.attestationPubKey.toList
          q.signature.qeReportRaw.toList q.signature.qeReportSignature.toList
          q.signature.qeAuthData q.signature.certData).length) ++ sectionBytes
        q.signature.isvSignature.toList q.signature.attestationPubKey.toList
        q.signature.qeReportRaw.toList q.signature.qeReportSignature.toList
        q.signature.qeAuthData q.signature.certData))) ++ t).length := by
      rw [← List.append_assoc, List.append_assoc, List.length_append, hlen]; omega
    rw [SgxQuote.getTo, if_pos hle, ← List.append_assoc, List.append_assoc, List.take_left' hlen]
      at hsb
    exact (Option.some.inj hsb).symm
  have hbody : Octets.slice 48 384 (headerBytes q.header ++ body) = body := by
    rw [Octets.slice_append_of_le (by simp), headerBytes_length]
    exact Octets.slice_self hbl
  refine ⟨{ signed := ⟨headerBytes q.header ++ body, hlen⟩
            isvSignature := q.signature.isvSignature
            attestationPubKey := q.signature.attestationPubKey
            qeReportRaw := q.signature.qeReportRaw
            qeReportSignature := q.signature.qeReportSignature
            qeAuthData := q.signature.qeAuthData
            certData := q.signature.certData
            version := h1.symm.trans (congrArg le16 hver)
            attKeyType := h2.symm.trans (congrArg le16 haty)
            authFits := hafit
            certFits := hcfit
            sectionFits := hfit }, ?_, ?_⟩
  · exact ⟨hsigned, h1, h2, h3, h4, h5, h6, h7, by rw [← hrep]; exact congrArg _ hbody, rfl, rfl,
      rfl, hqe, rfl, rfl, hty, rfl⟩
  · rw [bytes, ← List.append_assoc]; rfl

/-- Every well-formed encoding denotes a quote: its two report bodies have the right length. -/
theorem exists_denotes (p : QuoteV3) : ∃ q, p.Denotes q := by
  have hlen : p.signed.toList.length = 432 := p.signed.toList_length
  have hl : ∀ off len, off + len ≤ 432 → (Octets.slice off len p.signed.toList).length = len := by
    intro off len h
    rw [Octets.slice, List.length_take, List.length_drop, hlen]; omega
  obtain ⟨hd, hhd⟩ := exists_header (hl 0 48 (by omega))
  obtain ⟨rb, hrb⟩ := SgxReportBody.parse_of_length (hl 48 384 (by omega))
  obtain ⟨qr, hqr⟩ := SgxReportBody.parse_of_length p.qeReportRaw.toList_length
  have hsplit : p.signed.toList = headerBytes hd ++ Octets.slice 48 384 p.signed.toList := by
    rw [← hhd, ← Octets.slice_add 0 48 384]
    exact (Octets.slice_self hlen).symm
  have hs := @header_slices hd (Octets.slice 48 384 p.signed.toList)
  rw [← hsplit] at hs
  obtain ⟨h1, h2, h3, h4, h5, h6, h7⟩ := hs
  exact ⟨⟨hd, rb, ⟨p.isvSignature, p.attestationPubKey, qr, p.qeReportRaw, p.qeReportSignature,
    p.qeAuthData, certDataTypePckChain, p.certData⟩, p.signed.toList⟩,
    ⟨rfl, h1, h2, h3, h4, h5, h6, h7, hrb, rfl, rfl, rfl, hqr, rfl, rfl, rfl, rfl⟩⟩

/-- **Exactness.** `read` succeeds on `b` with `q` and cursor `t` precisely when `b` is a
well-formed encoding denoting `q`, followed by `t`. -/
theorem read_eq_ok_iff {b t : Bytes} {q : SgxQuote} :
    SgxQuote.read b = (.ok q, t) ↔ ∃ p : QuoteV3, p.Denotes q ∧ b = p.bytes ++ t := by
  rw [SgxQuote.read_eq_ok]
  refine ⟨fun h => ?_, fun h => ?_⟩
  · obtain ⟨x, hx, rfl⟩ := h
    obtain ⟨p, hp, rfl⟩ := exists_of_quoteOf hx
    exact ⟨p, hp, rfl⟩
  · obtain ⟨p, hp, rfl⟩ := h
    exact ⟨p.bytes, hp.quoteOf t, rfl⟩

/-- A quote has the parts it was read from and no others. -/
theorem Denotes.parts_unique {p p' : QuoteV3} {q : SgxQuote} (h : p.Denotes q)
    (h' : p'.Denotes q) : p = p' := by
  have hs : p.signed = p'.signed :=
    List.Vector.eq _ _ (h.signedBytes.symm.trans h'.signedBytes)
  exact QuoteV3.ext hs (h.isvSignature.symm.trans h'.isvSignature)
    (h.attestationPubKey.symm.trans h'.attestationPubKey)
    (h.qeReportRaw.symm.trans h'.qeReportRaw)
    (h.qeReportSignature.symm.trans h'.qeReportSignature)
    (h.qeAuthData.symm.trans h'.qeAuthData) (h.certData.symm.trans h'.certData)

/-- **The decomposition is unique.** -/
theorem bytes_append_inj {p p' : QuoteV3} {t t' : Bytes} (h : p.bytes ++ t = p'.bytes ++ t') :
    p = p' ∧ t = t' := by
  -- `read` is a function, so two decompositions of one input denote the same quote
  obtain ⟨q, hq⟩ := p.exists_denotes
  obtain ⟨q', hq'⟩ := p'.exists_denotes
  have hr : SgxQuote.read (p.bytes ++ t) = (.ok q, t) := read_eq_ok_iff.mpr ⟨p, hq, rfl⟩
  rw [h, read_eq_ok_iff.mpr ⟨p', hq', rfl⟩] at hr
  simp only [Prod.mk.injEq, Except.ok.injEq] at hr
  obtain ⟨rfl, rfl⟩ := hr
  exact ⟨hq.parts_unique hq', rfl⟩

end QuoteV3

namespace SgxQuote

/-- The parts of a quote put back together, lengths recomputed. -/
def encode (q : SgxQuote) : Bytes :=
  let raw := sectionBytes q.signature.isvSignature.toList q.signature.attestationPubKey.toList
    q.signature.qeReportRaw.toList q.signature.qeReportSignature.toList q.signature.qeAuthData
    q.signature.certData
  q.signedBytes ++ (le32 (UInt32.ofNat raw.length) ++ raw)

/-- `read` as a caller's loop uses it: the cursor it leaves is where the next read starts. -/
def reader : Wire.Reader UInt8 Fault SgxQuote := fun b =>
  match read b with
  | (.ok q, t) => .ok (q, t)
  | (.error e, _) => .error e

theorem reads_reader : Wire.Reads reader (fun q x => ∃ p : QuoteV3, p.Denotes q ∧ x = p.bytes) := by
  intro b q t
  have hiff : reader b = .ok (q, t) ↔ read b = (.ok q, t) := by
    rw [reader]; rcases read b with ⟨r | r, t'⟩ <;> simp
  rw [hiff, QuoteV3.read_eq_ok_iff]
  refine ⟨fun h => ?_, fun h => ?_⟩
  · obtain ⟨p, hp, rfl⟩ := h
    exact ⟨p.bytes, ⟨p, hp, rfl⟩, rfl⟩
  · obtain ⟨_, ⟨p, hp, rfl⟩, rfl⟩ := h
    exact ⟨p, hp, rfl⟩

theorem encode_eq {p : QuoteV3} {q : SgxQuote} (h : p.Denotes q) : q.encode = p.bytes := by
  rw [encode, h.signedBytes, h.isvSignature, h.attestationPubKey, h.qeReportRaw,
    h.qeReportSignature, h.qeAuthData, h.certData]
  rfl

/--
**The parser accepts exactly the v3 grammar, and loses nothing.**

A quote is read precisely when the input opens with a well-formed encoding; the
encoding is unique, its parts are the quote's fields, and the fields put back
together are the bytes consumed. The cursor ends right after them, so nothing that
follows matters and a concatenation is read back quote by quote. A failure is a
parse error and leaves the cursor where it was.
-/
theorem read_exact (b : Bytes) :
    (∀ q t, read b = (.ok q, t) ↔ ∃ p : QuoteV3, p.Denotes q ∧ b = p.bytes ++ t)
    ∧ ((∃ q t, read b = (.ok q, t)) ↔ ∃ (p : QuoteV3) (t : Bytes), b = p.bytes ++ t)
    ∧ (∀ (p p' : QuoteV3) (t t' : Bytes), b = p.bytes ++ t → b = p'.bytes ++ t' →
        p = p' ∧ t = t')
    ∧ (∀ q t, read b = (.ok q, t) →
        b = q.encode ++ t ∧ ∀ t', read (q.encode ++ t') = (.ok q, t'))
    ∧ (∀ (ps : List QuoteV3) (qs : List SgxQuote), List.Forall₂ QuoteV3.Denotes ps qs →
        ∀ t, Wire.many reader qs.length ((ps.map QuoteV3.bytes).flatten ++ t) = .ok (qs, t))
    ∧ (∀ f t, read b = (.error f, t) → t = b ∧ f.category? = some .quoteParse) := by
  refine ⟨fun q t => QuoteV3.read_eq_ok_iff, ⟨?_, ?_⟩, ?_, ?_, ?_, fun f t => read_failure⟩
  · rintro ⟨q, t, h⟩
    obtain ⟨p, _, hb⟩ := QuoteV3.read_eq_ok_iff.mp h
    exact ⟨p, t, hb⟩
  · rintro ⟨p, t, rfl⟩
    obtain ⟨q, hq⟩ := p.exists_denotes
    exact ⟨q, t, QuoteV3.read_eq_ok_iff.mpr ⟨p, hq, rfl⟩⟩
  · intro p p' t t' h h'
    exact QuoteV3.bytes_append_inj (h.symm.trans h')
  · intro q t h
    obtain ⟨p, hp, rfl⟩ := QuoteV3.read_eq_ok_iff.mp h
    rw [encode_eq hp]
    exact ⟨rfl, fun t' => QuoteV3.read_eq_ok_iff.mpr ⟨p, hp, rfl⟩⟩
  · intro ps qs h t
    refine reads_reader.many_accepts ?_ t
    rw [List.forall₂_map_right_iff]
    exact h.flip.imp fun q p hp => ⟨p, hp, rfl⟩

end SgxQuote

end DcapVerify
