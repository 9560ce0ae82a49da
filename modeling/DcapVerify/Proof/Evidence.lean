import DcapVerify.Proof.Chains
import DcapVerify.Verify

/-!
# What the checks on the quote establish

The steps that tie the quote to the caller's pin, to the PCK chain embedded in it
and to the attestation key, one exactness lemma each, and the decoding of the PCK
certificate's SGX extension, of which only the way it fails matters here.
-/

namespace DcapVerify

variable (C : Crates)

theorem checkQeVendor_eq_ok {quote : SgxQuote} :
    checkQeVendor C quote = .ok () ↔ quote.header.qeVendorId = intelQeVendorId := by
  rw [checkQeVendor, rejectIf_eq_ok, not_not]

theorem checkMrenclave_eq_ok {quote : SgxQuote} {expectedMrenclave : MREnclave} :
    checkMrenclave C quote expectedMrenclave = .ok () ↔
      quote.reportBody.mrenclave = expectedMrenclave := by
  rw [checkMrenclave, rejectIf_eq_ok, not_not]

theorem checkTcbInfoId_eq_ok {tcbInfo : TcbInfo} :
    checkTcbInfoId tcbInfo = .ok () ↔ tcbInfo.id = "SGX" := by
  rw [checkTcbInfoId, rejectIf_eq_ok, not_not]

/-- The leaf is named as Intel's dedicated signing certificate. -/
def NamedTcbSigning (chain : ParsedChain) : Prop :=
  ∃ leaf, chain.certs.head? = some leaf ∧
    leaf.subject.commonNames.head? = some (.ok intelTcbSigningCn)

theorem requireTcbSigningLeaf_eq_ok {chain : ParsedChain} {document : String} :
    requireTcbSigningLeaf chain document = .ok () ↔ NamedTcbSigning chain := by
  simp only [requireTcbSigningLeaf, ParsedChain.leafCommonName, bind_assoc, Checks.bind_eq_ok,
    ParsedChain.leaf_eq_ok, okOrReject_eq_ok, rejectIf_eq_ok, not_not, NamedTcbSigning,
    Option.bind_eq_some_iff]
  refine ⟨fun h => ?_, fun h => ?_⟩
  · obtain ⟨leaf, hleaf, _, ⟨cn | cn, hcn, h⟩, rfl⟩ := h
    · cases h
    · cases h; exact ⟨leaf, hleaf, hcn⟩
  · obtain ⟨leaf, hleaf, hcn⟩ := h
    exact ⟨leaf, hleaf, _, ⟨_, hcn, rfl⟩, rfl⟩

theorem checkCrlScope_eq_ok {pckCrlChain : ParsedChain} {pckLeafIssuer : Bytes} :
    checkCrlScope pckCrlChain pckLeafIssuer = .ok () ↔
      ∃ leaf, pckCrlChain.certs.head? = some leaf ∧ leaf.subject.asRaw = pckLeafIssuer := by
  simp only [checkCrlScope, ParsedChain.leafSubjectRaw, bind_assoc, pure_bind, Checks.bind_eq_ok,
    ParsedChain.leaf_eq_ok, rejectIf_eq_ok, not_not]

theorem leafVerifyingKey_eq_ok {chain : ParsedChain} {key : C.VerifyingKey} :
    chain.leafVerifyingKey C = .ok key ↔ ∃ leaf, chain.certs.head? = some leaf ∧
      C.fromSec1Bytes leaf.publicKey.subjectPublicKey = .ok key := by
  simp only [ParsedChain.leafVerifyingKey, spkiVerifyingKey, Checks.bind_eq_ok,
    ParsedChain.leaf_eq_ok, orReject_eq_ok]

/-! ## Signatures and the binding -/

theorem checkQeReportSignature_eq_ok {key : C.VerifyingKey} {signature : SgxEcdsaSignature} :
    checkQeReportSignature C key signature = .ok () ↔
      ∃ sig, C.signatureFromSlice signature.qeReportSignature.toList = .ok sig ∧
        C.verify key signature.qeReportRaw.toList sig = true := by
  simp only [checkQeReportSignature, Checks.bind_eq_ok, orReject_eq_ok, rejectIf_eq_ok,
    Bool.not_eq_false]

/-- The report data of the QE report commits to the attestation key and the auth data. -/
def BindsKey (signature : SgxEcdsaSignature) : Prop :=
  signature.qeReport.sgxReportDataBytes.toList =
    (C.sha256 (signature.attestationPubKey.toList ++ signature.qeAuthData)).toList ++
      List.replicate 32 0

theorem checkQeBinding_eq_ok {signature : SgxEcdsaSignature} :
    checkQeBinding C signature = .ok () ↔ BindsKey C signature := by
  have hlen : 32 ≤ signature.qeReport.sgxReportDataBytes.toList.length := by simp
  rw [checkQeBinding, sliceTo_of_le hlen, sliceFrom_of_le hlen, Checks.ok_bind, Checks.ok_bind,
    rejectIf_eq_ok, not_or, not_not, not_not, BindsKey]
  refine ⟨fun h => ?_, fun h => ?_⟩
  · obtain ⟨hhead, htail⟩ := h
    -- the two halves that are compared make up the whole report data
    rw [← hhead, ← htail, List.take_append_drop]
  · rw [h, List.take_left' (List.Vector.toList_length _),
      List.drop_left' (List.Vector.toList_length _)]
    exact ⟨rfl, rfl⟩

theorem checkQuoteSignature_eq_ok {quote : SgxQuote} :
    checkQuoteSignature C quote = .ok () ↔
      ∃ key sig, C.fromSec1Bytes (0x04 :: quote.signature.attestationPubKey.toList) = .ok key ∧
        C.signatureFromSlice quote.signature.isvSignature.toList = .ok sig ∧
        C.verify key quote.signedBytes sig = true := by
  rw [checkQuoteSignature, copyFromSlice_toList, Checks.ok_bind]
  simp only [Checks.bind_eq_ok, orReject_eq_ok, rejectIf_eq_ok, Bool.not_eq_false]
  refine ⟨fun h => ?_, fun h => ?_⟩
  · obtain ⟨key, hkey, sig, hsig, hv⟩ := h
    exact ⟨key, sig, hkey, hsig, hv⟩
  · obtain ⟨key, sig, hkey, hsig, hv⟩ := h
    exact ⟨key, hkey, sig, hsig, hv⟩

/-! ## The DEBUG attribute -/

/-- Reading the flag stays in bounds. -/
theorem exists_isDebug (body : SgxReportBody) : ∃ b, body.isDebug = .ok b := by
  have hlen : (body.attributes.toList.take 8).length = 8 := by simp
  rw [SgxReportBody.isDebug, SgxReportBody.attributeFlags, sliceTo_of_le (by simp), Checks.ok_bind,
    copyFromSlice_of_length hlen]
  exact ⟨_, rfl⟩

theorem checkDebug_eq_ok {quote : SgxQuote} :
    checkDebug C quote = .ok () ↔ quote.reportBody.isDebug = .ok false := by
  obtain ⟨b, hb⟩ := exists_isDebug quote.reportBody
  rw [checkDebug, hb, Checks.ok_bind, rejectIf_eq_ok]
  cases b <;> simp

/-! ## The SGX extension -/

theorem tcbEntry_rejectsIn (slots : PckSlots) (entry : BerObject) :
    RejectsIn [.quoteParse] (tcbEntry slots entry) := by
  unfold tcbEntry
  split
  · split
    · split
      · split
        · rename_i i _ hi
          refine .bind (.okOrReject (by simp [badExtension])) fun svn _ => ?_
          have hlt : i - 1 < 16 := by omega
          rw [setAt, dif_pos hlt]
          exact .ok _
        · split
          · exact .bind (.okOrReject (by simp [badExtension])) fun _ _ => .ok _
          · exact .ok _
      · exact .ok _
    · exact .ok _
  · exact .ok _

theorem extensionEntry_rejectsIn (slots : PckSlots) (entry : BerObject) :
    RejectsIn [.quoteParse] (extensionEntry slots entry) := by
  unfold extensionEntry
  split
  · split
    · dsimp only
      split
      · exact .bind (.okOrReject (by simp [badExtension])) fun _ _ =>
          .bind (.okOrReject (by simp [badExtension])) fun _ _ => .ok _
      · split
        · exact .bind (.okOrReject (by simp [badExtension])) fun _ _ =>
            .bind (.okOrReject (by simp [badExtension])) fun _ _ => .ok _
        · split
          · exact .bind (.orReject fun _ => by simp [badExtension]) fun _ _ =>
              .foldlM (fun s e _ => tcbEntry_rejectsIn s e) _
          · exact .ok _
    · exact .ok _
  · exact .ok _

/-- A malformed extension is a defect of the quote, and the walk stays in bounds. -/
theorem extractPckPlatformTcb_rejectsIn {chain : ParsedChain} (h : chain.certs ≠ []) :
    RejectsIn [.quoteParse] (extractPckPlatformTcb C chain) := by
  have hleaf : chain.leaf = .ok (chain.certs.head h) :=
    ParsedChain.leaf_eq_ok.mpr (List.head?_eq_some_head h)
  rw [extractPckPlatformTcb, hleaf, Checks.ok_bind]
  exact .bind (.okOrReject (by simp)) fun _ _ => .bind (.orReject fun _ => by simp) fun _ _ =>
    .bind (.orReject fun _ => by simp) fun _ _ =>
    .bind (.foldlM (fun s e _ => extensionEntry_rejectsIn s e) _) fun _ _ =>
    .bind (.okOrReject (by simp [badExtension])) fun _ _ =>
    .bind (.okOrReject (by simp [badExtension])) fun _ _ =>
    .bind (.okOrReject (by simp [badExtension])) fun _ _ =>
    .bind (.mmap (fun _ => .okOrReject (by simp [badExtension])) _) fun _ _ => .ok _

/-! ## Where each check rejects -/

section

variable (quote : SgxQuote) (signature : SgxEcdsaSignature)

theorem checkQeVendor_rejectsIn : RejectsIn [.qeVendorInvalid] (checkQeVendor C quote) :=
  .rejectIf (by simp)

theorem checkMrenclave_rejectsIn (expectedMrenclave : MREnclave) :
    RejectsIn [.mrenclaveMismatch] (checkMrenclave C quote expectedMrenclave) :=
  .rejectIf (by simp)

theorem checkTcbInfoId_rejectsIn (tcbInfo : TcbInfo) :
    RejectsIn [.collateralParse] (checkTcbInfoId tcbInfo) :=
  .rejectIf (by simp)

theorem checkQeReportSignature_rejectsIn (key : C.VerifyingKey) :
    RejectsIn [.qeReportSignatureInvalid] (checkQeReportSignature C key signature) :=
  .bind (.orReject fun _ => by simp) fun _ _ => .rejectIf (by simp)

theorem checkQeBinding_rejectsIn : RejectsIn [.qeBindingInvalid] (checkQeBinding C signature) := by
  have hlen : 32 ≤ signature.qeReport.sgxReportDataBytes.toList.length := by simp
  rw [checkQeBinding, sliceTo_of_le hlen, sliceFrom_of_le hlen]
  exact .bind (.ok _) fun _ _ => .bind (.ok _) fun _ _ => .rejectIf (by simp)

theorem checkQuoteSignature_rejectsIn :
    RejectsIn [.quoteSignatureInvalid] (checkQuoteSignature C quote) := by
  rw [checkQuoteSignature, copyFromSlice_toList]
  exact .bind (.ok _) fun _ _ => .bind (.orReject fun _ => by simp) fun _ _ =>
    .bind (.orReject fun _ => by simp) fun _ _ => .rejectIf (by simp)

theorem checkDebug_rejectsIn : RejectsIn [.debugEnclaveRejected] (checkDebug C quote) := by
  obtain ⟨b, hb⟩ := exists_isDebug quote.reportBody
  rw [checkDebug, hb]
  exact .bind (.ok _) fun _ _ => .rejectIf (by simp)

end

theorem ParsedChain.leaf_rejectsOnly {S : List ErrorCategory} (chain : ParsedChain) :
    RejectsOnly S chain.leaf :=
  RejectsOnly.index

theorem ParsedChain.leafVerifyingKey_rejectsOnly (chain : ParsedChain) :
    RejectsOnly [.rootCaUntrusted] (chain.leafVerifyingKey C) :=
  .bind chain.leaf_rejectsOnly fun _ _ => (spkiVerifyingKey_rejectsIn C _ _).only

theorem requireTcbSigningLeaf_rejectsOnly (chain : ParsedChain) (document : String) :
    RejectsOnly [.rootCaUntrusted, chain.kind.parseCategory]
      (requireTcbSigningLeaf chain document) :=
  .bind (.bind chain.leaf_rejectsOnly fun _ _ => RejectsIn.only (.okOrReject (by simp))) fun _ _ =>
    RejectsIn.only (.rejectIf (by simp))

theorem checkCrlScope_rejectsOnly (pckCrlChain : ParsedChain) (pckLeafIssuer : Bytes) :
    RejectsOnly [.crlInvalid] (checkCrlScope pckCrlChain pckLeafIssuer) :=
  .bind (.bind pckCrlChain.leaf_rejectsOnly fun _ _ => .ok _) fun _ _ =>
    RejectsIn.only (.rejectIf (by simp))

end DcapVerify
