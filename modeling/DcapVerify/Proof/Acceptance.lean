import DcapVerify.Proof.Documents
import DcapVerify.Proof.Evidence
import DcapVerify.Proof.Revocation

/-!
# What acceptance means

`Authenticated` collects what the stages before the DEBUG gate establish, stage by
stage and in plain terms. `verify_eq_ok_iff` is the pipeline's specification: it
accepts exactly the authenticated inputs whose enclave is not in debug mode and
whose platform the TCB info judges.

The second half says in which categories each stage can reject.
-/

namespace DcapVerify

variable (C : Crates)

/-- The window of a signed document. -/
def DocumentFields.window (d : DocumentFields) : Window Int := ⟨d.issueDate, some d.nextUpdate⟩

/-- Everything that must hold before the verdict on the platform is considered. -/
structure Authenticated (i : Input) : Prop where
  qeVendor : i.quote.header.qeVendorId = intelQeVendorId
  mrenclave : i.quote.reportBody.mrenclave = i.expectedMrenclave
  formats : SupportedFormats i.collateral
  decoded : ∀ kind, loadChain C kind (i.chainPem kind) = .ok (i.chain C kind)
  paths : ∀ kind, ValidPath C (i.chain C kind).certs
  certWindows : ∀ kind, ∀ cert ∈ (i.chain C kind).certs, cert.window.Contains i.now
  signingLeaf : ∀ doc : Document, NamedTcbSigning (i.chain C doc.chainKind)
  crlScope : ∃ leaf crlLeaf, (i.chain C .quotePck).certs.head? = some leaf ∧
    (i.chain C .pckCrlIssuer).certs.head? = some crlLeaf ∧
    crlLeaf.subject.asRaw = leaf.issuer.asRaw
  rootCrl : ∃ crl, RootCrl C i crl
  pckCrl : ∃ crl, PckCrl C i crl
  noneRevoked : ∀ crl, RootCrl C i crl ∨ PckCrl C i crl → ∀ kind,
    ∀ cert ∈ (i.chain C kind).certs,
      (⟨cert.issuer.asRaw, serialKey cert.rawSerial⟩ : RevokedEntry) ∉ crl.entries C
  signatures : ∀ doc : Document, ∃ leaf key,
    (i.chain C doc.chainKind).certs.head? = some leaf ∧
    C.fromSec1Bytes leaf.publicKey.subjectPublicKey = .ok key ∧
    HexSigned C key (asBytes (i.document doc).bodyJson) (i.document doc).signatureHex
  tcbInfoId : i.collateral.tcbInfo.body.id = "SGX"
  docWindows : ∀ doc, (i.document doc).window.Contains i.now
  docRounds : ∀ doc, i.minTcbEvaluationDataNumber ≤ (i.document doc).tcbEvaluationDataNumber
  qeIdentity : QeMatches C i.collateral.qeIdentity.body i.quote.signature.qeReport
  qeReportSignature : ∃ leaf key sig, (i.chain C .quotePck).certs.head? = some leaf ∧
    C.fromSec1Bytes leaf.publicKey.subjectPublicKey = .ok key ∧
    C.signatureFromSlice i.quote.signature.qeReportSignature.toList = .ok sig ∧
    C.verify key i.quote.signature.qeReportRaw.toList sig = true
  qeBinding : BindsKey C i.quote.signature
  quoteSignature : ∃ key sig,
    C.fromSec1Bytes (0x04 :: i.quote.signature.attestationPubKey.toList) = .ok key ∧
    C.signatureFromSlice i.quote.signature.isvSignature.toList = .ok sig ∧
    C.verify key i.quote.signedBytes sig = true

namespace Stage

variable {C} {i : Input}

theorem der_passes {kind : ChainKind} : check C (.der kind) i = .ok () ↔
    loadChain C kind (i.chainPem kind) = .ok (i.chain C kind) := by
  refine ⟨Input.loadChain_of_der, fun h => ?_⟩
  rw [check, h]
  rfl

/-- Decoding a chain starts with its PEM text. -/
theorem pem_passes_of_der {kind : ChainKind} (h : check C (.der kind) i = .ok ()) :
    check C (.pem kind) i = .ok () := by
  obtain ⟨_, hload, _⟩ := Checks.bind_eq_ok.mp h
  obtain ⟨pem, hpem, _⟩ := Checks.bind_eq_ok.mp hload
  rw [check, hpem]
  rfl

theorem crlScope_passes : check C .crlScope i = .ok () ↔
    ∃ leaf crlLeaf, (i.chain C .quotePck).certs.head? = some leaf ∧
      (i.chain C .pckCrlIssuer).certs.head? = some crlLeaf ∧
      crlLeaf.subject.asRaw = leaf.issuer.asRaw := by
  simp only [check, ParsedChain.leafIssuerRaw, bind_assoc, pure_bind, Checks.bind_eq_ok,
    ParsedChain.leaf_eq_ok, checkCrlScope_eq_ok]
  refine ⟨fun h => ?_, fun h => ?_⟩
  · obtain ⟨leaf, hleaf, crlLeaf, hcrl⟩ := h
    exact ⟨leaf, crlLeaf, hleaf, hcrl⟩
  · obtain ⟨leaf, crlLeaf, hleaf, hcrl⟩ := h
    exact ⟨leaf, hleaf, crlLeaf, hcrl⟩

theorem signature_passes {doc : Document} : check C (.signature doc) i = .ok () ↔
    ∃ leaf key, (i.chain C doc.chainKind).certs.head? = some leaf ∧
      C.fromSec1Bytes leaf.publicKey.subjectPublicKey = .ok key ∧
      HexSigned C key (asBytes (i.document doc).bodyJson) (i.document doc).signatureHex := by
  simp only [check, Checks.bind_eq_ok, leafVerifyingKey_eq_ok, verifyRawHexSignature_eq_ok]
  refine ⟨fun h => ?_, fun h => ?_⟩
  · obtain ⟨key, ⟨leaf, hleaf, hkey⟩, hsigned⟩ := h
    exact ⟨leaf, key, hleaf, hkey, hsigned⟩
  · obtain ⟨leaf, key, hleaf, hkey, hsigned⟩ := h
    exact ⟨key, ⟨leaf, hleaf, hkey⟩, hsigned⟩

theorem qeReportSignature_passes : check C .qeReportSignature i = .ok () ↔
    ∃ leaf key sig, (i.chain C .quotePck).certs.head? = some leaf ∧
      C.fromSec1Bytes leaf.publicKey.subjectPublicKey = .ok key ∧
      C.signatureFromSlice i.quote.signature.qeReportSignature.toList = .ok sig ∧
      C.verify key i.quote.signature.qeReportRaw.toList sig = true := by
  simp only [check, Checks.bind_eq_ok, leafVerifyingKey_eq_ok, checkQeReportSignature_eq_ok]
  refine ⟨fun h => ?_, fun h => ?_⟩
  · obtain ⟨key, ⟨leaf, hleaf, hkey⟩, sig, hver⟩ := h
    exact ⟨leaf, key, sig, hleaf, hkey, hver⟩
  · obtain ⟨leaf, key, sig, hleaf, hkey, hver⟩ := h
    exact ⟨key, ⟨leaf, hleaf, hkey⟩, sig, hver⟩

theorem noneRevoked_passes (hroot : ∃ crl, RootCrl C i crl) (hpck : ∃ crl, PckCrl C i crl) :
    check C .noneRevoked i = .ok () ↔ ∀ crl, RootCrl C i crl ∨ PckCrl C i crl → ∀ kind,
      ∀ cert ∈ (i.chain C kind).certs,
        (⟨cert.issuer.asRaw, serialKey cert.rawSerial⟩ : RevokedEntry) ∉ crl.entries C := by
  obtain ⟨crl₁, h₁⟩ := hroot
  obtain ⟨crl₂, h₂⟩ := hpck
  rw [check, Input.revoked_eq h₁ h₂, ensureNoneRevoked_eq_ok]
  have hmem (kind : ChainKind) : i.chain C kind ∈ i.chains C := by
    cases kind <;> simp [Input.chains]
  refine ⟨fun h crl hcrl kind cert hcert hin => ?_, fun h chain hchain cert hcert hin => ?_⟩
  · rcases hcrl with hc | hc
    · rw [Except.ok.inj (hc.decoded.symm.trans h₁.decoded)] at hin
      exact h _ (hmem kind) cert hcert (List.mem_append_left _ hin)
    · rw [Except.ok.inj (hc.decoded.symm.trans h₂.decoded)] at hin
      exact h _ (hmem kind) cert hcert (List.mem_append_right _ hin)
  · -- a chain of the list sits in one of the four slots
    obtain ⟨kind, rfl⟩ : ∃ kind, chain = i.chain C kind := by
      simp only [Input.chains, List.mem_cons, List.not_mem_nil, or_false] at hchain
      rcases hchain with rfl | rfl | rfl | rfl <;> exact ⟨_, rfl⟩
    rcases List.mem_append.mp hin with hin | hin
    · exact h crl₁ (.inl h₁) kind cert hcert hin
    · exact h crl₂ (.inr h₂) kind cert hcert hin

/-- **The stages before the DEBUG gate establish authentication**, and nothing less does. -/
theorem authenticated_iff : (∀ s, s ≠ .debug → check C s i = .ok ()) ↔ Authenticated C i := by
  refine ⟨fun h => ?_, fun h s hs => ?_⟩
  · have hroot := Input.rootCrl_passes.mp (h .rootCrl (by decide))
    have hpck := Input.pckCrl_passes.mp (h .pckCrl (by decide))
    have hpath (kind : ChainKind) := ParsedChain.validate_eq_ok.mp (h (.path kind) (by simp))
    exact
      { qeVendor := (checkQeVendor_eq_ok C).mp (h .qeVendor (by decide))
        mrenclave := (checkMrenclave_eq_ok C).mp (h .mrenclave (by decide))
        formats := checkDocumentFormats_eq_ok.mp (h .formats (by decide))
        decoded := fun kind => der_passes.mp (h (.der kind) (by simp))
        paths := fun kind => (hpath kind).1
        certWindows := fun kind => (hpath kind).2
        signingLeaf := fun doc => requireTcbSigningLeaf_eq_ok.mp (h (.signingLeaf doc) (by simp))
        crlScope := crlScope_passes.mp (h .crlScope (by decide))
        rootCrl := hroot
        pckCrl := hpck
        noneRevoked := (noneRevoked_passes hroot hpck).mp (h .noneRevoked (by decide))
        signatures := fun doc => signature_passes.mp (h (.signature doc) (by simp))
        tcbInfoId := checkTcbInfoId_eq_ok.mp (h .tcbInfoId (by decide))
        docWindows := fun doc => checkValidityWindow_eq_ok.mp (h (.validityWindow doc) (by simp))
        docRounds := fun doc => checkEvaluationRound_eq_ok.mp (h (.evaluationRound doc) (by simp))
        qeIdentity := (checkQeIdentity_eq_ok C).mp (h .qeIdentity (by decide))
        qeReportSignature := qeReportSignature_passes.mp (h .qeReportSignature (by decide))
        qeBinding := (checkQeBinding_eq_ok C).mp (h .qeBinding (by decide))
        quoteSignature := (checkQuoteSignature_eq_ok C).mp (h .quoteSignature (by decide)) }
  · cases s with
    | qeVendor => exact (checkQeVendor_eq_ok C).mpr h.qeVendor
    | mrenclave => exact (checkMrenclave_eq_ok C).mpr h.mrenclave
    | formats => exact checkDocumentFormats_eq_ok.mpr h.formats
    | pem kind => exact pem_passes_of_der (der_passes.mpr (h.decoded kind))
    | der kind => exact der_passes.mpr (h.decoded kind)
    | path kind => exact ParsedChain.validate_eq_ok.mpr ⟨h.paths kind, h.certWindows kind⟩
    | signingLeaf doc => exact requireTcbSigningLeaf_eq_ok.mpr (h.signingLeaf doc)
    | crlScope => exact crlScope_passes.mpr h.crlScope
    | rootCrl => exact Input.rootCrl_passes.mpr h.rootCrl
    | pckCrl => exact Input.pckCrl_passes.mpr h.pckCrl
    | noneRevoked => exact (noneRevoked_passes h.rootCrl h.pckCrl).mpr h.noneRevoked
    | signature doc => exact signature_passes.mpr (h.signatures doc)
    | tcbInfoId => exact checkTcbInfoId_eq_ok.mpr h.tcbInfoId
    | validityWindow doc => exact checkValidityWindow_eq_ok.mpr (h.docWindows doc)
    | evaluationRound doc => exact checkEvaluationRound_eq_ok.mpr (h.docRounds doc)
    | qeIdentity => exact (checkQeIdentity_eq_ok C).mpr h.qeIdentity
    | qeReportSignature => exact qeReportSignature_passes.mpr h.qeReportSignature
    | qeBinding => exact (checkQeBinding_eq_ok C).mpr h.qeBinding
    | quoteSignature => exact (checkQuoteSignature_eq_ok C).mpr h.quoteSignature
    | debug => exact absurd rfl hs

end Stage

namespace Input

variable {C} {i : Input}

/-- The verdict is the TCB info's judgement of the platform in the quote's PCK leaf. -/
theorem result_eq_ok {r : TcbStanding × SgxReportBody} : i.result C = .ok r ↔
    ∃ tcb, extractPckPlatformTcb C (i.chain C .quotePck) = .ok tcb ∧
      Judged C i.collateral.tcbInfo.body tcb r.1 ∧ r.2 = i.quote.reportBody := by
  obtain ⟨standing, body⟩ := r
  simp only [result, Checks.bind_eq_ok, Checks.pure_eq_ok, platformStanding_eq_ok, Prod.mk.injEq]
  refine ⟨fun h => ?_, fun h => ?_⟩
  · obtain ⟨tcb, htcb, _, hj, rfl, rfl⟩ := h
    exact ⟨tcb, htcb, hj, rfl⟩
  · obtain ⟨tcb, htcb, hj, rfl⟩ := h
    exact ⟨tcb, htcb, _, hj, rfl, rfl⟩

/-- **What the pipeline accepts.** -/
theorem verify_eq_ok_iff {r : TcbStanding × SgxReportBody} : i.verify C = .ok r ↔
    Authenticated C i ∧ i.quote.reportBody.isDebug = .ok false ∧
    ∃ tcb, extractPckPlatformTcb C (i.chain C .quotePck) = .ok tcb ∧
      Judged C i.collateral.tcbInfo.body tcb r.1 ∧ r.2 = i.quote.reportBody := by
  rw [verify_eq_ok, result_eq_ok, ← Stage.authenticated_iff, ← checkDebug_eq_ok C]
  refine ⟨fun h => ?_, fun h => ?_⟩
  · obtain ⟨h, hr⟩ := h
    exact ⟨fun s _ => h s, h .debug, hr⟩
  · obtain ⟨h, hdebug, hr⟩ := h
    refine ⟨fun s => ?_, hr⟩
    by_cases hs : s = .debug
    · rw [hs]; exact hdebug
    · exact h s hs

end Input

/-! ## Where each category comes from -/

/-- The categories a stage can reject with. -/
def Stage.categories : Stage → List ErrorCategory
  | .qeVendor => [.qeVendorInvalid]
  | .mrenclave => [.mrenclaveMismatch]
  | .formats | .tcbInfoId => [.collateralParse]
  | .pem kind | .der kind => [kind.parseCategory]
  | .path _ => [.rootCaUntrusted, .certOrCrlTimeInvalid]
  | .signingLeaf doc => [.rootCaUntrusted, doc.chainKind.parseCategory]
  | .crlScope | .noneRevoked => [.crlInvalid]
  | .rootCrl => [.crlInvalid, .certOrCrlTimeInvalid]
  | .pckCrl => [.crlInvalid, .certOrCrlTimeInvalid, .rootCaUntrusted]
  | .signature doc => [doc.signatureInvalid, .rootCaUntrusted]
  | .validityWindow doc | .evaluationRound doc => [doc.stale]
  | .qeIdentity => [.qeIdentityMismatch, .collateralParse]
  | .qeReportSignature => [.qeReportSignatureInvalid, .rootCaUntrusted]
  | .qeBinding => [.qeBindingInvalid]
  | .quoteSignature => [.quoteSignatureInvalid]
  | .debug => [.debugEnclaveRejected]

theorem loadChain_rejectsIn (kind : ChainKind) (data : Bytes) :
    RejectsIn [kind.parseCategory] (loadChain C kind data) := by
  refine .bind (CertChain.fromPem_rejectsIn C kind data) fun chain hchain => ?_
  rw [← (CertChain.fromPem_eq_ok hchain).1]
  exact CertChain.parse_rejectsIn C chain

/-- A loaded chain keeps its slot and is not empty. -/
theorem loadChain_eq_ok {kind : ChainKind} {data : Bytes} {chain : ParsedChain}
    (h : loadChain C kind data = .ok chain) :
    chain.kind = kind ∧ chain.certs ≠ [] ∧ chain.certs.length ≤ maxChainLen := by
  obtain ⟨pem, hpem, hparse⟩ := Checks.bind_eq_ok.mp h
  obtain ⟨hkind, hne, hlen⟩ := CertChain.fromPem_eq_ok hpem
  obtain ⟨hkind', hall⟩ := CertChain.parse_eq_ok hparse
  rw [hall.length_eq] at hlen
  refine ⟨hkind'.trans hkind, fun hnil => hne ?_, hlen⟩
  rw [hnil] at hall
  exact List.forall₂_nil_right_iff.mp hall

theorem Input.chain_kind (i : Input) (kind : ChainKind) : (i.chain C kind).kind = kind := by
  rw [Input.chain]
  split
  · rename_i h; exact (loadChain_eq_ok C h).1
  · rfl

theorem ParsedChain.validate_rejectsOnly (chain : ParsedChain) (now : Int) :
    RejectsOnly [.rootCaUntrusted, .certOrCrlTimeInvalid] (chain.validate C now) := by
  by_cases h : chain.certs = []
  · -- an empty chain has no terminal certificate, and indexing it is no rejection
    refine .bind RejectsOnly.index fun root hroot => ?_
    have hlast := ParsedChain.root_eq_ok.mp hroot
    rw [h] at hlast
    cases hlast
  · exact (validate_rejectsIn h).only

theorem pinnedRootKey_rejectsOnly : RejectsOnly [] (pinnedRootKey C) := by
  unfold pinnedRootKey
  split
  · exact .ok _
  · exact Checks.Raises.error fun _ h => by cases h

theorem Input.checkRootCrl_rejectsOnly (i : Input) :
    RejectsOnly [.crlInvalid, .certOrCrlTimeInvalid] (i.checkRootCrl C) :=
  .bind ((pinnedRootKey_rejectsOnly C).mono (by simp)) fun _ _ =>
    .bind (.bind RejectsOnly.index fun _ _ => .ok _) fun _ _ =>
    (checkCrl_rejectsIn C _ _ _ _ _).only

theorem Input.checkPckCrl_rejectsOnly (i : Input) :
    RejectsOnly [.crlInvalid, .certOrCrlTimeInvalid, .rootCaUntrusted] (i.checkPckCrl C) :=
  .bind (.bind RejectsOnly.index fun _ _ => .ok _) fun _ _ =>
    .bind ((ParsedChain.leafVerifyingKey_rejectsOnly C _).mono (by simp)) fun _ _ =>
    .of_rejectsIn (checkCrl_rejectsIn C _ _ _ _ _) (by simp)

/-- **Every stage keeps to its categories.** -/
theorem Stage.check_rejectsOnly (s : Stage) (i : Input) :
    RejectsOnly s.categories (Stage.check C s i) := by
  cases s with
  | qeVendor => exact (checkQeVendor_rejectsIn C _).only
  | mrenclave => exact (checkMrenclave_rejectsIn C _ _).only
  | formats => exact (checkDocumentFormats_rejectsIn _).only
  | pem kind => exact .bind (CertChain.fromPem_rejectsIn C _ _).only fun _ _ => .ok _
  | der kind => exact .bind (loadChain_rejectsIn C _ _).only fun _ _ => .ok _
  | path kind => exact ParsedChain.validate_rejectsOnly C _ _
  | signingLeaf doc =>
      have h := requireTcbSigningLeaf_rejectsOnly (i.chain C doc.chainKind) doc.name
      rwa [Input.chain_kind] at h
  | crlScope =>
      exact .bind (.bind RejectsOnly.index fun _ _ => .ok _) fun _ _ =>
        checkCrlScope_rejectsOnly _ _
  | rootCrl => exact .bind (Input.checkRootCrl_rejectsOnly C i) fun _ _ => .ok _
  | pckCrl => exact .bind (Input.checkPckCrl_rejectsOnly C i) fun _ _ => .ok _
  | noneRevoked => exact (ensureNoneRevoked_rejectsIn C _ _).only
  | signature doc =>
      exact .bind ((ParsedChain.leafVerifyingKey_rejectsOnly C _).mono (by simp [categories]))
        fun _ _ => .of_rejectsIn (verifyRawHexSignature_rejectsIn C _ _ _ _) (by simp [categories])
  | tcbInfoId => exact (checkTcbInfoId_rejectsIn _).only
  | validityWindow doc => exact (checkValidityWindow_rejectsIn _ _ _ _ _).only
  | evaluationRound doc => exact (checkEvaluationRound_rejectsIn _ _ _ _).only
  | qeIdentity => exact (checkQeIdentity_rejectsIn C _ _).only
  | qeReportSignature =>
      exact .bind ((ParsedChain.leafVerifyingKey_rejectsOnly C _).mono (by simp [categories]))
        fun _ _ => .of_rejectsIn (checkQeReportSignature_rejectsIn C _ _) (by simp [categories])
  | qeBinding => exact (checkQeBinding_rejectsIn C _).only
  | quoteSignature => exact (checkQuoteSignature_rejectsIn C _).only
  | debug => exact (checkDebug_rejectsIn C _).only

/-- The verdict's own rejections: an unreadable extension, a bad hex field, an unsupported level. -/
theorem Input.result_rejectsOnly (i : Input) :
    RejectsOnly [.quoteParse, .tcbLevelUnsupported, .collateralParse] (i.result C) := by
  refine .bind ?_ fun _ _ => .bind
    (.of_rejectsIn (platformStanding_rejectsIn C _ _) (by simp)) fun _ _ => .ok _
  by_cases h : (i.chain C .quotePck).certs = []
  · refine .bind RejectsOnly.index fun leaf hleaf => ?_
    have hhead := ParsedChain.leaf_eq_ok.mp hleaf
    rw [h] at hhead
    cases hhead
  · exact .of_rejectsIn (extractPckPlatformTcb_rejectsIn C h) (by simp)

/-- **A rejection comes from a stage or from the verdict**, and in one of its categories. -/
theorem Input.verify_rejected {i : Input} {e : VerifyError}
    (h : i.verify C = .error (.reject e)) :
    (∃ s, Stage.check C s i = .error (.reject e) ∧ e.category ∈ s.categories) ∨
      (∀ s, Stage.check C s i = .ok ()) ∧
        e.category ∈ [.quoteParse, .tcbLevelUnsupported, .collateralParse] := by
  rw [Input.verify_eq, Checks.bind_eq_error] at h
  rcases h with h | ⟨_, hpass, h⟩
  · obtain ⟨s, hfail⟩ := Stage.runAll_eq_error h
    exact .inl ⟨s, hfail, Stage.check_rejectsOnly C s i _ hfail _ rfl⟩
  · exact .inr ⟨Stage.runAll_eq_ok.mp hpass, Input.result_rejectsOnly C i _ h e.category rfl⟩

end DcapVerify
