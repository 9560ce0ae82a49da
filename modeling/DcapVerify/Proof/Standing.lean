import DcapVerify.Proof.Authentication

/-!
# Where a standing comes from

The standing returned is what the signed TCB info says about the platform named in
the quote's own PCK certificate. Every link is followed: from each document's
signature to its parsed body, from the QE report that was signed to the QE identity,
and from the PCK leaf that vouched for the report to the level it meets.
-/

namespace DcapVerify

variable {C : Crates}

/-- A deserialised document is the parse of the text it carries. -/
theorem visitMap_eq_ok {T : Type} {B : SignedBody T} {members : List (String × String)}
    {signed : Signed T} (h : Signed.visitMap C B members = .ok signed) :
    B.fromStr signed.bodyJson = .ok signed.body := by
  obtain ⟨slots, _, h⟩ := Checks.bind_eq_ok.mp h
  rcases slots with ⟨_ | raw, _ | sig⟩
  · cases h
  · cases h
  · cases h
  · obtain ⟨body, hbody, h⟩ := Checks.bind_eq_ok.mp h
    cases h
    exact Checks.mapError_eq_ok.mp hbody

variable (C)

/-- One signed document of an accepted run: signed under Intel's TCB signing leaf, whose chain is
valid at `now`, in force, and recent enough for the caller. -/
structure DocumentVouched (i : Input) (doc : Document) : Prop where
  chain : ∃ chain, loadChain C doc.chainKind (i.chainPem doc.chainKind) = .ok chain ∧
    chain.validate C i.now = .ok () ∧
    ∃ leaf key, chain.certs.head? = some leaf ∧
      leaf.subject.commonNames.head? = some (.ok "Intel SGX TCB Signing") ∧
      C.fromSec1Bytes leaf.publicKey.subjectPublicKey = .ok key ∧
      HexSigned C key (asBytes (i.document doc).bodyJson) (i.document doc).signatureHex
  window : (i.document doc).issueDate ≤ i.now ∧ i.now < (i.document doc).nextUpdate
  round : i.minTcbEvaluationDataNumber ≤ (i.document doc).tcbEvaluationDataNumber

/-- The verdict of an accepted run, traced to the PCK leaf that signed the QE report. -/
structure VerdictTraced (i : Input) (standing : TcbStanding) : Prop where
  trace : ∃ chain leaf key sig report tcb,
    loadChain C .quotePck i.quote.signature.certData = .ok chain ∧
    chain.leaf = .ok leaf ∧ C.fromSec1Bytes leaf.publicKey.subjectPublicKey = .ok key ∧
    C.signatureFromSlice i.quote.signature.qeReportSignature.toList = .ok sig ∧
    C.verify key i.quote.signature.qeReportRaw.toList sig = true ∧
    SgxReportBody.parse i.quote.signature.qeReportRaw.toList = .ok report ∧
    QeMatches C i.collateral.qeIdentity.body report ∧
    extractPckPlatformTcb C chain = .ok tcb ∧ Judged C i.collateral.tcbInfo.body tcb standing

variable {C}

theorem Authenticated.documentVouched {i : Input} (h : Authenticated C i) (doc : Document) :
    DocumentVouched C i doc := by
  obtain ⟨leaf, key, hleaf, hkey, hsig⟩ := h.signatures doc
  obtain ⟨leaf', hleaf', hname⟩ := h.signingLeaf doc
  obtain rfl : leaf' = leaf := Option.some.inj (hleaf'.symm.trans hleaf)
  exact ⟨⟨i.chain C doc.chainKind, h.decoded _,
    ParsedChain.validate_eq_ok.mpr ⟨h.paths _, h.certWindows _⟩, leaf', key, hleaf, hname, hkey,
    hsig⟩, Window.contains_some.mp (h.docWindows doc), h.docRounds doc⟩

/--
**The standing is what authenticated collateral says about this platform.**

For deserialised collateral and a quote that was read: both documents are signed,
in force and recent enough, and are the parses of the very texts that are signed;
the formats are the supported ones; and the standing is the first met level of the
TCB info, for the platform in the PCK leaf whose key signed the matching QE report.
-/
theorem standing_is_authenticated {collateral : SgxCollateral}
    (hcollateral : collateral.Deserialized C) {b t : Bytes} {quote : SgxQuote}
    (hread : SgxQuote.read b = (.ok quote, t)) {currentTime : SystemTime}
    {expectedMrenclave : MREnclave} {floor : UInt32} {standing : TcbStanding} {body : SgxReportBody}
    (h : verifyRemoteAttestation C currentTime collateral quote expectedMrenclave floor =
      .ok (standing, body)) :
    let i : Input := ⟨currentTime, collateral, quote, expectedMrenclave, floor⟩
    (∀ doc, DocumentVouched C i doc) ∧
      C.tcbInfoFromStr collateral.tcbInfo.bodyJson = .ok collateral.tcbInfo.body ∧
      C.qeIdentityFromStr collateral.qeIdentity.bodyJson = .ok collateral.qeIdentity.body ∧
      SupportedFormats collateral ∧ collateral.tcbInfo.body.id = "SGX" ∧
      collateral.qeIdentity.body.id = "QE" ∧
      VerdictTraced C i standing := by
  intro i
  obtain ⟨hauth, _, tcb, htcb, hjudged, _⟩ :=
    Input.verify_eq_ok_iff.mp (show i.verify C = .ok (standing, body) from h)
  obtain ⟨_, hti⟩ := hcollateral.tcbInfo
  obtain ⟨_, hqe⟩ := hcollateral.qeIdentity
  -- the leaf that vouched for the QE report is the one the platform is read from
  have htrace : VerdictTraced C i standing := by
    obtain ⟨leaf, key, sig, hleaf, hkey, hsig, hver⟩ := hauth.qeReportSignature
    have hparse := (read_bodies hread).2.2
    exact ⟨i.chain C .quotePck, leaf, key, sig, quote.signature.qeReport, tcb,
      hauth.decoded .quotePck, ParsedChain.leaf_eq_ok.mpr hleaf, hkey, hsig, hver, hparse,
      hauth.qeIdentity, htcb, hjudged⟩
  exact ⟨hauth.documentVouched, visitMap_eq_ok hti, visitMap_eq_ok hqe, hauth.formats,
    hauth.tcbInfoId, hauth.qeIdentity.id, htrace⟩

/-- The collateral of the synthetic PKI deserialises from its members, unknown ones skipped. -/
theorem Synthetic.collateral_deserialized (status : String) :
    (Synthetic.collateral status).Deserialized (Synthetic.crates (Synthetic.registry status)) where
  tcbInfo := ⟨[("tcbInfo", "tcb-info"), ("extra", "0"),
    ("signature", (Synthetic.collateral status).tcbInfo.signatureHex)], rfl⟩
  qeIdentity := ⟨[("signature", (Synthetic.collateral status).qeIdentity.signatureHex),
    ("enclaveIdentity", "qe-identity")], rfl⟩

/-- The up-to-date verdict on the honest quote is traced. -/
theorem honest_verdict_traced :
    let i : Input := ⟨Synthetic.currentTime, Synthetic.collateral "UpToDate",
      Synthetic.quote 5 Synthetic.pckChain, Synthetic.mrenclave, 17⟩
    (∀ doc, DocumentVouched (Synthetic.crates (Synthetic.registry "UpToDate")) i doc) ∧
      VerdictTraced (Synthetic.crates (Synthetic.registry "UpToDate")) i .upToDate := by
  obtain ⟨hdocs, _, _, _, _, _, htrace⟩ := standing_is_authenticated
    (Synthetic.collateral_deserialized "UpToDate") Synthetic.honest_read Synthetic.honest_accepted
  exact ⟨hdocs, htrace⟩

end DcapVerify
