import DcapVerify.Verify

/-!
# The pipeline as a sequence of stages

`verifyRemoteAttestation` is one long function. Its checks are the values of
`Stage`, each a gate on the whole input, and `verify_eq_run` says that the function
runs them in the order `Stage.order` and then computes its result. From here on a
statement about the pipeline is a case analysis over `Stage`.

A stage reads the decoded chains through `Input.chain`, which is total: it is the
empty chain where decoding failed. No stage after decoding runs in that case, so
nothing is lost, and no stage has to repeat the decoder's errors as its own.
-/

namespace DcapVerify

/-- Everything one verification reads. -/
@[ext]
structure Input where
  currentTime : SystemTime
  collateral : SgxCollateral
  quote : SgxQuote
  expectedMrenclave : MREnclave
  minTcbEvaluationDataNumber : UInt32

variable (C : Crates)

/-- From the PEM text of a slot to its decoded chain. -/
def loadChain (kind : ChainKind) (data : Bytes) : Outcome ParsedChain := do
  (← CertChain.fromPem C kind data).parse C

namespace Input

def verify (i : Input) : Outcome (TcbStanding × SgxReportBody) :=
  verifyRemoteAttestation C i.currentTime i.collateral i.quote i.expectedMrenclave
    i.minTcbEvaluationDataNumber

def now (i : Input) : Int := unixSeconds i.currentTime

/-- The PEM text in each chain slot. -/
def chainPem (i : Input) : ChainKind → Bytes
  | .tcbInfoIssuer => asBytes i.collateral.tcbInfoIssuerChain
  | .pckCrlIssuer => asBytes i.collateral.pckCrlIssuerChain
  | .qeIdentityIssuer => asBytes i.collateral.qeIdentityIssuerChain
  | .quotePck => i.quote.signature.certData

/-- The decoded chain of a slot. -/
def chain (i : Input) (kind : ChainKind) : ParsedChain :=
  match loadChain C kind (i.chainPem kind) with
  | .ok chain => chain
  | .error _ => { kind, certs := [] }

/-- The four chains, in the order the source lists them. -/
def chains (i : Input) : List ParsedChain :=
  [i.chain C .tcbInfoIssuer, i.chain C .pckCrlIssuer, i.chain C .qeIdentityIssuer,
    i.chain C .quotePck]

theorem chain_eq {i : Input} {kind : ChainKind} {chain : ParsedChain}
    (h : loadChain C kind (i.chainPem kind) = .ok chain) : i.chain C kind = chain := by
  rw [Input.chain, h]

/-- The root CA CRL, checked. -/
def checkRootCrl (i : Input) : Outcome (List RevokedEntry) := do
  let rootKey ← pinnedRootKey C
  checkCrl C "root CA CRL" (asBytes i.collateral.rootCaCrl)
    (← (i.chain C .quotePck).rootSubjectRaw) rootKey i.now

/-- The PCK CRL, checked. -/
def checkPckCrl (i : Input) : Outcome (List RevokedEntry) := do
  let pckLeafIssuer ← (i.chain C .quotePck).leafIssuerRaw
  checkCrl C "PCK CRL" (asBytes i.collateral.pckCrl) pckLeafIssuer
    (← (i.chain C .pckCrlIssuer).leafVerifyingKey C) i.now

/-- What both CRLs revoke. -/
def revoked (i : Input) : List RevokedEntry :=
  (i.checkRootCrl C).toOption.getD [] ++ (i.checkPckCrl C).toOption.getD []

/-- The verdict, once every check has passed. -/
def result (i : Input) : Outcome (TcbStanding × SgxReportBody) := do
  let platformTcb ← extractPckPlatformTcb C (i.chain C .quotePck)
  let standing ← platformStanding C i.collateral.tcbInfo.body platformTcb
  pure (standing, i.quote.reportBody)

end Input

/-! ## The two signed documents -/

inductive Document where
  | tcbInfo
  | qeIdentity
  deriving DecidableEq, Repr

namespace Document

def name : Document → String
  | .tcbInfo => "TCB info"
  | .qeIdentity => "QE identity"

/-- The slot of its issuer chain. -/
def chainKind : Document → ChainKind
  | .tcbInfo => .tcbInfoIssuer
  | .qeIdentity => .qeIdentityIssuer

def signatureInvalid : Document → ErrorCategory
  | .tcbInfo => .tcbInfoSignatureInvalid
  | .qeIdentity => .qeIdentitySignatureInvalid

def stale : Document → ErrorCategory
  | .tcbInfo => .tcbInfoStale
  | .qeIdentity => .qeIdentityStale

end Document

/-- What the pipeline reads of either document. -/
structure DocumentFields where
  bodyJson : String
  signatureHex : String
  issueDate : Int
  nextUpdate : Int
  tcbEvaluationDataNumber : UInt32

def Input.document (i : Input) : Document → DocumentFields
  | .tcbInfo =>
      let signed := i.collateral.tcbInfo
      { bodyJson := signed.bodyJson, signatureHex := signed.signatureHex,
        issueDate := signed.body.issueDate, nextUpdate := signed.body.nextUpdate,
        tcbEvaluationDataNumber := signed.body.tcbEvaluationDataNumber }
  | .qeIdentity =>
      let signed := i.collateral.qeIdentity
      { bodyJson := signed.bodyJson, signatureHex := signed.signatureHex,
        issueDate := signed.body.issueDate, nextUpdate := signed.body.nextUpdate,
        tcbEvaluationDataNumber := signed.body.tcbEvaluationDataNumber }

/-! ## Stages -/

/-- The checks of the pipeline. -/
inductive Stage where
  | qeVendor
  | mrenclave
  | formats
  | pem (kind : ChainKind)
  | der (kind : ChainKind)
  | path (kind : ChainKind)
  | signingLeaf (doc : Document)
  | crlScope
  | rootCrl
  | pckCrl
  | noneRevoked
  | signature (doc : Document)
  | tcbInfoId
  | validityWindow (doc : Document)
  | evaluationRound (doc : Document)
  | qeIdentity
  | qeReportSignature
  | qeBinding
  | quoteSignature
  | debug
  deriving DecidableEq, Repr

namespace Stage

/-- What each stage checks. -/
def check : Stage → Checks.Gate Input Fault
  | .qeVendor, i => checkQeVendor C i.quote
  | .mrenclave, i => checkMrenclave C i.quote i.expectedMrenclave
  | .formats, i => checkDocumentFormats i.collateral
  | .pem kind, i => do let _ ← CertChain.fromPem C kind (i.chainPem kind)
  | .der kind, i => do let _ ← loadChain C kind (i.chainPem kind)
  | .path kind, i => (i.chain C kind).validate C i.now
  | .signingLeaf doc, i => requireTcbSigningLeaf (i.chain C doc.chainKind) doc.name
  | .crlScope, i => do
      checkCrlScope (i.chain C .pckCrlIssuer) (← (i.chain C .quotePck).leafIssuerRaw)
  | .rootCrl, i => do let _ ← i.checkRootCrl C
  | .pckCrl, i => do let _ ← i.checkPckCrl C
  | .noneRevoked, i => ensureNoneRevoked C (i.chains C) (i.revoked C)
  | .signature doc, i => do
      let key ← (i.chain C doc.chainKind).leafVerifyingKey C
      verifyRawHexSignature C key (asBytes (i.document doc).bodyJson) (i.document doc).signatureHex
        doc.signatureInvalid
  | .tcbInfoId, i => checkTcbInfoId i.collateral.tcbInfo.body
  | .validityWindow doc, i =>
      checkValidityWindow doc.name (i.document doc).issueDate (i.document doc).nextUpdate i.now
        doc.stale
  | .evaluationRound doc, i =>
      checkEvaluationRound doc.name (i.document doc).tcbEvaluationDataNumber
        i.minTcbEvaluationDataNumber doc.stale
  | .qeIdentity, i =>
      checkQeIdentity C i.collateral.qeIdentity.body i.quote.signature.qeReport
  | .qeReportSignature, i => do
      checkQeReportSignature C (← (i.chain C .quotePck).leafVerifyingKey C) i.quote.signature
  | .qeBinding, i => checkQeBinding C i.quote.signature
  | .quoteSignature, i => checkQuoteSignature C i.quote
  | .debug, i => checkDebug C i.quote

/-- The order the source runs them in. -/
def order : List Stage :=
  [.qeVendor, .mrenclave, .formats,
    .pem .tcbInfoIssuer, .pem .pckCrlIssuer, .pem .qeIdentityIssuer, .pem .quotePck,
    .der .tcbInfoIssuer, .der .pckCrlIssuer, .der .qeIdentityIssuer, .der .quotePck,
    .path .tcbInfoIssuer, .path .pckCrlIssuer, .path .qeIdentityIssuer, .path .quotePck,
    .signingLeaf .tcbInfo, .signingLeaf .qeIdentity,
    .crlScope, .rootCrl, .pckCrl, .noneRevoked,
    .signature .tcbInfo, .tcbInfoId, .validityWindow .tcbInfo, .evaluationRound .tcbInfo,
    .signature .qeIdentity, .validityWindow .qeIdentity, .evaluationRound .qeIdentity,
    .qeIdentity, .qeReportSignature, .qeBinding, .quoteSignature, .debug]

theorem mem_order (s : Stage) : s ∈ order := by
  cases s with
  | pem k | der k | path k => cases k <;> decide
  | signingLeaf d | signature d | validityWindow d | evaluationRound d => cases d <;> decide
  | _ => decide

/-- Run every stage. -/
def runAll (i : Input) : Outcome Unit := Checks.run (order.map (check C)) i

variable {C}

theorem runAll_eq_ok {i : Input} : runAll C i = .ok () ↔ ∀ s, check C s i = .ok () := by
  rw [runAll, Checks.run_eq_ok, List.forall_mem_map]
  exact ⟨fun h s => h s (mem_order s), fun h s _ => h s⟩

/-- A failing run fails at one of the stages. -/
theorem runAll_eq_error {i : Input} {f : Fault} (h : runAll C i = .error f) :
    ∃ s, check C s i = .error f := by
  obtain ⟨_, hg, he⟩ := Checks.run_eq_error h
  obtain ⟨s, _, rfl⟩ := List.mem_map.mp hg
  exact ⟨s, he⟩

/-- The DEBUG gate comes last. -/
theorem runAll_eq_debug (i : Input) :
    runAll C i = (Checks.run (order.dropLast.map (check C)) i >>= fun _ => check C .debug i) := by
  have horder : order.map (check C) = order.dropLast.map (check C) ++ [check C .debug] := rfl
  rw [runAll, horder, Checks.run_append]
  refine bind_congr fun _ => ?_
  rw [Checks.run_cons, Checks.run_nil]
  exact bind_pure _

theorem mem_dropLast_order {s : Stage} : s ∈ order.dropLast ↔ s ≠ .debug := by
  have hmem : s ∈ order.dropLast ++ [.debug] := s.mem_order
  refine ⟨fun h => ?_, fun h => ?_⟩
  · rintro rfl
    exact absurd h (by decide)
  · exact (List.mem_append.mp hmem).resolve_right (by simpa using h)

end Stage

/-! ## The function is its stages -/

theorem loadChain_of_pem {C : Crates} {kind : ChainKind} {data : Bytes} {chain : CertChain}
    (h : CertChain.fromPem C kind data = .ok chain) : loadChain C kind data = chain.parse C := by
  rw [loadChain, h, Checks.ok_bind]

theorem Input.checkRootCrl_of_chain {i : Input} {pck : ParsedChain}
    (h : i.chain C .quotePck = pck) :
    i.checkRootCrl C = (do
      let rootKey ← pinnedRootKey C
      checkCrl C "root CA CRL" (asBytes i.collateral.rootCaCrl) (← pck.rootSubjectRaw) rootKey
        i.now) := by
  rw [checkRootCrl, h]

theorem Input.checkPckCrl_of_chains {i : Input} {pck crl : ParsedChain} {issuer : Bytes}
    (h : i.chain C .quotePck = pck) (hc : i.chain C .pckCrlIssuer = crl)
    (hi : pck.leafIssuerRaw = .ok issuer) :
    i.checkPckCrl C = (do
      checkCrl C "PCK CRL" (asBytes i.collateral.pckCrl) issuer (← crl.leafVerifyingKey C)
        i.now) := by
  rw [checkPckCrl, h, hc, hi, Checks.ok_bind]

/-- **The pipeline runs its stages in order, then computes the verdict.** -/
theorem Input.verify_eq (i : Input) :
    i.verify C = (Stage.runAll C i >>= fun _ => i.result C) := by
  simp only [Input.verify, verifyRemoteAttestation, Stage.runAll, Stage.order, List.map_cons,
    List.map_nil, Checks.run_cons, Checks.run_nil, Stage.check, bind_assoc, pure_bind,
    Checks.ok_bind, List.forM_cons, List.forM_nil]
  refine bind_congr fun _ => bind_congr fun _ => bind_congr fun _ => ?_
  -- the four chains
  refine Checks.bind_congr_ok fun pem₁ h₁ => Checks.bind_congr_ok fun pem₂ h₂ =>
    Checks.bind_congr_ok fun pem₃ h₃ => Checks.bind_congr_ok fun pem₄ h₄ => ?_
  have hl₁ : loadChain C .tcbInfoIssuer (i.chainPem .tcbInfoIssuer) = _ := loadChain_of_pem h₁
  have hl₂ : loadChain C .pckCrlIssuer (i.chainPem .pckCrlIssuer) = _ := loadChain_of_pem h₂
  have hl₃ : loadChain C .qeIdentityIssuer (i.chainPem .qeIdentityIssuer) = _ := loadChain_of_pem h₃
  have hl₄ : loadChain C .quotePck (i.chainPem .quotePck) = _ := loadChain_of_pem h₄
  rw [hl₁, hl₂, hl₃, hl₄]
  refine Checks.bind_congr_ok fun tcb ht => Checks.bind_congr_ok fun crl hc =>
    Checks.bind_congr_ok fun qe hq => Checks.bind_congr_ok fun pck hp => ?_
  have htcb := Input.chain_eq C (hl₁.trans ht)
  have hcrl := Input.chain_eq C (hl₂.trans hc)
  have hqe := Input.chain_eq C (hl₃.trans hq)
  have hpck := Input.chain_eq C (hl₄.trans hp)
  simp only [Document.chainKind, Document.name, Document.signatureInvalid, Document.stale,
    Input.document, Input.chains, htcb, hcrl, hqe, hpck]
  refine bind_congr fun _ => bind_congr fun _ => bind_congr fun _ => bind_congr fun _ =>
    bind_congr fun _ => bind_congr fun _ => ?_
  -- revocation
  refine Checks.bind_congr_ok fun issuer hi => bind_congr fun _ => ?_
  simp only [Input.checkRootCrl_of_chain C hpck, Input.checkPckCrl_of_chains C hpck hcrl hi,
    bind_assoc]
  refine Checks.bind_congr_ok fun key hk => Checks.bind_congr_ok fun subject hs =>
    Checks.bind_congr_ok fun rev hr => Checks.bind_congr_ok fun crlKey hck =>
    Checks.bind_congr_ok fun revPck hrp => ?_
  have hrevoked : i.revoked C = rev ++ revPck := by
    simp only [Input.revoked, Input.checkRootCrl_of_chain C hpck,
      Input.checkPckCrl_of_chains C hpck hcrl hi, hk, hs, hck, Checks.ok_bind, Input.now, hr, hrp]
    rfl
  rw [hrevoked, Input.result, hpck]
  rfl

namespace Input

variable {C}

/-- **Acceptance** is every stage passing and a verdict coming out. -/
theorem verify_eq_ok {i : Input} {r : TcbStanding × SgxReportBody} :
    i.verify C = .ok r ↔ (∀ s, Stage.check C s i = .ok ()) ∧ i.result C = .ok r := by
  rw [verify_eq, Checks.seq_eq_ok, Stage.runAll_eq_ok]

theorem loadChain_of_der {i : Input} {kind : ChainKind}
    (h : Stage.check C (.der kind) i = .ok ()) :
    loadChain C kind (i.chainPem kind) = .ok (i.chain C kind) := by
  obtain ⟨chain, hchain, _⟩ := Checks.bind_eq_ok.mp h
  rw [hchain, chain_eq C hchain]

end Input

end DcapVerify
