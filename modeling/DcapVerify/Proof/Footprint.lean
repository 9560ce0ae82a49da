import DcapVerify.Proof.Acceptance

/-!
# What each stage reads

An input has parts, and a stage reads some of them. Two inputs that agree on those
parts are told apart by nothing the stage does, so a change to an input is noticed
only by the stages that read what was changed.

`verify_stops` is the other half: the run ends at the first stage that fails. The
two together say what becomes of a changed input from a passing one: find the first
stage that reads the change and looks for it.
-/

namespace DcapVerify

/-- The parts of an input that the stages tell apart. -/
inductive Part where
  | clock
  | pin
  | floor
  | version
  | rootCaCrl
  | pckCrl
  | chainText (kind : ChainKind)
  | document (doc : Document)
  | qeVendorId
  | measurement
  | attributes
  | signedBytes
  | isvSignature
  | attestationPubKey
  | qeReport
  | qeReportRaw
  | qeReportSignature
  | qeAuthData
  deriving DecidableEq, Repr

/-- The two inputs have this part in common. -/
def Part.Same (i j : Input) : Part → Prop
  | .clock => i.now = j.now
  | .pin => i.expectedMrenclave = j.expectedMrenclave
  | .floor => i.minTcbEvaluationDataNumber = j.minTcbEvaluationDataNumber
  | .version => i.collateral.version = j.collateral.version
  | .rootCaCrl => i.collateral.rootCaCrl = j.collateral.rootCaCrl
  | .pckCrl => i.collateral.pckCrl = j.collateral.pckCrl
  | .chainText kind => i.chainPem kind = j.chainPem kind
  | .document .tcbInfo => i.collateral.tcbInfo = j.collateral.tcbInfo
  | .document .qeIdentity => i.collateral.qeIdentity = j.collateral.qeIdentity
  | .qeVendorId => i.quote.header.qeVendorId = j.quote.header.qeVendorId
  | .measurement => i.quote.reportBody.mrenclave = j.quote.reportBody.mrenclave
  | .attributes => i.quote.reportBody.attributes = j.quote.reportBody.attributes
  | .signedBytes => i.quote.signedBytes = j.quote.signedBytes
  | .isvSignature => i.quote.signature.isvSignature = j.quote.signature.isvSignature
  | .attestationPubKey => i.quote.signature.attestationPubKey = j.quote.signature.attestationPubKey
  | .qeReport => i.quote.signature.qeReport = j.quote.signature.qeReport
  | .qeReportRaw => i.quote.signature.qeReportRaw = j.quote.signature.qeReportRaw
  | .qeReportSignature => i.quote.signature.qeReportSignature = j.quote.signature.qeReportSignature
  | .qeAuthData => i.quote.signature.qeAuthData = j.quote.signature.qeAuthData

/-- The parts a stage reads. -/
def Stage.reads : Stage → List Part
  | .qeVendor => [.qeVendorId]
  | .mrenclave => [.measurement, .pin]
  | .formats => [.version, .document .tcbInfo, .document .qeIdentity]
  | .pem kind | .der kind => [.chainText kind]
  | .path kind => [.chainText kind, .clock]
  | .signingLeaf doc => [.chainText doc.chainKind]
  | .crlScope => [.chainText .pckCrlIssuer, .chainText .quotePck]
  | .rootCrl => [.rootCaCrl, .chainText .quotePck, .clock]
  | .pckCrl => [.pckCrl, .chainText .quotePck, .chainText .pckCrlIssuer, .clock]
  | .noneRevoked => [.chainText .tcbInfoIssuer, .chainText .pckCrlIssuer,
      .chainText .qeIdentityIssuer, .chainText .quotePck, .rootCaCrl, .pckCrl, .clock]
  | .signature doc => [.chainText doc.chainKind, .document doc]
  | .tcbInfoId => [.document .tcbInfo]
  | .validityWindow doc => [.document doc, .clock]
  | .evaluationRound doc => [.document doc, .floor]
  | .qeIdentity => [.document .qeIdentity, .qeReport]
  | .qeReportSignature => [.chainText .quotePck, .qeReportRaw, .qeReportSignature]
  | .qeBinding => [.attestationPubKey, .qeAuthData, .qeReport]
  | .quoteSignature => [.attestationPubKey, .isvSignature, .signedBytes]
  | .debug => [.attributes]

section

variable {C : Crates} {i j : Input}

namespace Part

theorem same_document {doc : Document} (h : (document doc).Same i j) :
    i.document doc = j.document doc := by
  cases doc with
  | tcbInfo =>
      have hsigned : i.collateral.tcbInfo = j.collateral.tcbInfo := h
      simp only [Input.document, hsigned]
  | qeIdentity =>
      have hsigned : i.collateral.qeIdentity = j.collateral.qeIdentity := h
      simp only [Input.document, hsigned]

theorem same_chain {kind : ChainKind} (h : (chainText kind).Same i j) :
    i.chain C kind = j.chain C kind := by
  have htext : i.chainPem kind = j.chainPem kind := h
  rw [Input.chain, Input.chain, htext]

end Part

theorem Input.checkRootCrl_congr (h : ∀ p ∈ Stage.rootCrl.reads, p.Same i j) :
    i.checkRootCrl C = j.checkRootCrl C := by
  have hcrl : i.collateral.rootCaCrl = j.collateral.rootCaCrl := h .rootCaCrl (by decide)
  have hchain : i.chain C .quotePck = j.chain C .quotePck :=
    Part.same_chain (h (.chainText .quotePck) (by decide))
  have hnow : i.now = j.now := h .clock (by decide)
  rw [checkRootCrl, checkRootCrl, hcrl, hchain, hnow]

theorem Input.checkPckCrl_congr (h : ∀ p ∈ Stage.pckCrl.reads, p.Same i j) :
    i.checkPckCrl C = j.checkPckCrl C := by
  have hcrl : i.collateral.pckCrl = j.collateral.pckCrl := h .pckCrl (by decide)
  have hchain : i.chain C .quotePck = j.chain C .quotePck :=
    Part.same_chain (h (.chainText .quotePck) (by decide))
  have hissuer : i.chain C .pckCrlIssuer = j.chain C .pckCrlIssuer :=
    Part.same_chain (h (.chainText .pckCrlIssuer) (by decide))
  have hnow : i.now = j.now := h .clock (by decide)
  rw [checkPckCrl, checkPckCrl, hcrl, hchain, hissuer, hnow]

/-- **A stage reads its parts and nothing else.** -/
theorem Stage.check_congr {s : Stage} (h : ∀ p ∈ s.reads, p.Same i j) :
    check C s i = check C s j := by
  cases s with
  | qeVendor =>
      have hvendor : i.quote.header.qeVendorId = j.quote.header.qeVendorId :=
        h .qeVendorId (by decide)
      rw [check, check, checkQeVendor, checkQeVendor, hvendor]
  | mrenclave =>
      have hbody : i.quote.reportBody.mrenclave = j.quote.reportBody.mrenclave :=
        h .measurement (by decide)
      have hpin : i.expectedMrenclave = j.expectedMrenclave := h .pin (by decide)
      rw [check, check, checkMrenclave, checkMrenclave, hbody, hpin]
  | formats =>
      have hversion : i.collateral.version = j.collateral.version := h .version (by decide)
      have htcb : i.collateral.tcbInfo = j.collateral.tcbInfo := h (.document .tcbInfo) (by decide)
      have hqe : i.collateral.qeIdentity = j.collateral.qeIdentity :=
        h (.document .qeIdentity) (by decide)
      rw [check, check, checkDocumentFormats, checkDocumentFormats, hversion, htcb, hqe]
  | pem kind =>
      have htext : i.chainPem kind = j.chainPem kind := h (.chainText kind) (by simp [reads])
      rw [check, check, htext]
  | der kind =>
      have htext : i.chainPem kind = j.chainPem kind := h (.chainText kind) (by simp [reads])
      rw [check, check, htext]
  | path kind =>
      have hchain : i.chain C kind = j.chain C kind :=
        Part.same_chain (h (.chainText kind) (by simp [reads]))
      have hnow : i.now = j.now := h .clock (by simp [reads])
      rw [check, check, hchain, hnow]
  | signingLeaf doc =>
      have hchain : i.chain C doc.chainKind = j.chain C doc.chainKind :=
        Part.same_chain (h (.chainText doc.chainKind) (by simp [reads]))
      rw [check, check, hchain]
  | crlScope =>
      have hcrl : i.chain C .pckCrlIssuer = j.chain C .pckCrlIssuer :=
        Part.same_chain (h (.chainText .pckCrlIssuer) (by decide))
      have hpck : i.chain C .quotePck = j.chain C .quotePck :=
        Part.same_chain (h (.chainText .quotePck) (by decide))
      rw [check, check, hcrl, hpck]
  | rootCrl => rw [check, check, Input.checkRootCrl_congr h]
  | pckCrl => rw [check, check, Input.checkPckCrl_congr h]
  | noneRevoked =>
      -- what is revoked is what the two CRL stages read
      have hroot : i.checkRootCrl C = j.checkRootCrl C :=
        Input.checkRootCrl_congr fun p hp =>
          h p ((by decide : Stage.rootCrl.reads ⊆ Stage.noneRevoked.reads) hp)
      have hpck : i.checkPckCrl C = j.checkPckCrl C :=
        Input.checkPckCrl_congr fun p hp =>
          h p ((by decide : Stage.pckCrl.reads ⊆ Stage.noneRevoked.reads) hp)
      have hchain (kind : ChainKind) : i.chain C kind = j.chain C kind :=
        Part.same_chain (h (.chainText kind) (by cases kind <;> decide))
      rw [check, check, Input.revoked, Input.revoked, Input.chains, Input.chains, hroot, hpck]
      simp only [hchain]
  | signature doc =>
      have hchain : i.chain C doc.chainKind = j.chain C doc.chainKind :=
        Part.same_chain (h (.chainText doc.chainKind) (by simp [reads]))
      have hdoc : i.document doc = j.document doc :=
        Part.same_document (h (.document doc) (by simp [reads]))
      rw [check, check, hchain, hdoc]
  | tcbInfoId =>
      have htcb : i.collateral.tcbInfo = j.collateral.tcbInfo := h (.document .tcbInfo) (by decide)
      rw [check, check, htcb]
  | validityWindow doc =>
      have hdoc : i.document doc = j.document doc :=
        Part.same_document (h (.document doc) (by simp [reads]))
      have hnow : i.now = j.now := h .clock (by simp [reads])
      rw [check, check, hdoc, hnow]
  | evaluationRound doc =>
      have hdoc : i.document doc = j.document doc :=
        Part.same_document (h (.document doc) (by simp [reads]))
      have hfloor : i.minTcbEvaluationDataNumber = j.minTcbEvaluationDataNumber :=
        h .floor (by simp [reads])
      rw [check, check, hdoc, hfloor]
  | qeIdentity =>
      have hqe : i.collateral.qeIdentity = j.collateral.qeIdentity :=
        h (.document .qeIdentity) (by decide)
      have hreport : i.quote.signature.qeReport = j.quote.signature.qeReport :=
        h .qeReport (by decide)
      rw [check, check, hqe, hreport]
  | qeReportSignature =>
      have hchain : i.chain C .quotePck = j.chain C .quotePck :=
        Part.same_chain (h (.chainText .quotePck) (by decide))
      have hraw : i.quote.signature.qeReportRaw = j.quote.signature.qeReportRaw :=
        h .qeReportRaw (by decide)
      have hsig : i.quote.signature.qeReportSignature = j.quote.signature.qeReportSignature :=
        h .qeReportSignature (by decide)
      simp only [check, checkQeReportSignature, hchain, hraw, hsig]
  | qeBinding =>
      have hkey : i.quote.signature.attestationPubKey = j.quote.signature.attestationPubKey :=
        h .attestationPubKey (by decide)
      have hauth : i.quote.signature.qeAuthData = j.quote.signature.qeAuthData :=
        h .qeAuthData (by decide)
      have hreport : i.quote.signature.qeReport = j.quote.signature.qeReport :=
        h .qeReport (by decide)
      rw [check, check, checkQeBinding, checkQeBinding, hkey, hauth, hreport]
  | quoteSignature =>
      have hkey : i.quote.signature.attestationPubKey = j.quote.signature.attestationPubKey :=
        h .attestationPubKey (by decide)
      have hsig : i.quote.signature.isvSignature = j.quote.signature.isvSignature :=
        h .isvSignature (by decide)
      have hbytes : i.quote.signedBytes = j.quote.signedBytes := h .signedBytes (by decide)
      rw [check, check, checkQuoteSignature, checkQuoteSignature, hkey, hsig, hbytes]
  | debug =>
      have hattr : i.quote.reportBody.attributes = j.quote.reportBody.attributes :=
        h .attributes (by decide)
      rw [check, check, checkDebug, checkDebug, SgxReportBody.isDebug, SgxReportBody.isDebug,
        SgxReportBody.attributeFlags, SgxReportBody.attributeFlags, hattr]

/-! ## The first stage that fails -/

/-- The stages that run before `s`. -/
def Stage.before (s : Stage) : List Stage := Stage.order.takeWhile (· ≠ s)

theorem Stage.order_eq_before (s : Stage) : ∃ rest, Stage.order = s.before ++ s :: rest := by
  have hne : Stage.order.dropWhile (· ≠ s) ≠ [] := by
    rw [Ne, List.dropWhile_eq_nil_iff]
    intro h
    have := h s s.mem_order
    simp at this
  obtain ⟨t, rest, ht⟩ := List.exists_cons_of_ne_nil hne
  have hhead : t = s := by
    have hnot := List.head_dropWhile_not _ hne
    simp only [ht, List.head_cons] at hnot
    simpa using hnot
  refine ⟨rest, ?_⟩
  rw [before, ← hhead, ← ht, hhead, List.takeWhile_append_dropWhile]

/-- **The run ends at the first stage that fails.** -/
theorem Input.verify_stops {s : Stage} {f : Fault}
    (hbefore : ∀ t ∈ s.before, Stage.check C t i = .ok ()) (hs : Stage.check C s i = .error f) :
    i.verify C = .error f := by
  obtain ⟨rest, horder⟩ := s.order_eq_before
  have hpre : Checks.run (s.before.map (Stage.check C)) i = .ok () :=
    Checks.run_eq_ok.mpr (List.forall_mem_map.mpr hbefore)
  rw [verify_eq, Stage.runAll, horder, List.map_append, List.map_cons, Checks.run_append, hpre,
    Checks.ok_bind, Checks.run_cons, hs]
  rfl

/-! ## Changed inputs -/

/-- The two inputs differ in the parts of `D` at most. -/
def Input.AgreeOutside (D : List Part) (i j : Input) : Prop := ∀ p, p ∉ D → p.Same i j

/-- A stage reads none of the parts. -/
def Stage.Ignores (D : List Part) (s : Stage) : Prop := ∀ p ∈ s.reads, p ∉ D

instance (D : List Part) (s : Stage) : Decidable (s.Ignores D) :=
  inferInstanceAs (Decidable (∀ p ∈ s.reads, p ∉ D))

theorem Input.AgreeOutside.check {D : List Part} {s : Stage} (h : AgreeOutside D i j)
    (hs : s.Ignores D) : Stage.check C s i = Stage.check C s j :=
  Stage.check_congr fun p hp => h p (hs p hp)

/-! ## Rejection in a category that one stage owns -/

/-- Only `s` rejects in the category. -/
def Stage.Owns (s : Stage) (k : ErrorCategory) : Prop :=
  (∀ t ∈ Stage.order, k ∈ t.categories → t = s) ∧
    k ∉ [ErrorCategory.quoteParse, .tcbLevelUnsupported, .collateralParse]

instance (s : Stage) (k : ErrorCategory) : Decidable (s.Owns k) :=
  inferInstanceAs (Decidable (_ ∧ _))

/-- **Where the category of a rejection comes from.** If the stages before `s` pass, the run is
rejected in the category that `s` owns exactly when `s` does not pass. -/
theorem Input.rejected_iff {i : Input} {s : Stage} {k : ErrorCategory}
    (hbefore : ∀ t ∈ s.before, Stage.check C t i = .ok ())
    (hfail : RejectsIn [k] (Stage.check C s i)) (hown : s.Owns k) :
    (∃ e, i.verify C = .error (.reject e) ∧ e.category = k) ↔ Stage.check C s i ≠ .ok () := by
  refine ⟨fun h => ?_, fun h => ?_⟩
  · obtain ⟨e, he, rfl⟩ := h
    intro hpass
    rcases verify_rejected C he with ⟨t, ht, hk⟩ | ⟨_, hk⟩
    · obtain rfl := hown.1 t t.mem_order hk
      rw [hpass] at ht
      cases ht
    · exact hown.2 hk
  · cases hs : Stage.check C s i with
    | ok u => exact absurd hs h
    | error f =>
        obtain ⟨e, rfl, hk⟩ := hfail.exists_reject hs
        exact ⟨e, verify_stops hbefore hs, List.mem_singleton.mp hk⟩

/-- A run that ends at the DEBUG gate has passed every other stage. -/
theorem Input.passes_of_debug {i : Input} {e : VerifyError}
    (h : i.verify C = .error (.reject e)) (hk : e.category = .debugEnclaveRejected) :
    (∀ s, s ≠ .debug → Stage.check C s i = .ok ()) ∧ i.quote.reportBody.isDebug = .ok true := by
  have hown : Stage.debug.Owns .debugEnclaveRejected := by decide
  have hdebug : ∃ f, Stage.check C .debug i = .error f := by
    rcases verify_rejected C h with ⟨t, ht, hcat⟩ | ⟨_, hcat⟩
    · rw [hk] at hcat
      exact ⟨_, hown.1 t t.mem_order hcat ▸ ht⟩
    · rw [hk] at hcat
      exact absurd hcat hown.2
  refine ⟨?_, ?_⟩
  · -- no other stage rejects in that category, so none before the gate has failed
    cases hpre : Checks.run (Stage.order.dropLast.map (Stage.check C)) i with
    | ok u =>
        intro s hs
        have hall := Checks.run_eq_ok.mp hpre
        exact hall _ (List.mem_map_of_mem (Stage.mem_dropLast_order.mpr hs))
    | error f =>
        rw [verify_eq, Stage.runAll_eq_debug, hpre] at h
        cases h
        obtain ⟨g, hg, hge⟩ := Checks.run_eq_error hpre
        obtain ⟨s, hs, rfl⟩ := List.mem_map.mp hg
        have hcat := Stage.check_rejectsOnly C s i _ hge e.category rfl
        rw [hk] at hcat
        exact absurd (hown.1 s s.mem_order hcat) (Stage.mem_dropLast_order.mp hs)
  · obtain ⟨f, hf⟩ := hdebug
    obtain ⟨d, hd⟩ := exists_isDebug i.quote.reportBody
    cases d with
    | true => exact hd
    | false =>
        have hpass : Stage.check C .debug i = .ok () := (checkDebug_eq_ok C).mpr hd
        rw [hpass] at hf
        cases hf

end

end DcapVerify
