import DcapVerify.Proof.Footprint
import DcapVerify.Proof.Time

/-!
# The same evidence under other parameters

Beside the evidence a caller hands over a time, a measurement, a floor on the
evaluation round and a policy. For evidence that is in order, the outcome under any
other four is decided by these alone: `Input.complaint` reads off the category of
the rejection, in the order in which the pipeline would come across it.

The argument splits the stages into segments. Under other parameters each segment
either passes or rejects in one category, so the first that does not pass decides.
-/

namespace DcapVerify

open Path

variable {C : Crates}

theorem RejectsIn.of_ok {α : Type} {S : List ErrorCategory} {m : Outcome α} {a : α}
    (h : m = .ok a) : RejectsIn S m := by
  rw [h]
  exact .ok a

theorem RejectsIn.rejectIf_not {S : List ErrorCategory} {c : Prop} [Decidable c] {e : VerifyError}
    (h : ¬ c) : RejectsIn S (DcapVerify.rejectIf c e) :=
  .of_ok (rejectIf_eq_ok (u := ()).mpr h)

/-! ## What time can do to a chain and to a CRL -/

theorem checkCert_rejectsIn_time {label : String} {now : Int} {cert : X509Certificate}
    (h : P256Sha256 C cert) :
    RejectsIn [.certOrCrlTimeInvalid] (ParsedChain.checkCert C label now cert) :=
  .bind (.rejectIf (by simp)) fun _ _ => .of_ok ((checkP256Sha256Algs_eq_ok C).mpr h)

/-- On a valid path only the time can be at fault. -/
theorem validate_rejectsIn_time {chain : ParsedChain} (h : ValidPath C chain.certs) (now : Int) :
    RejectsIn [.certOrCrlTimeInvalid] (chain.validate C now) := by
  obtain ⟨⟨root, hroot, hpin⟩, hlinks⟩ := rooted_iff_index.mp h.rooted
  have hcas : ∀ x ∈ chain.certs.zipIdx.drop 1, requireCa chain.kind.label x.2 x.1 = .ok () := by
    have hall := (forall_mem_drop_zipIdx (P := fun cert _ => IsCa cert)).mpr h.cas
    exact fun x hx => requireCa_eq_ok.mpr (hall x hx)
  have hissued : ∀ i ∈ List.range chain.certs.length, chain.checkLink C i = .ok () := by
    intro i hi
    have hget := List.getElem?_eq_getElem (List.mem_range.mp hi)
    exact (ParsedChain.checkLink_of_getElem? C hget).mpr (hlinks i _ hget)
  rw [ParsedChain.validate, ParsedChain.root_eq_ok.mpr hroot, Checks.ok_bind]
  refine .bind (.rejectIf_not (not_not.mpr hpin)) fun _ _ =>
    .bind (.forM fun cert hcert => checkCert_rejectsIn_time (h.algorithms cert hcert)) fun _ _ =>
    .bind (.forM fun x hx => .of_ok (hcas x hx)) fun _ _ => .forM fun i hi => .of_ok (hissued i hi)

theorem checkCrl_rejectsIn_time {label : String} {pemData issuerRaw : Bytes}
    {issuerKey : C.VerifyingKey} {crl : CertificateRevocationList}
    (hdecoded : decodeCrl C label pemData = .ok crl) (h : ValidCrl C crl issuerRaw issuerKey)
    (now : Int) :
    RejectsIn [.certOrCrlTimeInvalid] (checkCrl C label pemData issuerRaw issuerKey now) := by
  obtain ⟨sig, hsig, hverify⟩ := h.signature
  rw [checkCrl, hdecoded, Checks.ok_bind]
  refine .bind (.rejectIf_not (not_not.mpr h.signed)) fun _ _ =>
    .bind (.rejectIf_not (not_not.mpr h.ecdsaSha256)) fun _ _ =>
    .bind (.rejectIf_not (not_not.mpr h.issuer)) fun _ _ =>
    .bind (.rejectIf (by simp)) fun _ _ =>
    .bind (checkCrlNextUpdate_rejectsIn _ _ _) fun _ _ => ?_
  rw [hsig]
  refine .bind (.ok sig) fun sig' hsig' => .bind (.rejectIf_not ?_) fun _ _ =>
    .mapM fun rc _ => by rw [normalizedSerial_eq]; exact .ok _
  cases hsig'
  rw [hverify]
  decide

/-! ## Segments of the pipeline -/

/-- Stages that pass together exactly when `P` holds, and reject in one category. -/
structure Decides (C : Crates) (j : Input) (stages : List Stage) (k : ErrorCategory) (P : Prop) :
    Prop where
  category : ∀ s ∈ stages, RejectsIn [k] (Stage.check C s j)
  passes : (∀ s ∈ stages, Stage.check C s j = .ok ()) ↔ P

namespace Decides

variable {j : Input} {stages : List Stage} {k : ErrorCategory} {P : Prop}

/-- A segment that passes hands over to the next. -/
theorem skip (h : Decides C j stages k P) (hP : P) (rest : List Stage) :
    Checks.run ((stages ++ rest).map (Stage.check C)) j =
      Checks.run (rest.map (Stage.check C)) j := by
  have hpass : Checks.run (stages.map (Stage.check C)) j = .ok () :=
    Checks.run_eq_ok.mpr (List.forall_mem_map.mpr (h.passes.mpr hP))
  rw [List.map_append, Checks.run_append, hpass, Checks.ok_bind]

/-- A segment that does not pass decides the category. -/
theorem stop (h : Decides C j stages k P) (hP : ¬ P) (rest : List Stage) :
    ∃ e, Checks.run ((stages ++ rest).map (Stage.check C)) j = .error (.reject e) ∧
      e.category = k := by
  cases hrun : Checks.run (stages.map (Stage.check C)) j with
  | ok u =>
      have hpass := Checks.run_eq_ok.mp hrun
      exact absurd (h.passes.mp (List.forall_mem_map.mp hpass)) hP
  | error f =>
      obtain ⟨g, hg, hge⟩ := Checks.run_eq_error hrun
      obtain ⟨s, hs, rfl⟩ := List.mem_map.mp hg
      obtain ⟨e, rfl, hk⟩ := (h.category s hs).exists_reject hge
      refine ⟨e, ?_, List.mem_singleton.mp hk⟩
      rw [List.map_append, Checks.run_append, hrun]
      rfl

end Decides

namespace Stage

/-- The stages that establish trust in the chains and the CRLs. -/
def trust : List Stage :=
  [.formats, .pem .tcbInfoIssuer, .pem .pckCrlIssuer, .pem .qeIdentityIssuer, .pem .quotePck,
    .der .tcbInfoIssuer, .der .pckCrlIssuer, .der .qeIdentityIssuer, .der .quotePck,
    .path .tcbInfoIssuer, .path .pckCrlIssuer, .path .qeIdentityIssuer, .path .quotePck,
    .signingLeaf .tcbInfo, .signingLeaf .qeIdentity, .crlScope, .rootCrl, .pckCrl, .noneRevoked]

/-- The stages that judge the TCB info as a document. -/
def tcbInfoStages : List Stage :=
  [.signature .tcbInfo, .tcbInfoId, .validityWindow .tcbInfo, .evaluationRound .tcbInfo]

/-- The stages that judge the QE identity as a document. -/
def qeIdentityStages : List Stage :=
  [.signature .qeIdentity, .validityWindow .qeIdentity, .evaluationRound .qeIdentity]

/-- The stages that judge the evidence of the quote. -/
def evidence : List Stage := [.qeIdentity, .qeReportSignature, .qeBinding, .quoteSignature, .debug]

theorem order_segments : order =
    [.qeVendor, .mrenclave] ++ (trust ++ (tcbInfoStages ++ (qeIdentityStages ++ evidence))) := rfl

end Stage

/-! ## What is wrong with the parameters -/

namespace Input

/-- The same evidence under other parameters. -/
def under (i : Input) (currentTime : SystemTime) (expectedMrenclave : MREnclave)
    (minTcbEvaluationDataNumber : UInt32) : Input :=
  { i with currentTime, expectedMrenclave, minTcbEvaluationDataNumber }

/-- The windows of the certificates and the CRLs. -/
def trustWindows (C : Crates) (i : Input) : List (Window Int) :=
  (i.chains C).flatMap (fun chain => chain.certs.map X509Certificate.window) ++ i.crlWindows C

/-- The document is in force and of a round that is recent enough. -/
def IsCurrent (i : Input) (doc : Document) : Prop :=
  (i.document doc).window.Contains i.now ∧
    i.minTcbEvaluationDataNumber ≤ (i.document doc).tcbEvaluationDataNumber

instance (i : Input) (doc : Document) : Decidable (i.IsCurrent doc) :=
  inferInstanceAs (Decidable (_ ∧ _))

/-- The first thing wrong with the parameters, in the order of the pipeline. -/
def complaint (C : Crates) (i : Input) : Option ErrorCategory :=
  if i.quote.reportBody.mrenclave ≠ i.expectedMrenclave then some .mrenclaveMismatch
  else if ¬ ∀ w ∈ i.trustWindows C, w.Contains i.now then some .certOrCrlTimeInvalid
  else if ¬ i.IsCurrent .tcbInfo then some .tcbInfoStale
  else if ¬ i.IsCurrent .qeIdentity then some .qeIdentityStale
  else none

section

variable {i : Input} {t : SystemTime} {m : MREnclave} {n : UInt32}

/-- Other parameters are all that differs. -/
theorem agreeOutside_under : AgreeOutside [.clock, .pin, .floor] i (i.under t m n) := by
  intro p hp
  cases p with
  | clock | pin | floor => exact absurd (by decide) hp
  | document doc => cases doc <;> rfl
  | chainText kind => cases kind <;> rfl
  | _ => rfl

/-- A stage that reads none of the parameters passes under any. -/
theorem check_under (h : Authenticated C i) {s : Stage} (hs : s ≠ .debug)
    (hignore : s.Ignores [.clock, .pin, .floor]) : Stage.check C s (i.under t m n) = .ok () :=
  (agreeOutside_under.check hignore).symm.trans (Stage.authenticated_iff.mpr h s hs)

/-- At any time, what is revoked is what the two CRLs list or less. -/
theorem revoked_under {crl₁ crl₂ : CertificateRevocationList} (h₁ : RootCrl C i crl₁)
    (h₂ : PckCrl C i crl₂) : (i.under t m n).revoked C ⊆ crl₁.entries C ++ crl₂.entries C := by
  refine List.append_subset.mpr ⟨?_, ?_⟩
  · refine List.subset_append_of_subset_left _ ?_
    cases hroot : (i.under t m n).checkRootCrl C with
    | error f => exact List.nil_subset _
    | ok entries =>
        obtain ⟨crl, hcrl, rfl⟩ := checkRootCrl_eq_ok.mp hroot
        rw [Except.ok.inj (hcrl.decoded.symm.trans h₁.decoded)]
        exact List.Subset.refl _
  · refine List.subset_append_of_subset_right _ ?_
    cases hpck : (i.under t m n).checkPckCrl C with
    | error f => exact List.nil_subset _
    | ok entries =>
        obtain ⟨crl, hcrl, rfl⟩ := checkPckCrl_eq_ok.mp hpck
        rw [Except.ok.inj (hcrl.decoded.symm.trans h₂.decoded)]
        exact List.Subset.refl _

theorem noneRevoked_under (h : Authenticated C i) :
    Stage.check C .noneRevoked (i.under t m n) = .ok () := by
  obtain ⟨crl₁, h₁⟩ := h.rootCrl
  obtain ⟨crl₂, h₂⟩ := h.pckCrl
  have hnone : ensureNoneRevoked C (i.chains C) (i.revoked C) = .ok () :=
    Stage.authenticated_iff.mpr h .noneRevoked (by decide)
  rw [revoked_eq h₁ h₂, ensureNoneRevoked_eq_ok] at hnone
  exact (ensureNoneRevoked_eq_ok C).mpr fun chain hchain cert hcert hmem =>
    hnone chain hchain cert hcert (revoked_under h₁ h₂ hmem)

theorem rootCrl_under_rejectsIn (h : Authenticated C i) :
    RejectsIn [.certOrCrlTimeInvalid] (Stage.check C .rootCrl (i.under t m n)) := by
  obtain ⟨crl, hcrl⟩ := h.rootCrl
  obtain ⟨key, root, hkey, hroot, hvalid⟩ := hcrl.valid
  refine .bind ?_ fun _ _ => .ok _
  have hsubject : (i.chain C .quotePck).rootSubjectRaw = .ok root.subject.asRaw := by
    rw [ParsedChain.rootSubjectRaw, ParsedChain.root_eq_ok.mpr hroot]
    rfl
  have hchain : (i.under t m n).chain C .quotePck = i.chain C .quotePck := rfl
  rw [checkRootCrl, hkey, Checks.ok_bind, hchain, hsubject, Checks.ok_bind]
  exact checkCrl_rejectsIn_time hcrl.decoded hvalid _

theorem pckCrl_under_rejectsIn (h : Authenticated C i) :
    RejectsIn [.certOrCrlTimeInvalid] (Stage.check C .pckCrl (i.under t m n)) := by
  obtain ⟨crl, hcrl⟩ := h.pckCrl
  obtain ⟨leaf, crlLeaf, key, hleaf, hcrlLeaf, hkey, hvalid⟩ := hcrl.valid
  refine .bind ?_ fun _ _ => .ok _
  have hissuer : (i.chain C .quotePck).leafIssuerRaw = .ok leaf.issuer.asRaw := by
    rw [ParsedChain.leafIssuerRaw, ParsedChain.leaf_eq_ok.mpr hleaf]
    rfl
  have hverifying : (i.chain C .pckCrlIssuer).leafVerifyingKey C = .ok key :=
    (leafVerifyingKey_eq_ok C).mpr ⟨crlLeaf, hcrlLeaf, hkey⟩
  have hchain (kind : ChainKind) : (i.under t m n).chain C kind = i.chain C kind := rfl
  rw [checkPckCrl, hchain, hchain, hissuer, Checks.ok_bind, hverifying, Checks.ok_bind]
  exact checkCrl_rejectsIn_time hcrl.decoded hvalid _

/-- The trust windows of an authenticated input, item by item. -/
theorem forall_trustWindows {crl₁ crl₂ : CertificateRevocationList} (h₁ : RootCrl C i crl₁)
    (h₂ : PckCrl C i crl₂) {now : Int} : (∀ w ∈ i.trustWindows C, w.Contains now) ↔
      (∀ kind, ∀ cert ∈ (i.chain C kind).certs, cert.window.Contains now) ∧
        crl₁.window.Contains now ∧ crl₂.window.Contains now := by
  have hcrls : i.crlWindows C = [crl₁.window, crl₂.window] := by
    rw [crlWindows, h₁.decoded, h₂.decoded]
    rfl
  rw [trustWindows, List.forall_mem_append, hcrls, List.forall_mem_cons, List.forall_mem_singleton]
  refine and_congr_left fun _ => ?_
  simp only [List.forall_mem_flatMap, List.forall_mem_map]
  refine ⟨fun h kind => h _ (by cases kind <;> simp [chains]), fun h chain hchain => ?_⟩
  simp only [chains, List.mem_cons, List.not_mem_nil, or_false] at hchain
  rcases hchain with rfl | rfl | rfl | rfl <;> exact h _

end

/-! ## The four segments -/

section

variable {i : Input} (t : SystemTime) (m : MREnclave) (n : UInt32)

theorem pin_decides (h : Authenticated C i) :
    Decides C (i.under t m n) [.qeVendor, .mrenclave] .mrenclaveMismatch
      (i.quote.reportBody.mrenclave = m) := by
  have hvendor : Stage.check C .qeVendor (i.under t m n) = .ok () :=
    check_under h (by decide) (by decide)
  refine ⟨?_, ?_⟩
  · rw [List.forall_mem_cons, List.forall_mem_singleton]
    exact ⟨.of_ok hvendor, checkMrenclave_rejectsIn C _ _⟩
  · rw [List.forall_mem_cons, List.forall_mem_singleton, and_iff_right hvendor]
    exact checkMrenclave_eq_ok C

theorem trust_decides (h : Authenticated C i) :
    Decides C (i.under t m n) Stage.trust .certOrCrlTimeInvalid
      (∀ w ∈ i.trustWindows C, w.Contains (unixSeconds t)) := by
  obtain ⟨crl₁, h₁⟩ := h.rootCrl
  obtain ⟨crl₂, h₂⟩ := h.pckCrl
  -- the stages that look at the clock, each with the windows it looks at
  have hpath (kind : ChainKind) : Stage.check C (.path kind) (i.under t m n) = .ok () ↔
      ∀ cert ∈ (i.chain C kind).certs, cert.window.Contains (unixSeconds t) :=
    ParsedChain.validate_eq_ok.trans (and_iff_right (h.paths kind))
  have hroot : Stage.check C .rootCrl (i.under t m n) = .ok () ↔
      crl₁.window.Contains (unixSeconds t) := by
    rw [rootCrl_passes]
    refine ⟨fun h => ?_, fun hwindow => ⟨crl₁, h₁.decoded, h₁.valid, hwindow⟩⟩
    obtain ⟨crl, hcrl⟩ := h
    rw [← Except.ok.inj (hcrl.decoded.symm.trans h₁.decoded)]
    exact hcrl.window
  have hpck : Stage.check C .pckCrl (i.under t m n) = .ok () ↔
      crl₂.window.Contains (unixSeconds t) := by
    rw [pckCrl_passes]
    refine ⟨fun h => ?_, fun hwindow => ⟨crl₂, h₂.decoded, h₂.valid, hwindow⟩⟩
    obtain ⟨crl, hcrl⟩ := h
    rw [← Except.ok.inj (hcrl.decoded.symm.trans h₂.decoded)]
    exact hcrl.window
  have hrest (s : Stage) (hs : s ≠ .debug) (hignore : s.Ignores [.clock, .pin, .floor])
      {P : Prop} : RejectsIn [.certOrCrlTimeInvalid] (Stage.check C s (i.under t m n)) ∧
        (P → Stage.check C s (i.under t m n) = .ok ()) :=
    ⟨.of_ok (check_under h hs hignore), fun _ => check_under h hs hignore⟩
  have hstage : ∀ s ∈ Stage.trust,
      RejectsIn [.certOrCrlTimeInvalid] (Stage.check C s (i.under t m n)) ∧
        ((∀ w ∈ i.trustWindows C, w.Contains (unixSeconds t)) →
          Stage.check C s (i.under t m n) = .ok ()) := by
    rw [forall_trustWindows h₁ h₂]
    intro s hs
    cases s with
    | path kind =>
        exact ⟨validate_rejectsIn_time (h.paths kind) _, fun hw => (hpath kind).mpr (hw.1 kind)⟩
    | rootCrl => exact ⟨rootCrl_under_rejectsIn h, fun hw => hroot.mpr hw.2.1⟩
    | pckCrl => exact ⟨pckCrl_under_rejectsIn h, fun hw => hpck.mpr hw.2.2⟩
    | noneRevoked => exact ⟨.of_ok (noneRevoked_under h), fun _ => noneRevoked_under h⟩
    | formats | crlScope => exact hrest _ (by decide) (by decide)
    | pem kind | der kind => exact hrest _ (by simp) (by cases kind <;> decide)
    | signingLeaf doc => exact hrest _ (by simp) (by cases doc <;> decide)
    | signature doc | validityWindow doc | evaluationRound doc =>
        exact absurd hs (by cases doc <;> decide)
    | _ => exact absurd hs (by decide)
  refine ⟨fun s hs => (hstage s hs).1, fun hpass => ?_, fun hw s hs => (hstage s hs).2 hw⟩
  exact (forall_trustWindows h₁ h₂).mpr
    ⟨fun kind => (hpath kind).mp (hpass _ (by cases kind <;> decide)),
      hroot.mp (hpass _ (by decide)), hpck.mp (hpass _ (by decide))⟩

/-- The stages of a document that look at the parameters. -/
theorem document_decides (h : Authenticated C i) {doc : Document} {stages : List Stage}
    (hmem : ∀ s ∈ stages, s ≠ .debug ∧ (s.Ignores [.clock, .pin, .floor] ∨
      s = .validityWindow doc ∨ s = .evaluationRound doc))
    (hwindow : .validityWindow doc ∈ stages) (hround : .evaluationRound doc ∈ stages) :
    Decides C (i.under t m n) stages doc.stale ((i.under t m n).IsCurrent doc) := by
  have hdoc : (i.under t m n).document doc = i.document doc := by cases doc <;> rfl
  refine ⟨fun s hs => ?_, fun hpass => ?_, fun hcurrent s hs => ?_⟩
  · obtain ⟨hdebug, hignore | rfl | rfl⟩ := hmem s hs
    · exact .of_ok (check_under h hdebug hignore)
    · exact checkValidityWindow_rejectsIn _ _ _ _ _
    · exact checkEvaluationRound_rejectsIn _ _ _ _
  · exact ⟨checkValidityWindow_eq_ok.mp (hpass _ hwindow),
      checkEvaluationRound_eq_ok.mp (hpass _ hround)⟩
  · obtain ⟨hdebug, hignore | rfl | rfl⟩ := hmem s hs
    · exact check_under h hdebug hignore
    · exact checkValidityWindow_eq_ok.mpr hcurrent.1
    · exact checkEvaluationRound_eq_ok.mpr hcurrent.2

/-- Of authenticated evidence only the evidence stages are left to run. -/
theorem runAll_of_authenticated (h : Authenticated C i) :
    Stage.runAll C i = Checks.run (Stage.evidence.map (Stage.check C)) i := by
  have hsplit : Stage.order = ([.qeVendor, .mrenclave] ++ Stage.trust ++ Stage.tcbInfoStages ++
      Stage.qeIdentityStages) ++ Stage.evidence := rfl
  have hdebug : ∀ s ∈ [.qeVendor, .mrenclave] ++ Stage.trust ++ Stage.tcbInfoStages ++
      Stage.qeIdentityStages, s ≠ .debug := by decide
  rw [Stage.runAll, hsplit, List.map_append, Checks.run_append, Checks.run_eq_ok.mpr
    (List.forall_mem_map.mpr fun s hs => Stage.authenticated_iff.mpr h s (hdebug s hs)),
    Checks.ok_bind]

/-- A run whose stages stop on the complaint. -/
theorem verdict_of_complaint {j : Input} {k : ErrorCategory} (hc : j.complaint C = some k)
    (hrun : ∃ e, Stage.runAll C j = .error (.reject e) ∧ e.category = k) :
    (∀ k, j.complaint C = some k → ∃ e, j.verify C = .error (.reject e) ∧ e.category = k) ∧
      (j.complaint C = none → j.verify C = i.verify C) := by
  obtain ⟨e, he, hk⟩ := hrun
  refine ⟨fun k' hc' => ⟨e, by rw [verify_eq, he]; rfl, ?_⟩, fun hnone => ?_⟩
  · rw [hk]
    exact Option.some.inj (hc.symm.trans hc')
  · rw [hc] at hnone
    cases hnone

/-- **The parameters decide**: the complaint about them, or else the evidence's own verdict. -/
theorem verify_under (h : Authenticated C i) :
    (∀ k, (i.under t m n).complaint C = some k →
      ∃ e, (i.under t m n).verify C = .error (.reject e) ∧ e.category = k) ∧
    ((i.under t m n).complaint C = none → (i.under t m n).verify C = i.verify C) := by
  have hpin := pin_decides t m n h
  have htrust := trust_decides t m n h
  have htcb : Decides C (i.under t m n) Stage.tcbInfoStages Document.tcbInfo.stale
      ((i.under t m n).IsCurrent .tcbInfo) :=
    document_decides t m n h (by decide) (by decide) (by decide)
  have hqe : Decides C (i.under t m n) Stage.qeIdentityStages Document.qeIdentity.stale
      ((i.under t m n).IsCurrent .qeIdentity) :=
    document_decides t m n h (by decide) (by decide) (by decide)
  have hcomplaint : (i.under t m n).complaint C =
      if i.quote.reportBody.mrenclave ≠ m then some .mrenclaveMismatch
      else if ¬ ∀ w ∈ i.trustWindows C, w.Contains (unixSeconds t) then some .certOrCrlTimeInvalid
      else if ¬ (i.under t m n).IsCurrent .tcbInfo then some .tcbInfoStale
      else if ¬ (i.under t m n).IsCurrent .qeIdentity then some .qeIdentityStale
      else none := rfl
  by_cases h₁ : i.quote.reportBody.mrenclave = m
  · rw [if_neg (not_not.mpr h₁)] at hcomplaint
    by_cases h₂ : ∀ w ∈ i.trustWindows C, w.Contains (unixSeconds t)
    · rw [if_neg (not_not.mpr h₂)] at hcomplaint
      by_cases h₃ : (i.under t m n).IsCurrent .tcbInfo
      · rw [if_neg (not_not.mpr h₃)] at hcomplaint
        by_cases h₄ : (i.under t m n).IsCurrent .qeIdentity
        · rw [if_neg (not_not.mpr h₄)] at hcomplaint
          have hevidence : Checks.run (Stage.evidence.map (Stage.check C)) (i.under t m n) =
              Checks.run (Stage.evidence.map (Stage.check C)) i := by
            have hignore : ∀ s ∈ Stage.evidence, s.Ignores [.clock, .pin, .floor] := by decide
            exact Checks.run_congr (List.forall_mem_map.mpr fun s hs =>
              (agreeOutside_under.check (hignore s hs)).symm)
          refine ⟨fun k hk => ?_, fun _ => ?_⟩
          · rw [hcomplaint] at hk
            cases hk
          · rw [verify_eq, verify_eq, Stage.runAll, Stage.order_segments, hpin.skip h₁,
              htrust.skip h₂, htcb.skip h₃, hqe.skip h₄, hevidence, runAll_of_authenticated h]
            rfl
        · rw [if_pos h₄] at hcomplaint
          refine verdict_of_complaint hcomplaint ?_
          rw [Stage.runAll, Stage.order_segments, hpin.skip h₁, htrust.skip h₂, htcb.skip h₃]
          exact hqe.stop h₄ _
      · rw [if_pos h₃] at hcomplaint
        refine verdict_of_complaint hcomplaint ?_
        rw [Stage.runAll, Stage.order_segments, hpin.skip h₁, htrust.skip h₂]
        exact htcb.stop h₃ _
    · rw [if_pos h₂] at hcomplaint
      refine verdict_of_complaint hcomplaint ?_
      rw [Stage.runAll, Stage.order_segments, hpin.skip h₁]
      exact htrust.stop h₂ _
  · rw [if_pos h₁] at hcomplaint
    refine verdict_of_complaint hcomplaint ?_
    rw [Stage.runAll, Stage.order_segments]
    exact hpin.stop h₁ _

end

end Input

/--
**The parameters decide the outcome.**

Take evidence that is accepted under some parameters, or rejected only because its
enclave is in debug mode. Under any other time, measurement and policy it is
rejected in the category of the complaint about them. If there is no complaint its
outcome is the one it had, judged by the policy.
-/
theorem parameters_decide {currentTime : SystemTime} {collateral : SgxCollateral}
    {quote : SgxQuote} {expectedMrenclave : MREnclave} {minTcbEvaluationDataNumber : UInt32}
    (hbase : (∃ r, verifyRemoteAttestation C currentTime collateral quote expectedMrenclave
        minTcbEvaluationDataNumber = .ok r) ∨
      ∃ e, verifyRemoteAttestation C currentTime collateral quote expectedMrenclave
        minTcbEvaluationDataNumber = .error (.reject e) ∧ e.category = .debugEnclaveRejected)
    (t : SystemTime) (m : MREnclave) (policy : TcbPolicy) :
    (∀ k, Input.complaint C ⟨t, collateral, quote, m, policy.minTcbEvaluationDataNumber⟩ = some k →
      ∃ e, verifyRemoteAttestationWithPolicy C t collateral quote m policy = .error (.reject e) ∧
        e.category = k) ∧
    (Input.complaint C ⟨t, collateral, quote, m, policy.minTcbEvaluationDataNumber⟩ = none →
      verifyRemoteAttestationWithPolicy C t collateral quote m policy =
        verifyRemoteAttestation C currentTime collateral quote expectedMrenclave
          minTcbEvaluationDataNumber >>= fun r => policy.check r.1 >>= fun _ => .ok r) := by
  let i : Input := ⟨currentTime, collateral, quote, expectedMrenclave, minTcbEvaluationDataNumber⟩
  have hauth : Authenticated C i := by
    rcases hbase with ⟨r, hr⟩ | ⟨e, he, hk⟩
    · exact (Input.verify_eq_ok_iff (i := i).mp hr).1
    · exact Stage.authenticated_iff.mp (Input.passes_of_debug (i := i) he hk).1
  obtain ⟨hcomplaint, hnone⟩ := Input.verify_under t m policy.minTcbEvaluationDataNumber hauth
  -- the policy only looks at what comes out
  have hpolicy : verifyRemoteAttestationWithPolicy C t collateral quote m policy =
      ((i.under t m policy.minTcbEvaluationDataNumber).verify C >>= fun r =>
        policy.check r.1 >>= fun _ => .ok r) := rfl
  refine ⟨fun k hk => ?_, fun h => ?_⟩
  · obtain ⟨e, he, hcategory⟩ := hcomplaint k hk
    exact ⟨e, by rw [hpolicy, he]; rfl, hcategory⟩
  · rw [hpolicy, hnone h]
    rfl

section

open Synthetic

/-- Honest evidence, a second after the certificates have expired. -/
theorem expired_evidence_rejected :
    ∃ e, verifyRemoteAttestationWithPolicy (crates (registry "UpToDate"))
      ⟨2001 * 10 ^ 9, by decide⟩ (collateral "UpToDate") (quote 5 pckChain) mrenclave
      ⟨17, false, false⟩ = .error (.reject e) ∧ e.category = .certOrCrlTimeInvalid :=
  (parameters_decide (.inl ⟨_, honest_accepted⟩) _ _ _).1 _ (by decide +kernel)

end

end DcapVerify
