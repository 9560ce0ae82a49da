import DcapVerify.Proof.Acceptance
import DcapVerify.Synthetic

/-!
# Categories blame the right party

Some categories blame the collateral and some the quote. If an input has been
accepted, then another input sharing the collateral is never rejected in a category
that blames the collateral, and another sharing the quote never in one that blames
the quote.

Both are instances of one rule: the run on the second input fails at a stage the
first passed, so it suffices to look at each stage on its own. Either the stage
reads only what is shared, or its categories blame neither. Two stages need more,
because they read both parties: matching the QE report against the identity, and
judging the platform. They decode the identity's and the TCB info's hex fields, and
only that decoding blames the collateral.
-/

namespace DcapVerify

variable (C : Crates)

/-- The categories that blame the collateral. -/
def collateralCategories : List ErrorCategory :=
  [.collateralParse, .tcbInfoSignatureInvalid, .tcbInfoStale, .qeIdentitySignatureInvalid,
    .qeIdentityStale]

/-- The categories that blame the quote. -/
def quoteCategories : List ErrorCategory :=
  [.quoteParse, .qeVendorInvalid, .mrenclaveMismatch, .qeReportSignatureInvalid, .qeBindingInvalid,
    .quoteSignatureInvalid, .debugEnclaveRejected]

/-- A rejection in one of the categories. -/
def Fault.In (S : List ErrorCategory) (f : Fault) : Prop := ∃ k ∈ S, f.category? = some k

namespace Input

/-- Same collateral, time and floor. -/
structure SameCollateral (i j : Input) : Prop where
  collateral : j.collateral = i.collateral
  currentTime : j.currentTime = i.currentTime
  floor : j.minTcbEvaluationDataNumber = i.minTcbEvaluationDataNumber

/-- Same quote, time and pin. -/
structure SameQuote (i j : Input) : Prop where
  quote : j.quote = i.quote
  currentTime : j.currentTime = i.currentTime
  mrenclave : j.expectedMrenclave = i.expectedMrenclave

variable {i j : Input}

theorem chain_congr {kind : ChainKind} (h : j.chainPem kind = i.chainPem kind) :
    j.chain C kind = i.chain C kind := by
  rw [chain, chain, h]

theorem SameCollateral.chainPem (h : SameCollateral i j) {kind : ChainKind}
    (hk : kind ≠ .quotePck) : j.chainPem kind = i.chainPem kind := by
  cases kind with
  | quotePck => exact absurd rfl hk
  | _ => simp only [Input.chainPem, h.collateral]

theorem SameCollateral.document (h : SameCollateral i j) (doc : Document) :
    j.document doc = i.document doc := by
  cases doc <;> simp only [Input.document, h.collateral]

theorem SameCollateral.now (h : SameCollateral i j) : j.now = i.now := by
  rw [Input.now, Input.now, h.currentTime]

theorem SameQuote.chainPem (h : SameQuote i j) : j.chainPem .quotePck = i.chainPem .quotePck := by
  simp only [Input.chainPem, h.quote]

end Input

/-- A stage none of whose categories is in `S` blames nobody with `S`. -/
theorem Stage.blameless_of_disjoint {R : Input → Input → Prop} {S : List ErrorCategory} {s : Stage}
    (h : ∀ k ∈ s.categories, k ∉ S) : Checks.Blameless R (Fault.In S) (Stage.check C s) :=
  Checks.Blameless.of_raises fun j f hf ⟨k, hk, hfk⟩ =>
    h k (Stage.check_rejectsOnly C s j f hf k hfk) hk

/-- An outcome whose rejections are elsewhere is not a rejection in `S`. -/
theorem RejectsOnly.not_in {α : Type} {S T : List ErrorCategory} {m : Outcome α}
    (h : RejectsOnly T m) (hd : ∀ k ∈ T, k ∉ S) : Checks.Raises (fun f => ¬ Fault.In S f) m :=
  fun f hf ⟨k, hk, hfk⟩ => hd k (h f hf k hfk) hk

/-! ## Blaming the collateral -/

section

open Input

/-- Once every hex field of an identity decodes, no report makes matching blame the identity. -/
theorem checkQeIdentity_blameless {identity : QeIdentity} {report : SgxReportBody}
    (h : checkQeIdentity C identity report = .ok ()) (report' : SgxReportBody) :
    RejectsIn [.qeIdentityMismatch] (checkQeIdentity C identity report') := by
  have hm := (checkQeIdentity_eq_ok C).mp h
  obtain ⟨misc, miscMask, h₁, h₂, _⟩ := hm.miscselect
  obtain ⟨attr, attrMask, h₃, h₄, _⟩ := hm.attributes
  simp only [checkQeIdentity, (decodeHexField_eq_ok C).mpr hm.mrsigner,
    (decodeHexField_eq_ok C).mpr h₁, (decodeHexField_eq_ok C).mpr h₂,
    (decodeHexField_eq_ok C).mpr h₃, (decodeHexField_eq_ok C).mpr h₄, Checks.ok_bind]
  refine .bind (.rejectIf (by simp)) fun _ _ => .bind (.rejectIf (by simp)) fun _ _ =>
    .bind (.rejectIf (by simp)) fun _ _ => .bind (.rejectIf (by simp)) fun _ _ =>
    .bind (.rejectIf (by simp)) fun _ _ => ?_
  split
  · exact .rejectIf (by simp)
  · exact .reject (by simp)

/-- Once a TCB info's hex fields decode, no platform makes judging it blame the TCB info. -/
theorem platformStanding_blameless {info : TcbInfo} {pck : PckPlatformTcb} {standing : TcbStanding}
    (h : platformStanding C info pck = .ok standing) (pck' : PckPlatformTcb) :
    RejectsIn [.tcbLevelUnsupported] (platformStanding C info pck') := by
  have hj := (platformStanding_eq_ok C).mp h
  simp only [platformStanding, (decodeHexField_eq_ok C).mpr hj.fmspc,
    (decodeHexField_eq_ok C).mpr hj.pceId, Checks.ok_bind]
  exact .bind (.rejectIf (by simp)) fun _ _ => .bind (.rejectIf (by simp)) fun _ _ =>
    .bind (.okOrReject (by simp)) fun level _ => statusStanding_rejectsIn level

/-- No stage blames the collateral on an input whose collateral it has passed. -/
theorem Stage.blameless_collateral (s : Stage) :
    Checks.Blameless SameCollateral (Fault.In collateralCategories) (Stage.check C s) := by
  have hreads {s : Stage} (h : ∀ i j, SameCollateral i j → Stage.check C s j = Stage.check C s i) :
      Checks.Blameless SameCollateral (Fault.In collateralCategories) (Stage.check C s) :=
    Checks.Blameless.of_reads h
  cases s with
  | formats | tcbInfoId => exact hreads fun i j h => by simp only [Stage.check, h.collateral]
  | pem kind =>
      by_cases hk : kind = .quotePck
      · exact Stage.blameless_of_disjoint C (by subst hk; decide)
      · exact hreads fun i j h => by simp only [Stage.check, h.chainPem hk]
  | der kind =>
      by_cases hk : kind = .quotePck
      · exact Stage.blameless_of_disjoint C (by subst hk; decide)
      · exact hreads fun i j h => by simp only [Stage.check, h.chainPem hk]
  | signingLeaf doc =>
      refine hreads fun i j h => ?_
      have hk : doc.chainKind ≠ .quotePck := by cases doc <;> decide
      simp only [Stage.check, chain_congr C (h.chainPem hk)]
  | signature doc =>
      refine hreads fun i j h => ?_
      have hk : doc.chainKind ≠ .quotePck := by cases doc <;> decide
      simp only [Stage.check, chain_congr C (h.chainPem hk), h.document]
  | validityWindow doc => exact hreads fun i j h => by simp only [Stage.check, h.document, h.now]
  | evaluationRound doc => exact hreads fun i j h => by simp only [Stage.check, h.document, h.floor]
  | qeIdentity =>
      intro i j h hi
      have hcheck := (checkQeIdentity_blameless C hi j.quote.signature.qeReport).only
      rw [← h.collateral] at hcheck
      exact hcheck.not_in (by decide)
  | _ => exact Stage.blameless_of_disjoint C (by simp only [Stage.categories]; decide)

/-- An accepted collateral is never blamed, whatever quote and pin come with it. -/
theorem Input.verify_blameless_collateral {i j : Input} {r : TcbStanding × SgxReportBody}
    (hij : SameCollateral i j) (h : i.verify C = .ok r) :
    Checks.Raises (fun f => ¬ Fault.In collateralCategories f) (j.verify C) := by
  obtain ⟨hpass, hresult⟩ := verify_eq_ok.mp h
  obtain ⟨tcb, _, hj, _⟩ := result_eq_ok.mp hresult
  have hgates : ∀ g ∈ Stage.order.map (Stage.check C),
      Checks.Blameless SameCollateral (Fault.In collateralCategories) g :=
    List.forall_mem_map.mpr fun s _ => Stage.blameless_collateral C s
  rw [verify_eq]
  -- past the stages only the verdict is left, which reads the extension and the hex fields
  refine Checks.Raises.bind
    (Checks.run_blameless hgates i j hij (Stage.runAll_eq_ok.mpr hpass)) fun _ hall => ?_
  have hne := (loadChain_eq_ok C (Stage.der_passes.mp
    (Stage.runAll_eq_ok.mp hall (.der .quotePck)))).2.1
  refine Checks.Raises.bind ((extractPckPlatformTcb_rejectsIn C hne).only.not_in (by decide))
    fun tcb' _ => ?_
  have hplatform := platformStanding_blameless C ((platformStanding_eq_ok C).mpr hj) tcb'
  rw [← hij.collateral] at hplatform
  exact Checks.Raises.bind (hplatform.only.not_in (by decide)) fun _ _ => Checks.Raises.ok _

/-! ## Blaming the quote -/

/-- No stage blames the quote on an input whose quote it has passed. -/
theorem Stage.blameless_quote (s : Stage) :
    Checks.Blameless SameQuote (Fault.In quoteCategories) (Stage.check C s) := by
  have hreads {s : Stage} (h : ∀ i j, SameQuote i j → Stage.check C s j = Stage.check C s i) :
      Checks.Blameless SameQuote (Fault.In quoteCategories) (Stage.check C s) :=
    Checks.Blameless.of_reads h
  cases s with
  | qeVendor | qeBinding | quoteSignature | debug =>
      exact hreads fun i j h => by simp only [Stage.check, h.quote]
  | mrenclave => exact hreads fun i j h => by simp only [Stage.check, h.quote, h.mrenclave]
  | pem kind | der kind =>
      by_cases hk : kind = .quotePck
      · subst hk
        exact hreads fun i j h => by simp only [Stage.check, h.chainPem]
      · refine Stage.blameless_of_disjoint C ?_
        cases kind with
        | quotePck => exact absurd rfl hk
        | _ => decide
  | qeReportSignature =>
      exact hreads fun i j h => by simp only [Stage.check, chain_congr C h.chainPem, h.quote]
  | signingLeaf doc | signature doc | validityWindow doc | evaluationRound doc =>
      exact Stage.blameless_of_disjoint C (by cases doc <;> decide)
  | _ => exact Stage.blameless_of_disjoint C (by simp only [Stage.categories]; decide)

/-- An accepted quote is never blamed, whatever collateral and floor come with it. -/
theorem Input.verify_blameless_quote {i j : Input} {r : TcbStanding × SgxReportBody}
    (hij : SameQuote i j) (h : i.verify C = .ok r) :
    Checks.Raises (fun f => ¬ Fault.In quoteCategories f) (j.verify C) := by
  obtain ⟨hpass, hresult⟩ := verify_eq_ok.mp h
  obtain ⟨tcb, htcb, _, _⟩ := result_eq_ok.mp hresult
  have hgates : ∀ g ∈ Stage.order.map (Stage.check C),
      Checks.Blameless SameQuote (Fault.In quoteCategories) g :=
    List.forall_mem_map.mpr fun s _ => Stage.blameless_quote C s
  rw [verify_eq]
  refine Checks.Raises.bind
    (Checks.run_blameless hgates i j hij (Stage.runAll_eq_ok.mpr hpass)) fun _ _ => ?_
  -- the extension is the quote's, and it has been read before
  rw [result, chain_congr C hij.chainPem, htcb, Checks.ok_bind]
  exact Checks.Raises.bind ((platformStanding_rejectsIn C _ _).only.not_in (by decide))
    fun _ _ => Checks.Raises.ok _

end

/--
**Categories blame the right party.**

Collateral accepted with some quote is never blamed with another, at the same time
and floor; a quote accepted with some collateral is never blamed with another, at
the same time and pin.
-/
theorem blame_is_right (currentTime : SystemTime) :
    (∀ (collateral : SgxCollateral) (floor : UInt32) (quote₀ : SgxQuote) (mrenclave₀ : MREnclave) r,
      verifyRemoteAttestation C currentTime collateral quote₀ mrenclave₀ floor = .ok r →
      ∀ (quote : SgxQuote) (expectedMrenclave : MREnclave) (e : VerifyError),
        verifyRemoteAttestation C currentTime collateral quote expectedMrenclave floor =
          .error (.reject e) →
        e.category ∉ [ErrorCategory.collateralParse, .tcbInfoSignatureInvalid, .tcbInfoStale,
          .qeIdentitySignatureInvalid, .qeIdentityStale]) ∧
    ∀ (quote : SgxQuote) (expectedMrenclave : MREnclave) (collateral₀ : SgxCollateral)
        (floor₀ : UInt32) r,
      verifyRemoteAttestation C currentTime collateral₀ quote expectedMrenclave floor₀ = .ok r →
      ∀ (collateral : SgxCollateral) (floor : UInt32) (e : VerifyError),
        verifyRemoteAttestation C currentTime collateral quote expectedMrenclave floor =
          .error (.reject e) →
        e.category ∉ [ErrorCategory.quoteParse, .qeVendorInvalid, .mrenclaveMismatch,
          .qeReportSignatureInvalid, .qeBindingInvalid, .quoteSignatureInvalid,
          .debugEnclaveRejected] := by
  refine ⟨?_, ?_⟩
  · intro collateral floor quote₀ mrenclave₀ r h quote expectedMrenclave e he hk
    have hij : Input.SameCollateral ⟨currentTime, collateral, quote₀, mrenclave₀, floor⟩
        ⟨currentTime, collateral, quote, expectedMrenclave, floor⟩ := ⟨rfl, rfl, rfl⟩
    exact Input.verify_blameless_collateral C hij h _ he ⟨e.category, hk, rfl⟩
  · intro quote expectedMrenclave collateral₀ floor₀ r h collateral floor e he hk
    have hij : Input.SameQuote ⟨currentTime, collateral₀, quote, expectedMrenclave, floor₀⟩
        ⟨currentTime, collateral, quote, expectedMrenclave, floor⟩ := ⟨rfl, rfl, rfl⟩
    exact Input.verify_blameless_quote C hij h _ he ⟨e.category, hk, rfl⟩

section

open Synthetic

/-- Honest collateral is not blamed with a debug-mode quote, nor an honest quote with a floor that
its collateral does not reach. -/
theorem honest_not_blamed :
    (∃ e, verifyRemoteAttestation (crates (registry "UpToDate")) currentTime
        (collateral "UpToDate") (quote 7 pckChain) mrenclave 17 = .error (.reject e) ∧
      e.category ∉ [ErrorCategory.collateralParse, .tcbInfoSignatureInvalid, .tcbInfoStale,
        .qeIdentitySignatureInvalid, .qeIdentityStale]) ∧
    ∃ e, verifyRemoteAttestation (crates (registry "UpToDate")) currentTime
        (collateral "UpToDate") (quote 5 pckChain) mrenclave 18 = .error (.reject e) ∧
      e.category ∉ [ErrorCategory.quoteParse, .qeVendorInvalid, .mrenclaveMismatch,
        .qeReportSignatureInvalid, .qeBindingInvalid, .quoteSignatureInvalid,
        .debugEnclaveRejected] := by
  obtain ⟨hcollateral, hquote⟩ := blame_is_right (crates (registry "UpToDate")) currentTime
  exact ⟨⟨_, debug_rejected, hcollateral _ _ _ _ _ honest_accepted _ _ _ debug_rejected⟩,
    _, stale_rejected, hquote _ _ _ _ _ honest_accepted _ _ _ stale_rejected⟩

end

end DcapVerify
