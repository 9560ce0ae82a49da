import DcapVerify.Proof.Acceptance
import DcapVerify.Synthetic

/-!
# Policies restrict, and do nothing else

Policies are ordered by what they let through: a weaker one has a floor no higher
and accepts every standing the stronger one accepts. The floor is read by two
stages in the middle of the pipeline and the flags after its end. Everything else
is the same under any two policies, which is why weakening one never changes a
result and strengthening one only ever rejects for staleness or for the standing.
-/

namespace DcapVerify

namespace TcbPolicy

/-- The policy lets the standing through. -/
def Accepts (p : TcbPolicy) (standing : TcbStanding) : Prop := p.check standing = .ok ()

/-- `p ≤ p'`: whatever `p` demands, `p'` demands no more. -/
instance : Preorder TcbPolicy where
  le p p' := p'.minTcbEvaluationDataNumber ≤ p.minTcbEvaluationDataNumber ∧
    ∀ standing, p.Accepts standing → p'.Accepts standing
  le_refl p := ⟨UInt32.le_refl _, fun _ h => h⟩
  le_trans p q r hpq hqr :=
    ⟨UInt32.le_trans hqr.1 hpq.1, fun standing h => hqr.2 standing (hpq.2 standing h)⟩

theorem accepts_upToDate (p : TcbPolicy) : p.Accepts .upToDate := rfl

theorem accepts_swHardeningNeeded {p : TcbPolicy} {advisoryIds : List String} :
    p.Accepts (.swHardeningNeeded advisoryIds) ↔ p.acceptSwHardeningNeeded = true := by
  unfold Accepts check
  split <;> simp_all

theorem accepts_configurationAndSwHardeningNeeded {p : TcbPolicy} {advisoryIds : List String} :
    p.Accepts (.configurationAndSwHardeningNeeded advisoryIds) ↔
      p.acceptConfigurationAndSwHardeningNeeded = true := by
  unfold Accepts check
  split <;> simp_all

/-- The order, on the fields of a policy. -/
theorem le_iff {p p' : TcbPolicy} : p ≤ p' ↔
    p'.minTcbEvaluationDataNumber ≤ p.minTcbEvaluationDataNumber ∧
    (p.acceptSwHardeningNeeded = true → p'.acceptSwHardeningNeeded = true) ∧
    (p.acceptConfigurationAndSwHardeningNeeded = true →
      p'.acceptConfigurationAndSwHardeningNeeded = true) := by
  refine ⟨fun h => ?_, fun h => ?_⟩
  · obtain ⟨hfloor, h⟩ := h
    refine ⟨hfloor, fun hp => ?_, fun hp => ?_⟩
    · exact accepts_swHardeningNeeded.mp (h (.swHardeningNeeded [])
        (accepts_swHardeningNeeded.mpr hp))
    · exact accepts_configurationAndSwHardeningNeeded.mp
        (h (.configurationAndSwHardeningNeeded [])
          (accepts_configurationAndSwHardeningNeeded.mpr hp))
  · obtain ⟨hfloor, hsw, hconf⟩ := h
    refine ⟨hfloor, fun standing h => ?_⟩
    cases standing with
    | upToDate => exact accepts_upToDate p'
    | swHardeningNeeded ids =>
        exact accepts_swHardeningNeeded.mpr (hsw (accepts_swHardeningNeeded.mp h))
    | configurationAndSwHardeningNeeded ids =>
        exact accepts_configurationAndSwHardeningNeeded.mpr
          (hconf (accepts_configurationAndSwHardeningNeeded.mp h))

theorem check_rejectsIn (p : TcbPolicy) (standing : TcbStanding) :
    RejectsIn [.tcbStandingRejected] (p.check standing) := by
  unfold check
  split
  · exact .ok _
  all_goals
    split
    · exact .ok _
    · exact .reject (by simp [rejection])

end TcbPolicy

variable (C : Crates)

/-! ## The floor -/

namespace Input

/-- The same input under another floor. -/
def withFloor (i : Input) (floor : UInt32) : Input := { i with minTcbEvaluationDataNumber := floor }

end Input

/-- Only the evaluation-round stages read the floor. -/
theorem Stage.check_withFloor {s : Stage} (hs : ∀ doc, s ≠ .evaluationRound doc) (i : Input)
    (floor : UInt32) : Stage.check C s (i.withFloor floor) = Stage.check C s i := by
  cases s with
  | evaluationRound doc => exact absurd rfl (hs doc)
  | _ => rfl

variable {C} {i : Input} {r : TcbStanding × SgxReportBody}

/-- A stage that passes passes under a lower floor. -/
theorem Stage.check_lower_floor {floor : UInt32} {s : Stage}
    (hfloor : floor ≤ i.minTcbEvaluationDataNumber) (h : Stage.check C s i = .ok ()) :
    Stage.check C s (i.withFloor floor) = .ok () := by
  cases s with
  | evaluationRound doc =>
      exact checkEvaluationRound_eq_ok.mpr
        (UInt32.le_trans hfloor (checkEvaluationRound_eq_ok.mp h))
  | _ => exact (Stage.check_withFloor C (by simp) i floor).trans h

/-- So a lower floor keeps a result. -/
theorem Input.verify_lower_floor {floor : UInt32} (hfloor : floor ≤ i.minTcbEvaluationDataNumber)
    (h : i.verify C = .ok r) : (i.withFloor floor).verify C = .ok r := by
  rw [verify_eq_ok] at h ⊢
  exact ⟨fun s => Stage.check_lower_floor hfloor (h.1 s), h.2⟩

/-- An input accepted under one floor can only fail under another at an evaluation round. -/
theorem Input.verify_withFloor_error {floor : UInt32} {f : Fault} (h : i.verify C = .ok r)
    (hf : (i.withFloor floor).verify C = .error f) :
    ∃ e, f = .reject e ∧ e.category ∈ [ErrorCategory.tcbInfoStale, .qeIdentityStale] := by
  obtain ⟨hpass, hresult⟩ := verify_eq_ok.mp h
  rw [verify_eq, Checks.bind_eq_error] at hf
  rcases hf with hf | ⟨_, _, hf⟩
  · obtain ⟨s, hs⟩ := Stage.runAll_eq_error hf
    -- every other stage gives what it gave under the first floor, where it passed
    by_cases hround : ∃ doc, s = .evaluationRound doc
    · obtain ⟨doc, rfl⟩ := hround
      have hcat := (checkEvaluationRound_rejectsIn doc.name
        ((i.withFloor floor).document doc).tcbEvaluationDataNumber floor doc.stale).exists_reject hs
      obtain ⟨e, rfl, hstale⟩ := hcat
      rw [List.mem_singleton] at hstale
      exact ⟨e, rfl, by rw [hstale]; cases doc <;> simp [Document.stale]⟩
    · rw [Stage.check_withFloor C (fun doc hs => hround ⟨doc, hs⟩), hpass s] at hs
      cases hs
  · have hr : (i.withFloor floor).result C = .ok r := hresult
    rw [hr] at hf
    cases hf

/-! ## Verification under a policy -/

/-- Verification under a policy is verification at its floor, then its judgement. -/
theorem verifyWithPolicy_eq_ok {currentTime : SystemTime} {collateral : SgxCollateral}
    {quote : SgxQuote} {expectedMrenclave : MREnclave} {p : TcbPolicy} :
    verifyRemoteAttestationWithPolicy C currentTime collateral quote expectedMrenclave p = .ok r ↔
      verifyRemoteAttestation C currentTime collateral quote expectedMrenclave
        p.minTcbEvaluationDataNumber = .ok r ∧ p.Accepts r.1 := by
  obtain ⟨standing, body⟩ := r
  simp only [verifyRemoteAttestationWithPolicy, Checks.bind_eq_ok, Checks.pure_eq_ok, Prod.mk.injEq,
    TcbPolicy.Accepts]
  refine ⟨fun h => ?_, fun h => ?_⟩
  · obtain ⟨⟨_, _⟩, hv, _, hp, rfl, rfl⟩ := h
    exact ⟨hv, hp⟩
  · obtain ⟨hv, hp⟩ := h
    exact ⟨_, hv, (), hp, rfl, rfl⟩

/--
**Policy and floor only restrict, and never change a result.**

A policy is weaker when its floor is no higher and its flags are no stricter.
Verification under a policy is plain verification at its floor followed by its
judgement; a weaker policy accepts with the identical result; a stronger one
rejects for staleness or for the standing and nothing else; and no policy refuses
an up-to-date platform.
-/
theorem policy_only_restricts (currentTime : SystemTime) (collateral : SgxCollateral)
    (quote : SgxQuote) (expectedMrenclave : MREnclave) :
    (∀ p p' : TcbPolicy, p ≤ p' ↔
      p'.minTcbEvaluationDataNumber ≤ p.minTcbEvaluationDataNumber ∧
      (p.acceptSwHardeningNeeded = true → p'.acceptSwHardeningNeeded = true) ∧
      (p.acceptConfigurationAndSwHardeningNeeded = true →
        p'.acceptConfigurationAndSwHardeningNeeded = true)) ∧
    (∀ (p : TcbPolicy) r,
      verifyRemoteAttestationWithPolicy C currentTime collateral quote expectedMrenclave p = .ok r ↔
        verifyRemoteAttestation C currentTime collateral quote expectedMrenclave
          p.minTcbEvaluationDataNumber = .ok r ∧ p.check r.1 = .ok ()) ∧
    (∀ (p p' : TcbPolicy) r, p ≤ p' →
      verifyRemoteAttestationWithPolicy C currentTime collateral quote expectedMrenclave p = .ok r →
      verifyRemoteAttestationWithPolicy C currentTime collateral quote expectedMrenclave p' =
        .ok r) ∧
    (∀ (p p' : TcbPolicy) r f, p ≤ p' →
      verifyRemoteAttestationWithPolicy C currentTime collateral quote expectedMrenclave p' =
        .ok r →
      verifyRemoteAttestationWithPolicy C currentTime collateral quote expectedMrenclave p =
        .error f →
      ∃ e, f = .reject e ∧
        e.category ∈ [ErrorCategory.tcbInfoStale, .qeIdentityStale, .tcbStandingRejected]) ∧
    ∀ (p : TcbPolicy) body,
      verifyRemoteAttestation C currentTime collateral quote expectedMrenclave
        p.minTcbEvaluationDataNumber = .ok (.upToDate, body) →
      verifyRemoteAttestationWithPolicy C currentTime collateral quote expectedMrenclave p =
        .ok (.upToDate, body) := by
  let i (floor : UInt32) : Input := ⟨currentTime, collateral, quote, expectedMrenclave, floor⟩
  refine ⟨fun p p' => TcbPolicy.le_iff, fun p r => verifyWithPolicy_eq_ok, ?_, ?_, ?_⟩
  · intro p p' r hle h
    obtain ⟨hv, hp⟩ := verifyWithPolicy_eq_ok.mp h
    exact verifyWithPolicy_eq_ok.mpr
      ⟨Input.verify_lower_floor (i := i p.minTcbEvaluationDataNumber) hle.1 hv, hle.2 _ hp⟩
  · intro p p' r f _ h hf
    obtain ⟨hv, _⟩ := verifyWithPolicy_eq_ok.mp h
    -- either verification fails at the higher floor, or the policy refuses its result
    rcases Checks.bind_eq_error.mp hf with hf | ⟨r', hr', hf⟩
    · have hv : (i p'.minTcbEvaluationDataNumber).verify C = .ok r := hv
      have hf : ((i p'.minTcbEvaluationDataNumber).withFloor
          p.minTcbEvaluationDataNumber).verify C = .error f := hf
      obtain ⟨e, rfl, he⟩ := Input.verify_withFloor_error hv hf
      refine ⟨e, rfl, ?_⟩
      simp only [List.mem_cons, List.not_mem_nil, or_false] at he ⊢
      exact he.imp_right .inl
    · obtain ⟨standing, body⟩ := r'
      rcases Checks.bind_eq_error.mp hf with hf | ⟨_, _, hf⟩
      · obtain ⟨e, rfl, hstanding⟩ := (p.check_rejectsIn standing).exists_reject hf
        rw [List.mem_singleton] at hstanding
        exact ⟨e, rfl, by simp [hstanding]⟩
      · exact absurd hf Checks.pure_ne_error
  · intro p body h
    exact verifyWithPolicy_eq_ok.mpr ⟨h, p.accepts_upToDate⟩

section

open Synthetic

/-- A platform that needs hardening is accepted under a policy that tolerates that, and with a lower
floor as well. -/
theorem hardening_accepted_below :
    verifyRemoteAttestationWithPolicy (crates (registry "SWHardeningNeeded")) currentTime
      (collateral "SWHardeningNeeded") (quote 5 pckChain) mrenclave ⟨0, true, true⟩ =
        .ok (.swHardeningNeeded ["INTEL-SA-00615"], report 5 (zeros 64)) := by
  obtain ⟨hle, _, hweaker, _⟩ := policy_only_restricts (C := crates (registry "SWHardeningNeeded"))
    currentTime (collateral "SWHardeningNeeded") (quote 5 pckChain) mrenclave
  refine hweaker ⟨17, true, false⟩ ⟨0, true, true⟩ _ ((hle _ _).mpr ?_) (by decide +kernel)
  exact ⟨by decide, by decide, by decide⟩

end

end DcapVerify
