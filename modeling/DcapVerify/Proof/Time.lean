import DcapVerify.Proof.Acceptance
import DcapVerify.Synthetic

/-!
# Acceptance over time

Time enters the pipeline in three places: the certificates, the CRLs and the
documents. Each compares it with an inclusive lower and an exclusive upper end, so
with everything else fixed the times of acceptance are the common part of a list of
windows. The list is `Input.datedItems`. The verdict itself does not read the clock.
-/

namespace DcapVerify

/-! ## The clock -/

namespace SystemTime

instance : Preorder SystemTime where
  le t u := t.nanos ≤ u.nanos
  le_refl t := Int.le_refl t.nanos
  le_trans _ _ _ := Int.le_trans

theorem le_def {t u : SystemTime} : t ≤ u ↔ t.nanos ≤ u.nanos := Iff.rfl

end SystemTime

theorem i64Saturating_mono : Monotone i64Saturating := by
  intro a b hab
  unfold i64Saturating
  split <;> split <;> omega

theorem i64Saturating_nonneg (secs : Nat) : 0 ≤ i64Saturating secs := by
  unfold i64Saturating
  split <;> omega

/-- **The clock is monotone**, across the epoch, below the second and at saturation. -/
theorem unixSeconds_mono : Monotone unixSeconds := by
  intro t u h
  rw [SystemTime.le_def] at h
  unfold unixSeconds SystemTime.durationSinceEpoch
  by_cases ht : 0 ≤ t.nanos
  · have hu : 0 ≤ u.nanos := ht.trans h
    rw [if_pos ht, if_pos hu]
    exact i64Saturating_mono (Nat.div_le_div_right (by omega))
  · rw [if_neg ht]
    by_cases hu : 0 ≤ u.nanos
    · rw [if_pos hu]
      have h₁ := i64Saturating_nonneg (t.nanos.natAbs / 10 ^ 9)
      have h₂ := i64Saturating_nonneg (u.nanos.natAbs / 10 ^ 9)
      dsimp only
      omega
    · rw [if_neg hu]
      -- before the epoch the larger offset is the earlier time
      have hdiv := i64Saturating_mono
        (Nat.div_le_div_right (c := 10 ^ 9) (show u.nanos.natAbs ≤ t.nanos.natAbs by omega))
      dsimp only
      omega

variable (C : Crates)

namespace Input

/-! ## The dated items -/

/-- The windows of the two CRLs, where they decode. -/
def crlWindows (i : Input) : List (Window Int) :=
  ((decodeCrl C "root CA CRL" (asBytes i.collateral.rootCaCrl)).toOption.toList ++
    (decodeCrl C "PCK CRL" (asBytes i.collateral.pckCrl)).toOption.toList).map
      CertificateRevocationList.window

/-- The window of every dated item: each certificate of the four chains, both CRLs, and both
documents. -/
def datedItems (i : Input) : List (Window Int) :=
  (i.chains C).flatMap (fun chain => chain.certs.map X509Certificate.window) ++ i.crlWindows C ++
    [(i.document .tcbInfo).window, (i.document .qeIdentity).window]

/-- The same input, verified at another time. -/
def atTime (i : Input) (t : SystemTime) : Input := { i with currentTime := t }

variable {C} {i : Input}

/-- What it takes for every dated item to be in force, in a run whose CRLs decode. -/
theorem mem_common_datedItems {crl₁ crl₂ : CertificateRevocationList}
    (h₁ : decodeCrl C "root CA CRL" (asBytes i.collateral.rootCaCrl) = .ok crl₁)
    (h₂ : decodeCrl C "PCK CRL" (asBytes i.collateral.pckCrl) = .ok crl₂) {n : Int} :
    n ∈ Window.common (i.datedItems C) ↔
      (∀ kind, ∀ cert ∈ (i.chain C kind).certs, cert.window.Contains n) ∧
      crl₁.window.Contains n ∧ crl₂.window.Contains n ∧
      ∀ doc, (i.document doc).window.Contains n := by
  have hcrl : i.crlWindows C = [crl₁.window, crl₂.window] := by
    rw [crlWindows, h₁, h₂]; rfl
  have hchains : (∀ w ∈ (i.chains C).flatMap fun chain => chain.certs.map X509Certificate.window,
      w.Contains n) ↔ ∀ kind, ∀ cert ∈ (i.chain C kind).certs, cert.window.Contains n := by
    simp only [List.forall_mem_flatMap, List.forall_mem_map, chains, List.forall_mem_cons]
    refine ⟨fun h kind => ?_, fun h => ?_⟩
    · obtain ⟨htcb, hcrl, hqe, hpck, _⟩ := h
      cases kind with
      | tcbInfoIssuer => exact htcb
      | pckCrlIssuer => exact hcrl
      | qeIdentityIssuer => exact hqe
      | quotePck => exact hpck
    · exact ⟨h _, h _, h _, h _, fun _ hm => absurd hm List.not_mem_nil⟩
  have hdocs : (∀ doc, (i.document doc).window.Contains n) ↔
      (i.document .tcbInfo).window.Contains n ∧ (i.document .qeIdentity).window.Contains n := by
    refine ⟨fun h => ⟨h _, h _⟩, fun h doc => ?_⟩
    cases doc with
    | tcbInfo => exact h.1
    | qeIdentity => exact h.2
  rw [Window.mem_common, datedItems, List.forall_mem_append, List.forall_mem_append, hchains, hcrl,
    hdocs]
  simp only [List.forall_mem_cons, List.not_mem_nil, false_implies, implies_true, and_true,
    and_assoc]

/-- **Only the dated items look at the clock.** An authenticated input is authenticated at exactly
the times at which all of them are in force. -/
theorem authenticated_atTime (h : Authenticated C i) (t : SystemTime) :
    Authenticated C (i.atTime t) ↔ unixSeconds t ∈ Window.common (i.datedItems C) := by
  obtain ⟨crl₁, h₁⟩ := h.rootCrl
  obtain ⟨crl₂, h₂⟩ := h.pckCrl
  rw [mem_common_datedItems h₁.decoded h₂.decoded]
  refine ⟨fun ht => ?_, fun hwindows => ?_⟩
  · obtain ⟨crl₁', h₁'⟩ := ht.rootCrl
    obtain ⟨crl₂', h₂'⟩ := ht.pckCrl
    obtain rfl := Except.ok.inj (h₁'.decoded.symm.trans h₁.decoded)
    obtain rfl := Except.ok.inj (h₂'.decoded.symm.trans h₂.decoded)
    exact ⟨ht.certWindows, h₁'.window, h₂'.window, ht.docWindows⟩
  · obtain ⟨hcerts, hcrl₁, hcrl₂, hdocs⟩ := hwindows
    exact
      { h with
        certWindows := hcerts
        rootCrl := ⟨crl₁, h₁.decoded, h₁.valid, hcrl₁⟩
        pckCrl := ⟨crl₂, h₂.decoded, h₂.valid, hcrl₂⟩
        noneRevoked := by
          intro crl hcrl
          rcases hcrl with hc | hc
          · exact h.noneRevoked crl (.inl
              ⟨hc.decoded, hc.valid, Except.ok.inj (h₁.decoded.symm.trans hc.decoded) ▸ h₁.window⟩)
          · exact h.noneRevoked crl (.inr
              ⟨hc.decoded, hc.valid, Except.ok.inj (h₂.decoded.symm.trans hc.decoded) ▸ h₂.window⟩)
        docWindows := hdocs }

/-- Past authentication, the verdict does not depend on the time. -/
theorem verify_atTime {t₀ t : SystemTime} {r r' : TcbStanding × SgxReportBody}
    (h : (i.atTime t₀).verify C = .ok r) :
    (i.atTime t).verify C = .ok r' ↔
      r' = r ∧ unixSeconds t ∈ Window.common (i.datedItems C) := by
  have hdated : (i.atTime t₀).datedItems C = i.datedItems C := rfl
  obtain ⟨hauth, hdebug, hresult⟩ := verify_eq_ok_iff.mp h
  have hiff := authenticated_atTime hauth t
  rw [hdated] at hiff
  rw [verify_eq_ok_iff, ← hiff, ← result_eq_ok]
  have hr : (i.atTime t).result C = .ok r := result_eq_ok.mpr hresult
  rw [hr, Except.ok.injEq, eq_comm (a := r)]
  refine ⟨fun h => ?_, fun h => ?_⟩
  · obtain ⟨hpasses, _, hsame⟩ := h
    exact ⟨hsame, hpasses⟩
  · obtain ⟨hsame, hpasses⟩ := h
    exact ⟨hpasses, hdebug, hsame⟩

end Input

/--
**Acceptance over time is one half-open interval, with one result.**

With everything but the time fixed, an input is accepted never, or else exactly
while every dated item is in force, which is one interval of seconds; the result is
the same throughout. So acceptance at two times carries to every time between.
-/
theorem acceptance_interval (i : Input) :
    ((∀ t r, verifyRemoteAttestation C t i.collateral i.quote i.expectedMrenclave
          i.minTcbEvaluationDataNumber ≠ .ok r) ∨
      ∃ r, (∀ t r', verifyRemoteAttestation C t i.collateral i.quote i.expectedMrenclave
            i.minTcbEvaluationDataNumber = .ok r' ↔
          r' = r ∧ ∀ w ∈ i.datedItems C, w.Contains (unixSeconds t)) ∧
        ∃ lower upper : Int, ∀ n, (∀ w ∈ i.datedItems C, w.Contains n) ↔ lower ≤ n ∧ n < upper) ∧
    ∀ (t₁ t t₂ : SystemTime) (r₁ r₂ : TcbStanding × SgxReportBody), t₁ ≤ t → t ≤ t₂ →
      verifyRemoteAttestation C t₁ i.collateral i.quote i.expectedMrenclave
        i.minTcbEvaluationDataNumber = .ok r₁ →
      verifyRemoteAttestation C t₂ i.collateral i.quote i.expectedMrenclave
        i.minTcbEvaluationDataNumber = .ok r₂ →
      r₁ = r₂ ∧ verifyRemoteAttestation C t i.collateral i.quote i.expectedMrenclave
        i.minTcbEvaluationDataNumber = .ok r₁ := by
  have hverify (t : SystemTime) : verifyRemoteAttestation C t i.collateral i.quote
      i.expectedMrenclave i.minTcbEvaluationDataNumber = (i.atTime t).verify C := rfl
  simp only [hverify]
  refine ⟨?_, ?_⟩
  · by_cases hex : ∃ t₀ r, (i.atTime t₀).verify C = .ok r
    · obtain ⟨t₀, r, h⟩ := hex
      have hdoc : (i.document .tcbInfo).window ∈ i.datedItems C := by simp [Input.datedItems]
      obtain ⟨lower, upper, hIco⟩ := Window.common_eq_Ico hdoc rfl
      exact .inr ⟨r, fun t r' => Input.verify_atTime h, lower, upper, Set.ext_iff.mp hIco⟩
    · exact .inl fun t r h => hex ⟨t, r, h⟩
  · intro t₁ t t₂ r₁ r₂ h₁t ht₂ h₁ h₂
    -- the window is anchored at the first accepted time, and both ends are in it
    obtain ⟨_, hmem₁⟩ := (Input.verify_atTime h₁).mp h₁
    obtain ⟨hr, hmem₂⟩ := (Input.verify_atTime h₁).mp h₂
    refine ⟨hr.symm, (Input.verify_atTime h₁).mpr ⟨rfl, ?_⟩⟩
    exact (Window.ordConnected_clock unixSeconds_mono (i.datedItems C)).out hmem₁ hmem₂ ⟨h₁t, ht₂⟩

section

open Synthetic

/-- Accepted at the start of the synthetic windows and at the middle, and so in between. -/
theorem honest_accepted_between :
    verifyRemoteAttestation (crates (registry "UpToDate")) ⟨1234567890123, by decide⟩
      (collateral "UpToDate") (quote 5 pckChain) mrenclave 17 =
        .ok (.upToDate, report 5 (zeros 64)) := by
  have hstart : verifyRemoteAttestation (crates (registry "UpToDate")) ⟨1000 * 10 ^ 9, by decide⟩
      (collateral "UpToDate") (quote 5 pckChain) mrenclave 17 =
        .ok (.upToDate, report 5 (zeros 64)) := by
    decide +kernel
  exact ((acceptance_interval (crates (registry "UpToDate"))
    ⟨currentTime, collateral "UpToDate", quote 5 pckChain, mrenclave, 17⟩).2 _ _ currentTime _ _
      (show (1000 * 10 ^ 9 : Int) ≤ 1234567890123 by decide)
      (show (1234567890123 : Int) ≤ 1500 * 10 ^ 9 by decide) hstart honest_accepted).2

end

end DcapVerify
