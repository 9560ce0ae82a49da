import DcapVerify.Proof.Footprint
import DcapVerify.Proof.Padding

/-!
# Rearranged chains

The certificates of a genuine chain, put together in another way: some left out,
some repeated, in another order. As long as the chain gives every subject one
certificate, a certificate has one possible issuer among the others, and the only
arrangements that validate are the tails of the chain with the root repeated.
Anything else is rejected for its chain, in whichever slot it stands.
-/

namespace DcapVerify

variable {C : Crates}

/-- **The valid arrangements** of a valid path's certificates. -/
theorem validPath_rearranged_iff {certs certs' : List X509Certificate} {root : X509Certificate}
    (h : ValidPath C certs) (htwo : 2 ≤ certs.length) (hlast : certs.getLast? = some root)
    (hsubjects : (certs.map fun cert => cert.subject.asRaw).Nodup)
    (hmem : ∀ cert ∈ certs', cert ∈ certs) :
    ValidPath C certs' ↔
      ∃ k < certs.length, ∃ n, certs' = certs.drop k ++ List.replicate n root := by
  -- an issuer is found by its subject name
  have hparent : ∀ c ∈ certs, ∀ p ∈ certs, ∀ q ∈ certs,
      IssuedBy C c p → IssuedBy C c q → p = q := fun c _ p hp q hq hcp hcq =>
    List.inj_on_of_nodup_map hsubjects hp hq (hcp.name.symm.trans hcq.name)
  have hrooted := Path.rooted_rearranged_iff h.rooted hlast (List.Nodup.of_map _ hsubjects) hparent
    hmem
  refine ⟨fun h' => hrooted.mp h'.rooted, fun hform => ⟨hrooted.mpr hform, ?_,
    fun cert hcert => h.algorithms cert (hmem cert hcert)⟩⟩
  intro j cert hj hcert
  -- past the first place stand certificates that were past the first place before
  obtain ⟨k, hk, n, rfl⟩ := hform
  by_cases hin : j < (certs.drop k).length
  · rw [List.getElem?_append_left hin, List.getElem?_drop] at hcert
    exact h.cas (k + j) cert (by omega) hcert
  · rw [List.getElem?_append_right (not_lt.mp hin), List.getElem?_replicate] at hcert
    split at hcert
    · obtain rfl := Option.some.inj hcert
      rw [List.getLast?_eq_getElem?] at hlast
      exact h.cas (certs.length - 1) root (by omega) hlast
    · cases hcert

theorem checkCert_rejectsIn_trust {label : String} {now : Int} {cert : X509Certificate}
    (h : cert.window.Contains now) :
    RejectsIn [.rootCaUntrusted] (ParsedChain.checkCert C label now cert) := by
  have hwindow : ¬ (now < cert.validity.notBefore ∨ now ≥ cert.validity.notAfter) := by
    rw [X509Certificate.window, Window.contains_some] at h
    omega
  rw [ParsedChain.checkCert, rejectIf, if_neg hwindow]
  exact checkP256Sha256Algs_rejectsIn C label cert

/-- Where every certificate is in force, only trust can be at fault. -/
theorem validate_rejectsIn_trust {chain : ParsedChain} {now : Int} (hne : chain.certs ≠ [])
    (h : ∀ cert ∈ chain.certs, cert.window.Contains now) :
    RejectsIn [.rootCaUntrusted] (chain.validate C now) := by
  have hroot : chain.root = .ok (chain.certs.getLast hne) :=
    ParsedChain.root_eq_ok.mpr (List.getLast?_eq_some_getLast hne)
  rw [ParsedChain.validate, hroot, Checks.ok_bind]
  refine .bind (.rejectIf (by simp)) fun _ _ =>
    .bind (.forM fun cert hcert => checkCert_rejectsIn_trust (h cert hcert)) fun _ _ =>
    .bind (.forM fun x _ => requireCa_rejectsIn _ _ _) fun _ _ =>
    .forM fun i hi => ParsedChain.checkLink_rejectsIn C (List.mem_range.mp hi)

namespace Input

variable {i : Input} {x : ChainTexts} {kind : ChainKind} {chain : ParsedChain}

/-- With one slot filled by another chain that decodes, the run reaches that chain's validation. -/
theorem passes_before_path (hpass : ∀ s, s ≠ .debug → Stage.check C s i = .ok ())
    (hother : ∀ k, k ≠ kind → x.pem k = i.chainPem k)
    (hload : loadChain C kind (x.pem kind) = .ok chain) :
    ∀ s ∈ (Stage.path kind).before, Stage.check C s (i.withTexts x) = .ok () := by
  have htext (k : ChainKind) (hk : k ≠ kind) : (i.withTexts x).chainPem k = i.chainPem k :=
    (chainPem_withTexts i x k).trans (hother k hk)
  have hder (k : ChainKind) : Stage.check C (.der k) (i.withTexts x) = .ok () := by
    by_cases hk : k = kind
    · rw [hk, Stage.check, chainPem_withTexts, hload]
      rfl
    · rw [Stage.check, htext k hk]
      exact hpass (.der k) (by simp)
  intro s hs
  cases s with
  | qeVendor => exact hpass .qeVendor (by decide)
  | mrenclave => exact hpass .mrenclave (by decide)
  | formats => exact hpass .formats (by decide)
  | der k => exact hder k
  | pem k => exact Stage.pem_passes_of_der (hder k)
  | path k =>
      have hk : k ≠ kind := by
        rintro rfl
        exact absurd hs (by cases k <;> decide)
      rw [Stage.check, Input.chain, htext k hk]
      exact hpass (.path k) (by simp)
  | signingLeaf doc | signature doc | validityWindow doc | evaluationRound doc =>
      exact absurd hs (by cases kind <;> cases doc <;> decide)
  | _ => exact absurd hs (by cases kind <;> decide)

end Input

/--
**A rearranged chain is a tail of the chain, or is rejected.**

In accepted evidence, fill one chain slot with a text that decodes to certificates of
the chain it had, which gives each subject one certificate. They validate exactly
when they are a tail of that chain with its root repeated; otherwise the evidence is
rejected for an untrusted root.
-/
theorem rearranged_chain_exact {i : Input} {r : TcbStanding × SgxReportBody} {x : ChainTexts}
    {kind : ChainKind} {chain : ParsedChain} {root : X509Certificate}
    (haccept : verifyRemoteAttestation C i.currentTime i.collateral i.quote i.expectedMrenclave
      i.minTcbEvaluationDataNumber = .ok r)
    (hother : ∀ k, k ≠ kind → x.pem k = i.chainPem k)
    (hload : loadChain C kind (x.pem kind) = .ok chain)
    (hmem : ∀ cert ∈ chain.certs, cert ∈ (i.chain C kind).certs)
    (htwo : 2 ≤ (i.chain C kind).certs.length)
    (hlast : (i.chain C kind).certs.getLast? = some root)
    (hsubjects : ((i.chain C kind).certs.map fun cert => cert.subject.asRaw).Nodup) :
    (chain.validate C i.now = .ok () ↔ ∃ k < (i.chain C kind).certs.length, ∃ n,
      chain.certs = (i.chain C kind).certs.drop k ++ List.replicate n root) ∧
    ((¬ ∃ k < (i.chain C kind).certs.length, ∃ n,
        chain.certs = (i.chain C kind).certs.drop k ++ List.replicate n root) →
      ∃ e, (i.withTexts x).verify C = .error (.reject e) ∧ e.category = .rootCaUntrusted) := by
  obtain ⟨hauth, _⟩ := (Input.verify_eq_ok_iff (i := i)).mp haccept
  have hpass : ∀ s, s ≠ .debug → Stage.check C s i = .ok () := Stage.authenticated_iff.mpr hauth
  have hwindows : ∀ cert ∈ chain.certs, cert.window.Contains i.now := fun cert hcert =>
    hauth.certWindows kind cert (hmem cert hcert)
  have hiff : chain.validate C i.now = .ok () ↔ ∃ k < (i.chain C kind).certs.length, ∃ n,
      chain.certs = (i.chain C kind).certs.drop k ++ List.replicate n root := by
    rw [ParsedChain.validate_eq_ok, and_iff_left hwindows,
      validPath_rearranged_iff (hauth.paths kind) htwo hlast hsubjects hmem]
  refine ⟨hiff, fun hform => ?_⟩
  have hcheck : Stage.check C (.path kind) (i.withTexts x) = chain.validate C i.now := by
    have hchain : (i.withTexts x).chain C kind = chain :=
      Input.chain_eq C (by rw [Input.chainPem_withTexts]; exact hload)
    rw [Stage.check, hchain]
    rfl
  cases hvalid : chain.validate C i.now with
  | ok u => exact absurd (hiff.mp hvalid) hform
  | error f =>
      have hne := (loadChain_eq_ok C hload).2.1
      obtain ⟨e, rfl, he⟩ := (validate_rejectsIn_trust hne hwindows).exists_reject hvalid
      exact ⟨e, Input.verify_stops (Input.passes_before_path hpass hother hload)
        (hcheck.trans hvalid), List.mem_singleton.mp he⟩

section

open Synthetic

/-- Honest evidence with the TCB info's issuer chain the other way round. -/
theorem reversed_chain_rejected :
    ∃ e, verifyRemoteAttestation (crates (registry "UpToDate")) currentTime
      { collateral "UpToDate" with tcbInfoIssuerChain := "03" } (quote 5 pckChain) mrenclave 17 =
        .error (.reject e) ∧ e.category = .rootCaUntrusted := by
  let i : Input := ⟨currentTime, collateral "UpToDate", quote 5 pckChain, mrenclave, 17⟩
  let reversed : ParsedChain := ⟨.tcbInfoIssuer,
    [issue root root [1] true [], issue root tcbSigning [3] false []]⟩
  have hload : loadChain (crates (registry "UpToDate")) .tcbInfoIssuer (asBytes "03") =
      .ok reversed := by rfl
  have hchain : (i.chain (crates (registry "UpToDate")) .tcbInfoIssuer).certs =
      [issue root tcbSigning [3] false [], issue root root [1] true []] := by rfl
  have hother : ∀ k, k ≠ ChainKind.tcbInfoIssuer →
      (⟨"03", "10", "30", pckChain⟩ : ChainTexts).pem k = i.chainPem k := by
    intro k hk
    cases k with
    | tcbInfoIssuer => exact absurd rfl hk
    | _ => rfl
  obtain ⟨hvalid, hreject⟩ := @rearranged_chain_exact _ i _ _ .tcbInfoIssuer reversed
    (issue root root [1] true []) honest_accepted hother hload (by rw [hchain]; simp [reversed])
    (by rw [hchain]; decide) (by rw [hchain]; rfl) (by rw [hchain]; decide)
  refine hreject fun hform => ?_
  have hinvalid : reversed.validate (crates (registry "UpToDate")) i.now ≠ .ok () := by
    decide +kernel
  exact hinvalid (hvalid.mpr hform)

end

end DcapVerify
