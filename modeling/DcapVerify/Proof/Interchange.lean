import DcapVerify.Proof.Authentication
import DcapVerify.Proof.Parameters
import DcapVerify.Proof.Recombine

/-!
# Evidence from different runs

Collateral is fetched for a platform, but little in it says so. Put together a quote that
is in order with some collateral, and pieces of collateral that are in order with other
quotes. Most stages look at one side of this only, so they pass as they did. What looks
at both sides is the CRLs, which must speak for the issuers on the quote's chain, the QE
identity, and the verdict on the platform.
-/

namespace DcapVerify

variable {C : Crates}

/-! ## Evidence in order -/

/-- The outcome is about the platform: accepted, in debug mode, or at no supported level. -/
def Input.InOrder (C : Crates) (i : Input) : Prop :=
  (∃ r, i.verify C = .ok r) ∨ ∃ e, i.verify C = .error (.reject e) ∧
    (e.category = .debugEnclaveRejected ∨ e.category = .tcbLevelUnsupported)

theorem Input.InOrder.authenticated {i : Input} (h : i.InOrder C) : Authenticated C i := by
  rcases h with ⟨r, hr⟩ | ⟨e, he, hk | hk⟩
  · exact (Input.verify_eq_ok_iff.mp hr).1
  · exact authenticated_of_debug he hk
  · exact (authenticated_of_tcbLevel he hk).1

/-! ## A CRL for another issuer -/

/-- A CRL that is in force, under the key it was issued with, can only be for another issuer. -/
theorem checkCrl_rejectsIn_issuer {label : String} {pemData issuerRaw : Bytes}
    {issuerKey : C.VerifyingKey} {crl : CertificateRevocationList} {now : Int}
    (hdecoded : decodeCrl C label pemData = .ok crl) (h : ValidCrl C crl issuerRaw issuerKey)
    (hwindow : crl.window.Contains now) (expected : Bytes) :
    RejectsIn [.crlInvalid] (checkCrl C label pemData expected issuerKey now) := by
  obtain ⟨sig, hsig, hverify⟩ := h.signature
  obtain ⟨hthis, hnext⟩ := hwindow
  have hsuperseded : checkCrlNextUpdate label crl.nextUpdate now = .ok () :=
    checkCrlNextUpdate_eq_ok.mpr hnext
  rw [checkCrl, hdecoded, Checks.ok_bind]
  refine .bind (.rejectIf_not (not_not.mpr h.signed)) fun _ _ =>
    .bind (.rejectIf_not (not_not.mpr h.ecdsaSha256)) fun _ _ =>
    .bind (.rejectIf (by simp)) fun _ _ =>
    .bind (.rejectIf_not (not_lt.mpr hthis)) fun _ _ => .bind (.of_ok hsuperseded) fun _ _ => ?_
  rw [hsig]
  refine .bind (.ok sig) fun sig' hsig' => .bind (.rejectIf (by simp)) fun _ _ =>
    .mapM fun rc _ => by rw [normalizedSerial_eq]; exact .ok _

namespace Stage

variable {j : Input} {crl : CertificateRevocationList} {issuerRaw : Bytes} {key : C.VerifyingKey}

/-- A root CA CRL that is in order for some issuer is judged by its name. -/
theorem rootCrl_issuer
    (hdecoded : decodeCrl C "root CA CRL" (asBytes j.collateral.rootCaCrl) = .ok crl)
    (hkey : pinnedRootKey C = .ok key) (hvalid : ValidCrl C crl issuerRaw key)
    (hwindow : crl.window.Contains j.now) {root : X509Certificate}
    (hroot : (j.chain C .quotePck).certs.getLast? = some root) :
    RejectsIn [.crlInvalid] (check C .rootCrl j) ∧
      (check C .rootCrl j = .ok () ↔ crl.issuer.asRaw = root.subject.asRaw) := by
  refine ⟨.bind ?_ fun _ _ => .ok _, ?_⟩
  · have hsubject : (j.chain C .quotePck).rootSubjectRaw = .ok root.subject.asRaw := by
      rw [ParsedChain.rootSubjectRaw, ParsedChain.root_eq_ok.mpr hroot]
      rfl
    rw [Input.checkRootCrl, hkey, Checks.ok_bind, hsubject, Checks.ok_bind]
    exact checkCrl_rejectsIn_issuer hdecoded hvalid hwindow _
  · rw [Input.rootCrl_passes]
    refine ⟨fun h => ?_, fun h => ?_⟩
    · obtain ⟨crl', hcrl⟩ := h
      obtain ⟨_, root', -, hroot', hvalid'⟩ := hcrl.valid
      obtain rfl := Except.ok.inj (hcrl.decoded.symm.trans hdecoded)
      obtain rfl := Option.some.inj (hroot'.symm.trans hroot)
      exact hvalid'.issuer
    · exact ⟨crl, hdecoded, ⟨key, root, hkey, hroot, { hvalid with issuer := h }⟩, hwindow⟩

/-- So is a PCK CRL under the key of its own chain. -/
theorem pckCrl_issuer
    (hdecoded : decodeCrl C "PCK CRL" (asBytes j.collateral.pckCrl) = .ok crl)
    {leaf crlLeaf : X509Certificate} (hleaf : (j.chain C .quotePck).certs.head? = some leaf)
    (hcrlLeaf : (j.chain C .pckCrlIssuer).certs.head? = some crlLeaf)
    (hkey : C.fromSec1Bytes crlLeaf.publicKey.subjectPublicKey = .ok key)
    (hvalid : ValidCrl C crl issuerRaw key) (hwindow : crl.window.Contains j.now) :
    RejectsIn [.crlInvalid] (check C .pckCrl j) ∧
      (check C .pckCrl j = .ok () ↔ crl.issuer.asRaw = leaf.issuer.asRaw) := by
  refine ⟨.bind ?_ fun _ _ => .ok _, ?_⟩
  · have hissuer : (j.chain C .quotePck).leafIssuerRaw = .ok leaf.issuer.asRaw := by
      rw [ParsedChain.leafIssuerRaw, ParsedChain.leaf_eq_ok.mpr hleaf]
      rfl
    have hverifying : (j.chain C .pckCrlIssuer).leafVerifyingKey C = .ok key :=
      (leafVerifyingKey_eq_ok C).mpr ⟨crlLeaf, hcrlLeaf, hkey⟩
    rw [Input.checkPckCrl, hissuer, Checks.ok_bind, hverifying, Checks.ok_bind]
    exact checkCrl_rejectsIn_issuer hdecoded hvalid hwindow _
  · rw [Input.pckCrl_passes]
    refine ⟨fun h => ?_, fun h => ?_⟩
    · obtain ⟨crl', hcrl⟩ := h
      obtain ⟨leaf', _, _, hleaf', -, -, hvalid'⟩ := hcrl.valid
      obtain rfl := Except.ok.inj (hcrl.decoded.symm.trans hdecoded)
      obtain rfl := Option.some.inj (hleaf'.symm.trans hleaf)
      exact hvalid'.issuer
    · exact ⟨crl, hdecoded, ⟨leaf, crlLeaf, key, hleaf, hcrlLeaf, hkey,
        { hvalid with issuer := h }⟩, hwindow⟩

/-- The two names that the scope check compares. -/
theorem crlScope_names {leaf crlLeaf : X509Certificate}
    (hleaf : (j.chain C .quotePck).certs.head? = some leaf)
    (hcrlLeaf : (j.chain C .pckCrlIssuer).certs.head? = some crlLeaf) :
    RejectsIn [.crlInvalid] (check C .crlScope j) ∧
      (check C .crlScope j = .ok () ↔ crlLeaf.subject.asRaw = leaf.issuer.asRaw) := by
  have hissuer : (j.chain C .quotePck).leafIssuerRaw = .ok leaf.issuer.asRaw := by
    rw [ParsedChain.leafIssuerRaw, ParsedChain.leaf_eq_ok.mpr hleaf]
    rfl
  have hsubject : (j.chain C .pckCrlIssuer).leafSubjectRaw = .ok crlLeaf.subject.asRaw := by
    rw [ParsedChain.leafSubjectRaw, ParsedChain.leaf_eq_ok.mpr hcrlLeaf]
    rfl
  rw [check, hissuer, Checks.ok_bind, checkCrlScope, hsubject, Checks.ok_bind, rejectIf_eq_ok,
    not_not]
  exact ⟨.rejectIf (by simp), Iff.rfl⟩

end Stage

/-! ## The quote and the pieces -/

/-- The stages that look at the quote and the CRLs. -/
def Stage.crls : List Stage := [.crlScope, .rootCrl, .pckCrl, .noneRevoked]

namespace Input

/-- The CRLs of a run speak for the issuers on the quote's chain, and list no certificate. -/
structure Covers (C : Crates) (i : Input) : Prop where
  scope : ∃ leaf crlLeaf, (i.chain C .quotePck).certs.head? = some leaf ∧
    (i.chain C .pckCrlIssuer).certs.head? = some crlLeaf ∧
    crlLeaf.subject.asRaw = leaf.issuer.asRaw
  root : ∃ root crl, (i.chain C .quotePck).certs.getLast? = some root ∧
    decodeCrl C "root CA CRL" (asBytes i.collateral.rootCaCrl) = .ok crl ∧
    crl.issuer.asRaw = root.subject.asRaw
  unrevoked : i.Unrevoked C

section

variable {t : SystemTime} {own : SgxCollateral} {quote : SgxQuote} {m : MREnclave} {n n' : UInt32}
  {donor : Piece → SgxCollateral} {donorQuote : Piece → SgxQuote} {pin : Piece → MREnclave}

/-- What the quote is judged with when its collateral is assembled. -/
def mixed (t : SystemTime) (donor : Piece → SgxCollateral) (quote : SgxQuote) (m : MREnclave)
    (n : UInt32) : Input :=
  ⟨t, .assemble donor, quote, m, n⟩

/-- A stage that looks at one side passes as it did on that side. -/
theorem check_mixed (hquote : Authenticated C ⟨t, own, quote, m, n'⟩)
    (hpieces : ∀ p, Authenticated C ⟨t, donor p, donorQuote p, pin p, n⟩) {s : Stage}
    (hcrls : s ∉ Stage.crls) (hidentity : s ≠ .qeIdentity) (hdebug : s ≠ .debug) :
    Stage.check C s (mixed t donor quote m n) = .ok () := by
  have hown (s : Stage) (hs : s ≠ .debug) := Stage.authenticated_iff.mpr hquote s hs
  have hpiece (s : Stage) (hs : s ≠ .debug) :=
    Stage.authenticated_iff.mpr (hpieces s.piece) s hs
  cases s with
  | formats =>
      exact checkDocumentFormats_eq_ok.mpr
        { envelope := rfl
          tcbInfo := (hpieces .tcbInfo).formats.tcbInfo
          qeIdentity := (hpieces .qeIdentity).formats.qeIdentity
          tcbType := (hpieces .tcbInfo).formats.tcbType }
  | crlScope | rootCrl | pckCrl | noneRevoked => exact absurd (by decide) hcrls
  | qeIdentity => exact absurd rfl hidentity
  | debug => exact absurd rfl hdebug
  -- the quote's own
  | qeVendor => exact hown .qeVendor hdebug
  | mrenclave => exact hown .mrenclave hdebug
  | qeReportSignature => exact hown .qeReportSignature hdebug
  | qeBinding => exact hown .qeBinding hdebug
  | quoteSignature => exact hown .quoteSignature hdebug
  -- the quote's chain, or a piece's
  | pem kind =>
      cases kind with
      | quotePck => exact hown (.pem .quotePck) hdebug
      | _ => exact hpiece (.pem _) hdebug
  | der kind =>
      cases kind with
      | quotePck => exact hown (.der .quotePck) hdebug
      | _ => exact hpiece (.der _) hdebug
  | path kind =>
      cases kind with
      | quotePck => exact hown (.path .quotePck) hdebug
      | _ => exact hpiece (.path _) hdebug
  -- a document
  | tcbInfoId => exact hpiece .tcbInfoId hdebug
  | signingLeaf doc => cases doc <;> exact hpiece (.signingLeaf _) hdebug
  | signature doc => cases doc <;> exact hpiece (.signature _) hdebug
  | validityWindow doc => cases doc <;> exact hpiece (.validityWindow _) hdebug
  | evaluationRound doc => cases doc <;> exact hpiece (.evaluationRound _) hdebug

/-- **The CRLs decide** whether the pieces and the quote go together. -/
theorem crls_decide (hquote : Authenticated C ⟨t, own, quote, m, n'⟩)
    (hpieces : ∀ p, Authenticated C ⟨t, donor p, donorQuote p, pin p, n⟩) :
    Decides C (mixed t donor quote m n) Stage.crls .crlInvalid
      ((mixed t donor quote m n).Covers C) := by
  let i : Input := ⟨t, own, quote, m, n'⟩
  let j := mixed t donor quote m n
  let d (p : Piece) : Input := ⟨t, donor p, donorQuote p, pin p, n⟩
  have hpck : j.chain C .quotePck = i.chain C .quotePck := rfl
  have hissuer : j.chain C .pckCrlIssuer = (d .pckCrl).chain C .pckCrlIssuer := rfl
  -- the ends of the chains, and the CRLs as their donors have them
  obtain ⟨leaf, -, hleaf, -, -⟩ := hquote.crlScope
  obtain ⟨donorLeaf, crlLeaf, hdonorLeaf, hcrlLeaf, hscope⟩ := (hpieces .pckCrl).crlScope
  obtain ⟨_, hownCrl⟩ := hquote.rootCrl
  obtain ⟨_, root, -, hroot, -⟩ := hownCrl.valid
  obtain ⟨rootCrl, hrootCrl⟩ := (hpieces .rootCrl).rootCrl
  obtain ⟨rootKey, _, hrootKey, -, hrootValid⟩ := hrootCrl.valid
  obtain ⟨pckCrl, hpckCrl⟩ := (hpieces .pckCrl).pckCrl
  obtain ⟨_, _, pckKey, hl, hc, hpckKey, hpckValid⟩ := hpckCrl.valid
  obtain rfl := Option.some.inj (hdonorLeaf.symm.trans hl)
  obtain rfl := Option.some.inj (hcrlLeaf.symm.trans hc)
  obtain ⟨hscopeIn, hscopePasses⟩ := Stage.crlScope_names (j := j) hleaf hcrlLeaf
  obtain ⟨hrootIn, hrootPasses⟩ :=
    Stage.rootCrl_issuer (j := j) hrootCrl.decoded hrootKey hrootValid hrootCrl.window hroot
  obtain ⟨hpckIn, hpckPasses⟩ :=
    Stage.pckCrl_issuer (j := j) hpckCrl.decoded hleaf hcrlLeaf hpckKey hpckValid hpckCrl.window
  refine ⟨?_, ⟨fun h => ?_, fun h => ?_⟩⟩
  · rw [Stage.crls, List.forall_mem_cons, List.forall_mem_cons, List.forall_mem_cons,
      List.forall_mem_singleton]
    exact ⟨hscopeIn, hrootIn, hpckIn, ensureNoneRevoked_rejectsIn C _ _⟩
  · have hrootPassed := h .rootCrl (by decide)
    have hpckPassed := h .pckCrl (by decide)
    exact {
      scope := ⟨leaf, crlLeaf, hleaf, hcrlLeaf, hscopePasses.mp (h .crlScope (by decide))⟩
      root := ⟨root, rootCrl, hroot, hrootCrl.decoded, hrootPasses.mp hrootPassed⟩
      unrevoked := (Stage.noneRevoked_passes (rootCrl_passes.mp hrootPassed)
        (pckCrl_passes.mp hpckPassed)).mp (h .noneRevoked (by decide)) }
  · obtain ⟨leaf', crlLeaf', hleaf', hcrlLeaf', hnames⟩ := h.scope
    obtain rfl := Option.some.inj (hleaf.symm.trans hleaf')
    obtain rfl := Option.some.inj (hcrlLeaf.symm.trans hcrlLeaf')
    obtain ⟨root', crl, hroot', hcrl, hrootNames⟩ := h.root
    obtain rfl := Option.some.inj (hroot.symm.trans hroot')
    obtain rfl := Except.ok.inj (hrootCrl.decoded.symm.trans hcrl)
    have hrootPassed := hrootPasses.mpr hrootNames
    -- the donor's scope check has the PCK CRL issued in the name of its chain's leaf
    have hpckPassed := hpckPasses.mpr (hpckValid.issuer.trans (hscope.symm.trans hnames))
    rw [Stage.crls, List.forall_mem_cons, List.forall_mem_cons, List.forall_mem_cons,
      List.forall_mem_singleton]
    exact ⟨hscopePasses.mpr hnames, hrootPassed, hpckPassed,
      (Stage.noneRevoked_passes (rootCrl_passes.mp hrootPassed)
        (pckCrl_passes.mp hpckPassed)).mpr h.unrevoked⟩

/-- What is left to run are the stages that look at both sides, and the DEBUG gate. -/
theorem runAll_mixed (hquote : Authenticated C ⟨t, own, quote, m, n'⟩)
    (hpieces : ∀ p, Authenticated C ⟨t, donor p, donorQuote p, pin p, n⟩) :
    Stage.runAll C (mixed t donor quote m n) =
      Checks.run ((Stage.crls ++ [Stage.qeIdentity, .debug]).map (Stage.check C))
        (mixed t donor quote m n) := by
  have hfilter : (Stage.order.filter fun s => s ∈ Stage.crls ++ [Stage.qeIdentity, .debug]) =
      Stage.crls ++ [Stage.qeIdentity, .debug] := by
    decide
  rw [Stage.runAll, ← hfilter]
  refine Checks.run_map_filter fun s _ hs => ?_
  rw [decide_eq_false_iff_not, List.mem_append, not_or] at hs
  obtain ⟨hcrls, hrest⟩ := hs
  refine check_mixed hquote hpieces hcrls ?_ ?_
  · rintro rfl
    exact hrest (by decide)
  · rintro rfl
    exact hrest (by decide)

end

end Input

/--
**Evidence from different runs.**

Take a quote that is in order with some collateral, and the four pieces of a collateral,
each in order with a quote of its own, all at one time. The pieces are rejected with the
quote for their CRLs, unless these speak for the issuers on the quote's chain and list none
of the certificates. Then the outcome is that of the QE identity, of the DEBUG gate, and of
the TCB info on the quote's platform: nothing else ties collateral to a quote.
-/
theorem mixed_evidence_exact {t : SystemTime} {own : SgxCollateral} {quote : SgxQuote}
    {m : MREnclave} {n n' : UInt32} {donor : Piece → SgxCollateral} {donorQuote : Piece → SgxQuote}
    {pin : Piece → MREnclave} (hquote : Input.InOrder C ⟨t, own, quote, m, n'⟩)
    (hpieces : ∀ p, Input.InOrder C ⟨t, donor p, donorQuote p, pin p, n⟩) :
    (¬ Input.Covers C ⟨t, .assemble donor, quote, m, n⟩ →
      ∃ e, verifyRemoteAttestation C t (.assemble donor) quote m n = .error (.reject e) ∧
        e.category = .crlInvalid) ∧
    (Input.Covers C ⟨t, .assemble donor, quote, m, n⟩ →
      verifyRemoteAttestation C t (.assemble donor) quote m n = (do
        checkQeIdentity C (donor .qeIdentity).qeIdentity.body quote.signature.qeReport
        checkDebug C quote
        Input.result C ⟨t, .assemble donor, quote, m, n⟩)) := by
  have hown := hquote.authenticated
  have hdonors (p : Piece) := (hpieces p).authenticated
  have hcrls := Input.crls_decide hown hdonors
  have hrun := Input.runAll_mixed hown hdonors
  let j := Input.mixed t donor quote m n
  refine ⟨fun h => ?_, fun h => ?_⟩
  · obtain ⟨e, he, hk⟩ := hcrls.stop h [.qeIdentity, .debug]
    refine ⟨e, ?_, hk⟩
    show j.verify C = _
    rw [Input.verify_eq, hrun, he]
    rfl
  · show j.verify C = _
    rw [Input.verify_eq, hrun, hcrls.skip h]
    simp only [List.map_cons, List.map_nil, Checks.run_cons, Checks.run_nil, bind_assoc,
      Checks.ok_bind]
    rfl

section

open Synthetic

/-- Collateral that was fetched for a debug-mode quote serves a production quote. -/
theorem debug_pieces_accepted :
    (∃ e, verifyRemoteAttestation (crates (registry "UpToDate")) currentTime
        (collateral "UpToDate") (quote 7 pckChain) mrenclave 17 = .error (.reject e) ∧
      e.category = .debugEnclaveRejected) ∧
    verifyRemoteAttestation (crates (registry "UpToDate")) currentTime
      (.assemble fun _ => collateral "UpToDate") (quote 5 pckChain) mrenclave 17 =
        .ok (.upToDate, report 5 (zeros 64)) := by
  let i : Input := ⟨currentTime, collateral "UpToDate", quote 5 pckChain, mrenclave, 17⟩
  have haccepted : i.verify (crates (registry "UpToDate")) = .ok _ := honest_accepted
  have hauth := (Input.verify_eq_ok_iff.mp haccepted).1
  obtain ⟨rootCrl, hrootCrl⟩ := hauth.rootCrl
  obtain ⟨_, root, -, hroot, hvalid⟩ := hrootCrl.valid
  have hcovers : i.Covers (crates (registry "UpToDate")) :=
    { scope := hauth.crlScope
      root := ⟨root, rootCrl, hroot, hrootCrl.decoded, hvalid.issuer⟩
      unrevoked := hauth.noneRevoked }
  have hquote : Input.InOrder (crates (registry "UpToDate"))
      ⟨currentTime, collateral "UpToDate", quote 5 pckChain, mrenclave, 17⟩ := .inl ⟨_, haccepted⟩
  have hpieces (p : Piece) : Input.InOrder (crates (registry "UpToDate"))
      ⟨currentTime, (fun _ => collateral "UpToDate") p, (fun _ => quote 7 pckChain) p,
        (fun _ => mrenclave) p, 17⟩ := .inr ⟨_, debug_rejected, .inl rfl⟩
  refine ⟨⟨_, debug_rejected, rfl⟩, ((mixed_evidence_exact hquote hpieces).2 hcovers).trans ?_⟩
  decide +kernel

end

end DcapVerify
