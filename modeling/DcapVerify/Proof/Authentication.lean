import DcapVerify.Proof.Acceptance
import DcapVerify.Proof.QuoteGrammar
import DcapVerify.Synthetic

/-!
# Quote authentication

An accepted quote is vouched for by an unbroken path from the pinned root key: the
chain embedded in the quote leads to the PCK key, the PCK key signed the QE report,
the QE report commits to the attestation key, and the attestation key signed the
header and report body. The path is stated on the bytes each key signed. That the
parsed fields the checks read are those same bytes is the grammar's part.

The last result turns the argument around: a verdict about the platform or the
DEBUG flag is only ever given on evidence that has passed all of this.
-/

namespace DcapVerify

variable (C : Crates)

/-- The chain of a quote, from a leaf that signed the QE report up to the pinned key. -/
structure ChainVouches (chain : ParsedChain) (now : Int) : Prop where
  length : 1 ≤ chain.certs.length ∧ chain.certs.length ≤ maxChainLen
  terminal : ∃ root, chain.certs.getLast? = some root ∧ HoldsPinnedKey root ∧ IssuedBy C root root
  links : ∀ (k : Nat) (child parent : X509Certificate), chain.certs[k]? = some child →
    chain.certs[k + 1]? = some parent → IssuedBy C child parent
  cas : ∀ (k : Nat) (cert : X509Certificate), 1 ≤ k → chain.certs[k]? = some cert → IsCa cert
  windows : ∀ cert ∈ chain.certs, cert.window.Contains now
  algorithms : ∀ cert ∈ chain.certs, P256Sha256 C cert
  vouched : ∀ cert ∈ chain.certs, Vouched C cert

/-- `body` is vouched for: every hop from the pinned root key down to its bytes. -/
structure BodyVouched (quote : SgxQuote) (now : Int) (body : SgxReportBody) : Prop where
  signedLength : quote.signedBytes.length = quoteSignedLen
  body : SgxReportBody.parse (Octets.slice 48 384 quote.signedBytes) = .ok body
  quoteSignature : ∃ key sig,
    C.fromSec1Bytes (0x04 :: quote.signature.attestationPubKey.toList) = .ok key ∧
    C.signatureFromSlice quote.signature.isvSignature.toList = .ok sig ∧
    C.verify key quote.signedBytes sig = true
  binding : Octets.slice 320 64 quote.signature.qeReportRaw.toList =
    (C.sha256 (quote.signature.attestationPubKey.toList ++ quote.signature.qeAuthData)).toList ++
      List.replicate 32 0
  chain : ∃ chain, loadChain C .quotePck quote.signature.certData = .ok chain ∧
    ChainVouches C chain now ∧
    ∃ leaf key sig, chain.certs.head? = some leaf ∧
      C.fromSec1Bytes leaf.publicKey.subjectPublicKey = .ok key ∧
      C.signatureFromSlice quote.signature.qeReportSignature.toList = .ok sig ∧
      C.verify key quote.signature.qeReportRaw.toList sig = true

variable {C}

/-- A loaded chain that is a valid path inside its windows vouches for its leaf. -/
theorem chainVouches_of_validPath {kind : ChainKind} {data : Bytes} {chain : ParsedChain}
    {now : Int} (hload : loadChain C kind data = .ok chain) (hpath : ValidPath C chain.certs)
    (hwin : ∀ cert ∈ chain.certs, cert.window.Contains now) : ChainVouches C chain now := by
  obtain ⟨_, hne, hlen⟩ := loadChain_eq_ok C hload
  obtain ⟨root, hroot, hpin, hself⟩ := hpath.rooted.exists_anchor
  have hindex := (Path.rooted_iff_index.mp hpath.rooted).2
  refine ⟨⟨List.length_pos_iff.mpr hne, hlen⟩, ⟨root, hroot, hpin, hself⟩, ?_, hpath.cas, hwin,
    hpath.algorithms, hpath.vouched⟩
  intro k child parent hchild hparent
  have hlink := hindex k child hchild
  rwa [Path.parentOf, hparent, Option.getD_some] at hlink

/-- In a quote that was read, the parsed bodies are the parses of the bytes that are signed. -/
theorem read_bodies {b t : Bytes} {quote : SgxQuote} (h : SgxQuote.read b = (.ok quote, t)) :
    quote.signedBytes.length = quoteSignedLen ∧
      SgxReportBody.parse (Octets.slice 48 384 quote.signedBytes) = .ok quote.reportBody ∧
      SgxReportBody.parse quote.signature.qeReportRaw.toList = .ok quote.signature.qeReport := by
  obtain ⟨p, hp, _⟩ := QuoteV3.read_eq_ok_iff.mp h
  rw [hp.signedBytes, hp.qeReportRaw]
  exact ⟨p.signed.toList_length, hp.reportBody, hp.qeReport⟩

/-- Authentication of a quote that was read, as a statement about bytes. -/
theorem Authenticated.bodyVouched {i : Input} (h : Authenticated C i) {b t : Bytes}
    (hread : SgxQuote.read b = (.ok i.quote, t)) :
    BodyVouched C i.quote i.now i.quote.reportBody := by
  obtain ⟨hlen, hbody, hqe⟩ := read_bodies hread
  refine ⟨hlen, hbody, h.quoteSignature, ?_, i.chain C .quotePck, h.decoded .quotePck,
    chainVouches_of_validPath (h.decoded .quotePck) (h.paths .quotePck) (h.certWindows .quotePck),
    h.qeReportSignature⟩
  rw [(SgxReportBody.parse_eq_ok.mp hqe).reportData_slice]
  exact h.qeBinding

/--
**Quote authentication is sound.**

Whatever the collateral, the time, the pin and the floor: if a quote that was read
is accepted, the body returned is the caller's enclave, outside debug mode, and is
vouched for by an unbroken path from the pinned Intel root key.
-/
theorem quote_authentication_sound {b t : Bytes} {quote : SgxQuote}
    (hread : SgxQuote.read b = (.ok quote, t)) {currentTime : SystemTime}
    {collateral : SgxCollateral} {expectedMrenclave : MREnclave} {floor : UInt32}
    {standing : TcbStanding} {body : SgxReportBody}
    (h : verifyRemoteAttestation C currentTime collateral quote expectedMrenclave floor =
      .ok (standing, body)) :
    BodyVouched C quote (unixSeconds currentTime) body ∧
      quote.header.qeVendorId = intelQeVendorId ∧ body.mrenclave = expectedMrenclave ∧
      body.isDebug = .ok false := by
  let i : Input := ⟨currentTime, collateral, quote, expectedMrenclave, floor⟩
  obtain ⟨hauth, hdebug, _, _, _, hbody⟩ :=
    Input.verify_eq_ok_iff.mp (show i.verify C = .ok (standing, body) from h)
  obtain rfl : body = quote.reportBody := hbody
  exact ⟨hauth.bodyVouched hread, hauth.qeVendor, hauth.mrenclave, hdebug⟩

/-- The honest quote of the synthetic PKI is vouched for. -/
theorem honest_body_vouched :
    let body := Synthetic.report 5 (Synthetic.zeros 64)
    BodyVouched (Synthetic.crates (Synthetic.registry "UpToDate"))
        (Synthetic.quote 5 Synthetic.pckChain) (unixSeconds Synthetic.currentTime) body ∧
      (Synthetic.quote 5 Synthetic.pckChain).header.qeVendorId = intelQeVendorId ∧
      body.mrenclave = Synthetic.mrenclave ∧ body.isDebug = .ok false :=
  quote_authentication_sound Synthetic.honest_read Synthetic.honest_accepted

/-! ## Late verdicts -/

theorem debug_only {s : Stage} (h : ErrorCategory.debugEnclaveRejected ∈ s.categories) :
    s = .debug := by
  have hall : ∀ s ∈ Stage.order,
      ErrorCategory.debugEnclaveRejected ∈ s.categories → s = .debug := by decide
  exact hall s s.mem_order h

/-- No stage reports a level or a standing. -/
theorem late_not_mem (s : Stage) : ErrorCategory.tcbLevelUnsupported ∉ s.categories ∧
    ErrorCategory.tcbStandingRejected ∉ s.categories := by
  have hall : ∀ s ∈ Stage.order, ErrorCategory.tcbLevelUnsupported ∉ s.categories ∧
      ErrorCategory.tcbStandingRejected ∉ s.categories := by decide
  exact hall s s.mem_order

/-- Only the last stage reports the DEBUG flag, so the others have passed. -/
theorem authenticated_of_debug {i : Input} {e : VerifyError}
    (h : i.verify C = .error (.reject e)) (he : e.category = .debugEnclaveRejected) :
    Authenticated C i := by
  -- split the run before the gate: a failure of the first part is never about the flag
  rw [Input.verify_eq, Stage.runAll_eq_debug, bind_assoc, Checks.bind_eq_error] at h
  rcases h with h | ⟨_, hpass, _⟩
  · obtain ⟨_, hg, hfail⟩ := Checks.run_eq_error h
    obtain ⟨s, hs, rfl⟩ := List.mem_map.mp hg
    have hcat := Stage.check_rejectsOnly C s i _ hfail _ rfl
    exact absurd (debug_only (he ▸ hcat)) (Stage.mem_dropLast_order.mp hs)
  · rw [Checks.run_eq_ok, List.forall_mem_map] at hpass
    exact Stage.authenticated_iff.mp fun s hs => hpass s (Stage.mem_dropLast_order.mpr hs)

/-- An unsupported level is only reported by the verdict, after every stage. -/
theorem authenticated_of_tcbLevel {i : Input} {e : VerifyError}
    (h : i.verify C = .error (.reject e)) (he : e.category = .tcbLevelUnsupported) :
    Authenticated C i ∧ i.quote.reportBody.isDebug = .ok false := by
  rcases Input.verify_rejected C h with ⟨s, _, hcat⟩ | ⟨hall, _⟩
  · exact absurd (he ▸ hcat) (late_not_mem s).1
  · exact ⟨Stage.authenticated_iff.mp fun s _ => hall s, (checkDebug_eq_ok C).mp (hall .debug)⟩

/-- Plain verification never judges a standing. -/
theorem verify_ne_tcbStandingRejected {i : Input} {e : VerifyError}
    (h : i.verify C = .error (.reject e)) : e.category ≠ .tcbStandingRejected := by
  intro he
  rcases Input.verify_rejected C h with ⟨s, _, hcat⟩ | ⟨_, hcat⟩
  · exact absurd (he ▸ hcat) (late_not_mem s).2
  · rw [he] at hcat
    simp at hcat

/--
**Late verdicts are about authenticated evidence.**

The DEBUG flag and an unsupported level are only reported, and the caller's policy
only consulted, on an input that has passed every authentication check; for the
latter two the DEBUG flag is clear as well.
-/
theorem late_verdicts_authenticated (currentTime : SystemTime) (collateral : SgxCollateral)
    (quote : SgxQuote) (expectedMrenclave : MREnclave) :
    (∀ floor e,
      verifyRemoteAttestation C currentTime collateral quote expectedMrenclave floor =
        .error (.reject e) → e.category = .debugEnclaveRejected →
      Authenticated C ⟨currentTime, collateral, quote, expectedMrenclave, floor⟩) ∧
    (∀ floor e,
      verifyRemoteAttestation C currentTime collateral quote expectedMrenclave floor =
        .error (.reject e) → e.category = .tcbLevelUnsupported →
      Authenticated C ⟨currentTime, collateral, quote, expectedMrenclave, floor⟩ ∧
        quote.reportBody.isDebug = .ok false) ∧
    ∀ (policy : TcbPolicy) e,
      verifyRemoteAttestationWithPolicy C currentTime collateral quote expectedMrenclave policy =
        .error (.reject e) → e.category = .tcbStandingRejected →
      Authenticated C
          ⟨currentTime, collateral, quote, expectedMrenclave, policy.minTcbEvaluationDataNumber⟩ ∧
        quote.reportBody.isDebug = .ok false := by
  refine ⟨fun floor e h he => authenticated_of_debug (i := ⟨_, _, _, _, floor⟩) h he,
    fun floor e h he => authenticated_of_tcbLevel (i := ⟨_, _, _, _, floor⟩) h he, ?_⟩
  intro policy e h he
  let i : Input :=
    ⟨currentTime, collateral, quote, expectedMrenclave, policy.minTcbEvaluationDataNumber⟩
  rcases Checks.bind_eq_error.mp h with h | ⟨r, hr, _⟩
  · exact absurd he (verify_ne_tcbStandingRejected (show i.verify C = _ from h))
  · obtain ⟨hauth, hdebug, _⟩ := Input.verify_eq_ok_iff.mp (show i.verify C = .ok r from hr)
    exact ⟨hauth, hdebug⟩

section

open Synthetic

/-- The evidence of a debug-mode enclave is authentic, and so is that of a platform whose hardening
a policy does not tolerate. -/
theorem rejected_evidence_authenticated :
    Authenticated (crates (registry "UpToDate"))
      ⟨currentTime, collateral "UpToDate", quote 7 pckChain, mrenclave, 17⟩ ∧
    Authenticated (crates (registry "SWHardeningNeeded"))
      ⟨currentTime, collateral "SWHardeningNeeded", quote 5 pckChain, mrenclave, 17⟩ := by
  have hrefused : verifyRemoteAttestationWithPolicy (crates (registry "SWHardeningNeeded"))
      currentTime (collateral "SWHardeningNeeded") (quote 5 pckChain) mrenclave ⟨17, false, true⟩ =
      .error (.reject (rejection "sw-hardening-needed" ["INTEL-SA-00615"])) := by
    decide +kernel
  refine ⟨(late_verdicts_authenticated _ _ _ _).1 17 _ debug_rejected rfl, ?_⟩
  exact ((late_verdicts_authenticated _ _ _ _).2.2 ⟨17, false, true⟩ _ hrefused rfl).1

end

end DcapVerify
