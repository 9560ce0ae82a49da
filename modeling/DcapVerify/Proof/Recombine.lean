import DcapVerify.Proof.Footprint

/-!
# Recombined collateral

Collateral has four pieces that are signed apart: the root CA CRL, the PCK CRL with
its issuer chain, and the two documents with theirs. Pieces of different collateral
can be put together. Apart from the revocation stage every stage looks at one piece,
beside the quote, so pieces that were accepted are accepted again. What is left is
whether the CRLs of one list a certificate of another.
-/

namespace DcapVerify

variable {C : Crates}

/-- The pieces of a collateral that are signed apart. -/
inductive Piece where
  | rootCrl
  | pckCrl
  | tcbInfo
  | qeIdentity
  deriving DecidableEq, Repr

def ChainKind.piece : ChainKind → Piece
  | .tcbInfoIssuer | .quotePck => .tcbInfo
  | .pckCrlIssuer => .pckCrl
  | .qeIdentityIssuer => .qeIdentity

def Document.piece : Document → Piece
  | .tcbInfo => .tcbInfo
  | .qeIdentity => .qeIdentity

/-- The piece a stage looks at; any will do for a stage that looks at the quote alone. -/
def Stage.piece : Stage → Piece
  | .rootCrl => .rootCrl
  | .crlScope | .pckCrl => .pckCrl
  | .pem kind | .der kind | .path kind => kind.piece
  | .signingLeaf doc | .signature doc | .validityWindow doc | .evaluationRound doc => doc.piece
  | .qeIdentity => .qeIdentity
  | _ => .tcbInfo

/-- Each piece from the collateral that is named for it. -/
def SgxCollateral.assemble (donor : Piece → SgxCollateral) : SgxCollateral where
  version := 3
  rootCaCrl := (donor .rootCrl).rootCaCrl
  pckCrl := (donor .pckCrl).pckCrl
  tcbInfoIssuerChain := (donor .tcbInfo).tcbInfoIssuerChain
  pckCrlIssuerChain := (donor .pckCrl).pckCrlIssuerChain
  qeIdentityIssuerChain := (donor .qeIdentity).qeIdentityIssuerChain
  tcbInfo := (donor .tcbInfo).tcbInfo
  qeIdentity := (donor .qeIdentity).qeIdentity

namespace Input

/-- The same call with other collateral. -/
def withCollateral (i : Input) (c : SgxCollateral) : Input := { i with collateral := c }

/-- Neither CRL of the run has an entry for a certificate of its chains. -/
def Unrevoked (C : Crates) (i : Input) : Prop :=
  ∀ crl, RootCrl C i crl ∨ PckCrl C i crl → ∀ kind, ∀ cert ∈ (i.chain C kind).certs,
    (⟨cert.issuer.asRaw, serialKey cert.rawSerial⟩ : RevokedEntry) ∉ crl.entries C

variable {i : Input} {donor : Piece → SgxCollateral}

/-- A stage does not notice where the other pieces come from. -/
theorem check_assemble_eq {s : Stage} (hformats : s ≠ .formats) (hrevoked : s ≠ .noneRevoked) :
    Stage.check C s (i.withCollateral (.assemble donor)) =
      Stage.check C s (i.withCollateral (donor s.piece)) := by
  cases s with
  | formats => exact absurd rfl hformats
  | noneRevoked => exact absurd rfl hrevoked
  | pem kind | der kind | path kind => cases kind <;> rfl
  | signingLeaf doc | signature doc | validityWindow doc | evaluationRound doc => cases doc <;> rfl
  | _ => rfl

/-- **Every stage but one passes** on pieces that have passed. -/
theorem check_assemble (hpass : ∀ p s, Stage.check C s (i.withCollateral (donor p)) = .ok ())
    {s : Stage} (hrevoked : s ≠ .noneRevoked) :
    Stage.check C s (i.withCollateral (.assemble donor)) = .ok () := by
  by_cases hformats : s = .formats
  · -- the version is the assembled one's own, the rest is what each document declares
    have htcb := checkDocumentFormats_eq_ok.mp (hpass .tcbInfo .formats)
    have hqe := checkDocumentFormats_eq_ok.mp (hpass .qeIdentity .formats)
    rw [hformats]
    exact checkDocumentFormats_eq_ok.mpr
      { envelope := rfl
        tcbInfo := htcb.tcbInfo
        qeIdentity := hqe.qeIdentity
        tcbType := htcb.tcbType }
  · rw [check_assemble_eq hformats hrevoked]
    exact hpass s.piece s

/-- The verdict is on the TCB info's piece. -/
theorem result_assemble : (i.withCollateral (.assemble donor)).result C =
    (i.withCollateral (donor .tcbInfo)).result C := rfl

/-- The revocation stage of an assembled run. -/
theorem noneRevoked_assemble
    (hpass : ∀ p s, Stage.check C s (i.withCollateral (donor p)) = .ok ()) :
    Stage.check C .noneRevoked (i.withCollateral (.assemble donor)) = .ok () ↔
      (i.withCollateral (.assemble donor)).Unrevoked C :=
  Stage.noneRevoked_passes (rootCrl_passes.mp (check_assemble hpass (by decide)))
    (pckCrl_passes.mp (check_assemble hpass (by decide)))

theorem verify_assemble {r : Piece → TcbStanding × SgxReportBody}
    (haccept : ∀ p, (i.withCollateral (donor p)).verify C = .ok (r p)) :
    ((i.withCollateral (.assemble donor)).Unrevoked C →
      (i.withCollateral (.assemble donor)).verify C = .ok (r .tcbInfo)) ∧
    (¬ (i.withCollateral (.assemble donor)).Unrevoked C →
      ∃ e, (i.withCollateral (.assemble donor)).verify C = .error (.reject e) ∧
        e.category = .crlInvalid) := by
  have hpass : ∀ p s, Stage.check C s (i.withCollateral (donor p)) = .ok () := fun p =>
    (verify_eq_ok.mp (haccept p)).1
  have hrevoked := noneRevoked_assemble hpass
  refine ⟨fun h => verify_eq_ok.mpr ⟨fun s => ?_, ?_⟩, fun h => ?_⟩
  · by_cases hs : s = .noneRevoked
    · rw [hs]
      exact hrevoked.mpr h
    · exact check_assemble hpass hs
  · rw [result_assemble]
    exact (verify_eq_ok.mp (haccept .tcbInfo)).2
  · cases hcheck : Stage.check C .noneRevoked (i.withCollateral (.assemble donor)) with
    | ok u => exact absurd (hrevoked.mp hcheck) h
    | error f =>
        obtain ⟨e, rfl, he⟩ := (ensureNoneRevoked_rejectsIn C _ _).exists_reject hcheck
        have hbefore : ∀ s ∈ Stage.noneRevoked.before, s ≠ .noneRevoked := by decide
        exact ⟨e, verify_stops (fun s hs => check_assemble hpass (hbefore s hs)) hcheck,
          List.mem_singleton.mp he⟩

end Input

/--
**Recombination is exact.**

Take the four pieces of a collateral from four that are accepted with one quote, at
one time, under one pin and floor. The assembled collateral has the outcome of the
one its TCB info came from, unless its CRLs revoke one of its certificates; then it
is rejected for that.
-/
theorem recombination_exact {currentTime : SystemTime} {quote : SgxQuote}
    {expectedMrenclave : MREnclave} {minTcbEvaluationDataNumber : UInt32}
    {donor : Piece → SgxCollateral} {r : Piece → TcbStanding × SgxReportBody}
    (haccept : ∀ p, verifyRemoteAttestation C currentTime (donor p) quote expectedMrenclave
      minTcbEvaluationDataNumber = .ok (r p)) :
    (Input.Unrevoked C ⟨currentTime, .assemble donor, quote, expectedMrenclave,
        minTcbEvaluationDataNumber⟩ →
      verifyRemoteAttestation C currentTime (.assemble donor) quote expectedMrenclave
        minTcbEvaluationDataNumber = .ok (r .tcbInfo)) ∧
    (¬ Input.Unrevoked C ⟨currentTime, .assemble donor, quote, expectedMrenclave,
        minTcbEvaluationDataNumber⟩ →
      ∃ e, verifyRemoteAttestation C currentTime (.assemble donor) quote expectedMrenclave
        minTcbEvaluationDataNumber = .error (.reject e) ∧ e.category = .crlInvalid) := by
  let base : Input := ⟨currentTime, donor .tcbInfo, quote, expectedMrenclave,
    minTcbEvaluationDataNumber⟩
  exact Input.verify_assemble (i := base) haccept

section

open Synthetic

/-- Another key of the TCB signing authority. -/
def tcbSigningNext : Authority := ⟨tcbSigning.cn, key 6⟩

/-- The honest PKI a round later: certificate `7` for the next key, CRLs `E` and `F` with other
entries, and CRL `G` with the certificate `7` itself. -/
def nextRegistry : Registry :=
  let reg := registry "UpToDate"
  { reg with
    certs := reg.certs ++ [issue root tcbSigningNext [7] false []]
    crls := reg.crls ++ [issueCrl root.cn root.key [[8], [9]], issueCrl pckCa.cn pckCa.key [],
      issueCrl root.cn root.key [[7]]] }

/-- The next round of each piece, beside the other pieces of the honest collateral. -/
def nextRound (rootCaCrl : String) (p : Piece) : SgxCollateral :=
  let c := collateral "UpToDate"
  match p with
  | .rootCrl => { c with rootCaCrl }
  | .pckCrl => { c with pckCrl := "F" }
  | .tcbInfo =>
      { c with
        tcbInfoIssuerChain := "70"
        tcbInfo := ⟨"tcb-info 18",
          { tcbInfo "SWHardeningNeeded" with tcbEvaluationDataNumber := 18 },
          hexEncode (sign tcbSigningNext.key (asBytes "tcb-info 18")).toList⟩ }
  | .qeIdentity =>
      { c with
        qeIdentity := ⟨"qe-identity 18",
          { qeIdentity with tcbEvaluationDataNumber := 18, tcbLevels := [⟨⟨6⟩, "UpToDate"⟩] },
          hexEncode (sign tcbSigning.key (asBytes "qe-identity 18")).toList⟩ }

def nextStanding (p : Piece) : TcbStanding :=
  if p = .tcbInfo then .swHardeningNeeded ["INTEL-SA-00615"] else .upToDate

/-- A next round of any piece but the root CRL is accepted with the honest ones. -/
theorem nextRound_accepted_of_ne {p : Piece} (hp : p ≠ .rootCrl) (rootCaCrl : String) :
    verifyRemoteAttestation (crates nextRegistry) currentTime (nextRound rootCaCrl p)
      (quote 5 pckChain) mrenclave 17 = .ok (nextStanding p, report 5 (zeros 64)) := by
  have hsame : nextRound rootCaCrl p = nextRound "E" p := by
    cases p with
    | rootCrl => exact absurd rfl hp
    | _ => rfl
  rw [hsame]
  cases p with
  | rootCrl => exact absurd rfl hp
  | _ => decide +kernel

/-- So are both root CRLs. -/
theorem nextRound_accepted {rootCaCrl : String} (h : rootCaCrl = "E" ∨ rootCaCrl = "G")
    (p : Piece) :
    verifyRemoteAttestation (crates nextRegistry) currentTime (nextRound rootCaCrl p)
      (quote 5 pckChain) mrenclave 17 = .ok (nextStanding p, report 5 (zeros 64)) := by
  by_cases hp : p = .rootCrl
  · rw [hp]
    rcases h with rfl | rfl <;> decide +kernel
  · exact nextRound_accepted_of_ne hp rootCaCrl

/-- Four pieces of the next round have the standing of its TCB info, and are rejected when its root
CRL lists the certificate that the TCB info is signed with. -/
theorem recombined_accepted :
    verifyRemoteAttestation (crates nextRegistry) currentTime (.assemble (nextRound "E"))
      (quote 5 pckChain) mrenclave 17 =
        .ok (.swHardeningNeeded ["INTEL-SA-00615"], report 5 (zeros 64)) ∧
    ∃ e, verifyRemoteAttestation (crates nextRegistry) currentTime (.assemble (nextRound "G"))
      (quote 5 pckChain) mrenclave 17 = .error (.reject e) ∧ e.category = .crlInvalid := by
  let i : Input := ⟨currentTime, collateral "UpToDate", quote 5 pckChain, mrenclave, 17⟩
  have hpass {rootCaCrl : String} (h : rootCaCrl = "E" ∨ rootCaCrl = "G") : ∀ p s,
      Stage.check (crates nextRegistry) s (i.withCollateral (nextRound rootCaCrl p)) = .ok () :=
    fun p => ((Input.verify_eq_ok (i := i.withCollateral (nextRound rootCaCrl p))).mp
      (nextRound_accepted h p)).1
  refine ⟨?_, ?_⟩
  · have hunlisted : Stage.check (crates nextRegistry) .noneRevoked
        (i.withCollateral (.assemble (nextRound "E"))) = .ok () := by decide +kernel
    exact (recombination_exact (nextRound_accepted (.inl rfl))).1
      ((Input.noneRevoked_assemble (hpass (.inl rfl))).mp hunlisted)
  · have hlisted : Stage.check (crates nextRegistry) .noneRevoked
        (i.withCollateral (.assemble (nextRound "G"))) ≠ .ok () := by decide +kernel
    exact (recombination_exact (nextRound_accepted (.inr rfl))).2
      fun h => hlisted ((Input.noneRevoked_assemble (hpass (.inr rfl))).mpr h)

end

end DcapVerify
