import DcapVerify.Differ.Pipeline
import DcapVerify.Proof.Authentication

/-!
# Peeking agrees with verifying

Three helpers read a quote before it is verified: the measurement and the report
data at fixed offsets, and the collateral selectors from the chain it embeds. None
of them proves anything. What they read is nevertheless what the verifying path
works with, on every quote that parses and on every input that is accepted.
-/

namespace DcapVerify

/-! ## The offsets -/

theorem getRange_eq_slice {bytes : Bytes} {off len : Nat} (h : off + len ≤ bytes.length) :
    getRange bytes off (off + len) = some (Octets.slice off len bytes) := by
  rw [getRange, if_pos ⟨Nat.le_add_right _ _, h⟩, Nat.add_sub_cancel_left, Octets.slice]

/-- The range at a field's offset is the field. -/
theorem peek_eq_some {bytes : Bytes} {n off : Nat} {a : U8Array n} (h : off + n ≤ bytes.length)
    (hs : Octets.slice off n bytes = a.toList) :
    (getRange bytes off (off + n)).bind (tryInto n) = some a := by
  rw [getRange_eq_slice h, hs]
  exact tryInto_eq_some.mpr rfl

/-- A field of the report body, found at its offset in the whole input. -/
theorem read_slice {b t : Bytes} {quote : SgxQuote} (h : SgxQuote.read b = (.ok quote, t))
    (off len : Nat) (hfits : off + len ≤ reportBodyLen) :
    48 + off + len ≤ b.length ∧
      Octets.slice (48 + off) len b =
        Octets.slice off len (Octets.slice 48 384 quote.signedBytes) := by
  obtain ⟨p, hp, rfl⟩ := QuoteV3.read_eq_ok_iff.mp h
  have hlen : p.signed.toList.length = 432 := p.signed.toList_length
  have hbody : reportBodyLen = 384 := rfl
  rw [hbody] at hfits
  refine ⟨?_, ?_⟩
  · rw [QuoteV3.bytes, List.length_append, List.length_append, hlen]
    omega
  · rw [QuoteV3.bytes, List.append_assoc, Octets.slice_append_left (by omega),
      Octets.slice_slice hfits, hp.signedBytes]

/-- **The peeks read the fields the parser reads**, whatever follows the quote. -/
theorem peek_of_read {b t : Bytes} {quote : SgxQuote} (h : SgxQuote.read b = (.ok quote, t)) :
    peekMrenclave b = some quote.reportBody.mrenclave ∧
      peekReportData b = some quote.reportBody.sgxReportDataBytes := by
  obtain ⟨_, hparse, _⟩ := read_bodies h
  have henc := SgxReportBody.parse_eq_ok.mp hparse
  refine ⟨?_, ?_⟩
  · obtain ⟨hfits, hslice⟩ := read_slice h 64 32 (by decide)
    exact peek_eq_some hfits (hslice.trans henc.mrenclave_slice)
  · obtain ⟨hfits, hslice⟩ := read_slice h 320 64 (by decide)
    exact peek_eq_some hfits (hslice.trans henc.reportData_slice)

/-! ## The differ's pin -/

variable {C : Crates}

theorem mrenclave_only {s : Stage} (h : ErrorCategory.mrenclaveMismatch ∈ s.categories) :
    s = .mrenclave := by
  have hall : ∀ s ∈ Stage.order,
      ErrorCategory.mrenclaveMismatch ∈ s.categories → s = .mrenclave := by decide
  exact hall s s.mem_order h

/-- A pin that is met is never reported as missed. -/
theorem verify_ne_mrenclaveMismatch {i : Input}
    (hpin : i.quote.reportBody.mrenclave = i.expectedMrenclave) {e : VerifyError}
    (h : i.verify C = .error (.reject e)) : e.category ≠ .mrenclaveMismatch := by
  intro he
  rcases Input.verify_rejected C h with ⟨s, hfail, hcat⟩ | ⟨_, hcat⟩
  · obtain rfl := mrenclave_only (he ▸ hcat)
    have hpass : Stage.check C .mrenclave i = .ok () := (checkMrenclave_eq_ok C).mpr hpin
    rw [hpass] at hfail
    cases hfail
  · rw [he] at hcat
    simp at hcat

/-- **`run_dcap` pins what the quote measures**, so it never reports a missed pin. -/
theorem runDcap_ne_mrenclaveMismatch (collateralFromSlice : Bytes → Except String SgxCollateral)
    (quoteBytes collateralJson : Bytes) (currentTime : Int64) (detail : String) :
    Differ.runDcap C collateralFromSlice quoteBytes collateralJson currentTime ≠
      .reject .mrenclaveMismatch detail := by
  have hrun : RejectsOnly (ErrorCategory.all.filter (· ≠ .mrenclaveMismatch))
      (Differ.runDcapUnwinding C collateralFromSlice quoteBytes collateralJson currentTime) := by
    refine .bind (RejectsIn.only (.orReject fun _ => by simp [ErrorCategory.all]))
      fun collateral _ => .bind ?_ fun quote hquote => .bind ?_ fun _ _ => .ok _
    · intro f hf k hk
      have hread : SgxQuote.read quoteBytes = (.error f, (SgxQuote.read quoteBytes).2) :=
        Prod.ext hf rfl
      rw [(SgxQuote.read_failure hread).2] at hk
      cases hk
      simp [ErrorCategory.all]
    · have hread : SgxQuote.read quoteBytes = (.ok quote, (SgxQuote.read quoteBytes).2) :=
        Prod.ext hquote rfl
      have hpeek := (peek_of_read hread).1
      intro f hf k hk
      cases f with
      | panic op => cases hk
      | reject e =>
          cases hk
          rw [hpeek, Option.getD_some] at hf
          have hne := verify_ne_mrenclaveMismatch
            (i := ⟨Differ.systemTime currentTime, collateral, quote, _, 0⟩) rfl hf
          exact List.mem_filter.mpr ⟨ErrorCategory.mem_all _, by simpa using hne⟩
  intro h
  unfold Differ.runDcap at h
  split at h
  · cases h
  · rename_i e he
    simp only [Differ.DcapOutcome.reject.injEq] at h
    have hmem := hrun _ he e.category rfl
    rw [h.1] at hmem
    simp at hmem
  · cases h

/-! ## The collateral selectors -/

/-- The issuer's first common name, if it reads as a string. -/
def X509Certificate.issuerCn (cert : X509Certificate) : Option String :=
  cert.issuer.commonNames.head?.bind Except.toOption

/-- The common name a PCK CA goes by. -/
def PckCa.commonName : PckCa → String
  | .processor => pckProcessorCaCn
  | .platform => pckPlatformCaCn

theorem pckCaNamed_eq_ok {cn : String} {ca : PckCa} :
    pckCaNamed cn = .ok ca ↔ cn = ca.commonName := by
  unfold pckCaNamed
  refine ⟨fun h => ?_, fun h => ?_⟩
  · split at h
    · rename_i hcn
      cases h
      exact hcn
    · split at h
      · rename_i hcn
        cases h
        exact hcn
      · exact absurd h reject_ne_ok
  · subst h
    cases ca <;> decide

/-- An issuer that is not one of the two PCK CAs: its name does not read, or is another's. -/
inductive UnrecognisedIssuer (leaf : X509Certificate) : Fault → Prop where
  | unreadable : leaf.issuerCn = none →
      UnrecognisedIssuer leaf
        (.reject ⟨.quoteParse, "PCK leaf issuer has no readable common name"⟩)
  | other {cn : String} : leaf.issuerCn = some cn → (∀ ca : PckCa, cn ≠ ca.commonName) →
      UnrecognisedIssuer leaf
        (.reject ⟨.quoteParse, s!"PCK leaf issuer CN '{cn}' is not an Intel SGX PCK CA"⟩)

theorem pckCaNamed_eq_error {leaf : X509Certificate} {cn : String} {f : Fault}
    (hcn : leaf.issuerCn = some cn) (h : pckCaNamed cn = .error f) : UnrecognisedIssuer leaf f := by
  have hother : ∀ ca : PckCa, cn ≠ ca.commonName := by
    intro ca hca
    rw [pckCaNamed_eq_ok.mpr hca] at h
    cases h
  have hprocessor : ¬ cn = pckProcessorCaCn := hother .processor
  have hplatform : ¬ cn = pckPlatformCaCn := hother .platform
  rw [pckCaNamed, if_neg hprocessor, if_neg hplatform] at h
  cases h
  exact .other hcn hother

/-- Past the chain and the extension, only the issuer's name is left to read. -/
theorem pckCollateralParams_eq {quote : SgxQuote} {chain : ParsedChain} {tcb : PckPlatformTcb}
    {leaf : X509Certificate} (hload : loadChain C .quotePck quote.signature.certData = .ok chain)
    (htcb : extractPckPlatformTcb C chain = .ok tcb) (hleaf : chain.leaf = .ok leaf) :
    pckCollateralParams C quote =
      (okOrReject leaf.issuerCn ⟨.quoteParse, "PCK leaf issuer has no readable common name"⟩ >>=
        fun cn => pckCaNamed cn >>= fun ca => pure (tcb.fmspc, ca)) := by
  obtain ⟨pem, hpem, hparse⟩ := Checks.bind_eq_ok.mp hload
  rw [pckCollateralParams, hpem, Checks.ok_bind, hparse, Checks.ok_bind, htcb, Checks.ok_bind,
    hleaf, Checks.ok_bind]
  rfl

variable (C)

/-- The selectors read from the quote of `i`, tied to what the run on `i` compared. -/
structure SelectorsVouched (i : Input) (fmspc : U8Array 6) (ca : PckCa) : Prop where
  fmspc : C.hexDecode i.collateral.tcbInfo.body.fmspc = .ok fmspc.toList
  issuer : ∃ chain leaf crl, loadChain C .quotePck i.quote.signature.certData = .ok chain ∧
    chain.certs.head? = some leaf ∧ leaf.issuerCn = some ca.commonName ∧
    PckCrl C i crl ∧ crl.issuer.asRaw = leaf.issuer.asRaw

variable {C}

/-- On an accepted input the selectors agree with the run, or the issuer is not a PCK CA. -/
theorem pckCollateralParams_of_accepted {i : Input} {r : TcbStanding × SgxReportBody}
    (h : i.verify C = .ok r) :
    (∀ f, pckCollateralParams C i.quote = .error f →
      ∃ chain leaf, loadChain C .quotePck i.quote.signature.certData = .ok chain ∧
        chain.certs.head? = some leaf ∧ UnrecognisedIssuer leaf f) ∧
    ∀ fmspc ca, pckCollateralParams C i.quote = .ok (fmspc, ca) →
      SelectorsVouched C i fmspc ca := by
  obtain ⟨hauth, _, tcb, htcb, hjudged, _⟩ := Input.verify_eq_ok_iff.mp h
  obtain ⟨crl, hcrl⟩ := hauth.pckCrl
  obtain ⟨leaf, _, _, hleaf, _, _, hvalid⟩ := hcrl.valid
  have hload := hauth.decoded .quotePck
  have hparams := pckCollateralParams_eq hload htcb (ParsedChain.leaf_eq_ok.mpr hleaf)
  refine ⟨fun f hf => ⟨_, leaf, hload, hleaf, ?_⟩, fun fmspc ca hok => ?_⟩
  · rw [hparams] at hf
    cases hcn : leaf.issuerCn with
    | none =>
        rw [hcn] at hf
        cases hf
        exact .unreadable hcn
    | some cn =>
        rw [hcn, okOrReject, Checks.ok_bind, Checks.bind_eq_error] at hf
        rcases hf with hf | ⟨_, _, hf⟩
        · exact pckCaNamed_eq_error hcn hf
        · cases hf
  · rw [hparams] at hok
    simp only [Checks.bind_eq_ok, okOrReject_eq_ok, pckCaNamed_eq_ok, Checks.pure_eq_ok,
      Prod.mk.injEq] at hok
    obtain ⟨cn, hcn, _, rfl, rfl, rfl⟩ := hok
    exact ⟨hjudged.fmspc, _, leaf, crl, hload, hleaf, hcn, hcrl, hvalid.issuer⟩

/--
**The unverified paths agree with the verified one.**

The peeks read the fields of every quote that parses; the differ, which pins what it
peeked at, never reports a missed pin; and on every accepted input the collateral
selectors are the ones the run compared, or the issuer's name is not a PCK CA's.
-/
theorem peeks_agree_with_verification (C : Crates) :
    (∀ b t quote, SgxQuote.read b = (.ok quote, t) →
      peekMrenclave b = some quote.reportBody.mrenclave ∧
        peekReportData b = some quote.reportBody.sgxReportDataBytes) ∧
    (∀ collateralFromSlice quoteBytes collateralJson currentTime detail,
      Differ.runDcap C collateralFromSlice quoteBytes collateralJson currentTime ≠
        .reject .mrenclaveMismatch detail) ∧
    ∀ currentTime collateral quote expectedMrenclave floor r,
      verifyRemoteAttestation C currentTime collateral quote expectedMrenclave floor = .ok r →
      (∀ f, pckCollateralParams C quote = .error f →
        ∃ chain leaf, loadChain C .quotePck quote.signature.certData = .ok chain ∧
          chain.certs.head? = some leaf ∧ UnrecognisedIssuer leaf f) ∧
      ∀ fmspc ca, pckCollateralParams C quote = .ok (fmspc, ca) →
        SelectorsVouched C ⟨currentTime, collateral, quote, expectedMrenclave, floor⟩ fmspc ca :=
  ⟨fun _ _ _ h => peek_of_read h, runDcap_ne_mrenclaveMismatch,
    fun currentTime collateral quote expectedMrenclave floor _ h =>
      pckCollateralParams_of_accepted
        (i := ⟨currentTime, collateral, quote, expectedMrenclave, floor⟩) h⟩

namespace Synthetic

/-- The PCK CA under the name the crate recognises. -/
def processorCa : Authority := ⟨"Intel SGX PCK Processor CA", key 6⟩

/-- The honest PKI with certificates `7` and `8` and CRL `E` of the Processor CA. -/
def processorCrates : Crates :=
  let reg := registry "UpToDate"
  crates
    { reg with
      certs := reg.certs ++ [issue root processorCa [7] true [],
        issue processorCa pckLeaf [0x5a, 3] false [⟨⟨sgxOid []⟩, [0]⟩]]
      crls := reg.crls ++ [issueCrl processorCa.cn processorCa.key []] }

def processorCollateral : SgxCollateral :=
  { collateral "UpToDate" with pckCrl := "E", pckCrlIssuerChain := "70" }

def processorQuote : SgxQuote := quote 5 (asBytes "870")

theorem processor_accepted :
    verifyRemoteAttestation processorCrates currentTime processorCollateral processorQuote mrenclave
      17 = .ok (.upToDate, report 5 (zeros 64)) := by
  decide +kernel

end Synthetic

open Synthetic in
/-- A quote under the Processor CA, peeked at and verified. -/
theorem processor_selectors :
    peekMrenclave processorQuote.encode = some mrenclave ∧
      pckCollateralParams processorCrates processorQuote =
        .ok (⟨[0, 0x90, 0x6e, 0xa1, 0, 0], rfl⟩, .processor) ∧
      SelectorsVouched processorCrates
        ⟨currentTime, processorCollateral, processorQuote, mrenclave, 17⟩
        ⟨[0, 0x90, 0x6e, 0xa1, 0, 0], rfl⟩ .processor := by
  have hread := @read_encode_quote 5 (asBytes "870") (by decide)
  have hparams : pckCollateralParams processorCrates processorQuote =
      .ok (⟨[0, 0x90, 0x6e, 0xa1, 0, 0], rfl⟩, .processor) := by decide +kernel
  obtain ⟨hpeek, _, hselect⟩ := peeks_agree_with_verification processorCrates
  exact ⟨(hpeek _ _ _ hread).1, hparams,
    (hselect _ _ _ _ _ _ processor_accepted).2 _ _ hparams⟩

end DcapVerify
