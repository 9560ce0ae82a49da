import DcapVerify.Lib.Trim
import DcapVerify.Proof.Revocation

/-!
# Trailing junk

A PEM text may be followed by NUL bytes and ASCII whitespace, and by nothing else, without
either consumer noticing. The CRLs are trimmed before anything looks at them. The chains
are measured first: the cap counts the trailer too, so a text that fits without it may be
refused with it, and within the cap the trailer changes nothing.
-/

namespace DcapVerify

open Trim

/-- NUL, space, tab, line feed, form feed and carriage return. -/
def trailerBytes : List UInt8 := [0, 32, 9, 10, 12, 13]

theorem isTrailingJunk_iff {b : UInt8} : isTrailingJunk b = true ↔ b ∈ trailerBytes := by
  simp only [isTrailingJunk, isAsciiWhitespace, Bool.or_eq_true, beq_iff_eq, trailerBytes,
    List.mem_cons, List.not_mem_nil, or_false, or_assoc]

theorem isTrailingJunk_eq_false {b : UInt8} : isTrailingJunk b = false ↔ b ∉ trailerBytes := by
  rw [← Bool.not_eq_true, isTrailingJunk_iff]

abbrev IsTrailer (bytes : Bytes) : Prop := ∀ b ∈ bytes, b ∈ trailerBytes

theorem IsTrailer.droppable {bytes : Bytes} (h : IsTrailer bytes) :
    Droppable isTrailingJunk bytes :=
  fun b hb => isTrailingJunk_iff.mpr (h b hb)

/-- Two texts that are the same text with different trailers, either of which may be empty. -/
def SameButTrailer (data data' : Bytes) : Prop :=
  ∃ text j j', IsTrailer j ∧ IsTrailer j' ∧ data = text ++ j ∧ data' = text ++ j'

theorem SameButTrailer.append {j : Bytes} (data : Bytes) (hj : IsTrailer j) :
    SameButTrailer data (data ++ j) :=
  ⟨data, [], j, fun _ hb => absurd hb List.not_mem_nil, hj, (List.append_nil data).symm, rfl⟩

/-- **Trimming forgets the trailer and nothing else.** -/
theorem trimTrailingJunk_eq_iff {data data' : Bytes} :
    trimTrailingJunk data = trimTrailingJunk data' ↔ SameButTrailer data data' := by
  rw [trimTrailingJunk_eq, trimTrailingJunk_eq, Except.ok.injEq, rdropWhile_eq_iff]
  refine ⟨fun h => ?_, fun h => ?_⟩
  · obtain ⟨text, j, j', hj, hj', hd, hd'⟩ := h
    exact ⟨text, j, j', fun b hb => isTrailingJunk_iff.mp (hj b hb),
      fun b hb => isTrailingJunk_iff.mp (hj' b hb), hd, hd'⟩
  · obtain ⟨text, j, j', hj, hj', hd, hd'⟩ := h
    exact ⟨text, j, j', hj.droppable, hj'.droppable, hd, hd'⟩

/-- The last byte, if any, is not one of a trailer. -/
def EndsClean (bytes : Bytes) : Prop := ∀ b, bytes.getLast? = some b → b ∉ trailerBytes

theorem endsClean_iff {bytes : Bytes} : EndsClean bytes ↔ Clean isTrailingJunk bytes :=
  forall_congr' fun _ => imp_congr_right fun _ => isTrailingJunk_eq_false.symm

/-- The longest prefix that ends clean. -/
structure LongestClean (data trimmed : Bytes) : Prop where
  isPrefix : trimmed <+: data
  clean : EndsClean trimmed
  longest : ∀ q, q <+: data → EndsClean q → q.length ≤ trimmed.length

/-- **Trimming returns the longest prefix that ends clean.** -/
theorem trimTrailingJunk_longest {data trimmed : Bytes} :
    trimTrailingJunk data = .ok trimmed ↔ LongestClean data trimmed := by
  rw [trimTrailingJunk_eq, Except.ok.injEq]
  have hpre : data.rdropWhile isTrailingJunk <+: data := List.rdropWhile_prefix _ _
  have hclean : EndsClean (data.rdropWhile isTrailingJunk) :=
    endsClean_iff.mpr (clean_rdropWhile data)
  refine ⟨fun h => ?_, fun h => ?_⟩
  · rw [← h]
    exact ⟨hpre, hclean, fun q hq hc => (prefix_rdropWhile hq (endsClean_iff.mp hc)).length_le⟩
  · have hle := prefix_rdropWhile h.isPrefix (endsClean_iff.mp h.clean)
    exact (hle.eq_of_length_le (h.longest _ hpre hclean)).symm

theorem trimTrailingJunk_idempotent {data trimmed : Bytes}
    (h : trimTrailingJunk data = .ok trimmed) : trimTrailingJunk trimmed = .ok trimmed := by
  rw [trimTrailingJunk_eq, Except.ok.injEq] at h
  rw [trimTrailingJunk_eq, ← h, List.rdropWhile_idempotent]

/-! ## The two consumers -/

variable {C : Crates}

theorem decodeCrl_congr {data data' : Bytes} (h : SameButTrailer data data') (label : String) :
    decodeCrl C label data' = decodeCrl C label data := by
  rw [decodeCrl, decodeCrl, trimTrailingJunk_eq_iff.mpr h]

theorem checkCrl_congr {data data' : Bytes} (h : SameButTrailer data data') (label : String)
    (issuerRaw : Bytes) (issuerKey : C.VerifyingKey) (now : Int) :
    checkCrl C label data' issuerRaw issuerKey now =
      checkCrl C label data issuerRaw issuerKey now := by
  rw [checkCrl, checkCrl, decodeCrl_congr h]

/-- Both texts fit under the cap on chains, which counts the trailer. -/
theorem fromPem_congr {data data' : Bytes} (h : SameButTrailer data data')
    (hfits : data.length ≤ maxChainPemLen) (hfits' : data'.length ≤ maxChainPemLen)
    (kind : ChainKind) : CertChain.fromPem C kind data' = CertChain.fromPem C kind data := by
  have hcap : ¬ data.length > maxChainPemLen := not_lt.mpr hfits
  have hcap' : ¬ data'.length > maxChainPemLen := not_lt.mpr hfits'
  rw [CertChain.fromPem, CertChain.fromPem, rejectIf, rejectIf, if_neg hcap, if_neg hcap',
    trimTrailingJunk_eq_iff.mpr h]

/-- Over the cap the text is not looked at. -/
theorem fromPem_over_cap {data : Bytes} (h : maxChainPemLen < data.length) (kind : ChainKind) :
    ∃ e, CertChain.fromPem C kind data = .error (.reject e) ∧ e.category = kind.parseCategory := by
  rw [CertChain.fromPem, rejectIf, if_pos h]
  exact ⟨_, rfl, ChainKind.parseError_category ..⟩

/-! ## The whole run -/

/-- The PEM texts of a collateral. -/
structure PemTexts where
  tcbInfoIssuerChain : String
  pckCrlIssuerChain : String
  qeIdentityIssuerChain : String
  rootCaCrl : String
  pckCrl : String

def SgxCollateral.pemTexts (c : SgxCollateral) : PemTexts :=
  { tcbInfoIssuerChain := c.tcbInfoIssuerChain, pckCrlIssuerChain := c.pckCrlIssuerChain,
    qeIdentityIssuerChain := c.qeIdentityIssuerChain, rootCaCrl := c.rootCaCrl,
    pckCrl := c.pckCrl }

/-- The same collateral with other PEM texts. -/
def SgxCollateral.withPemTexts (c : SgxCollateral) (x : PemTexts) : SgxCollateral :=
  { c with
    tcbInfoIssuerChain := x.tcbInfoIssuerChain
    pckCrlIssuerChain := x.pckCrlIssuerChain
    qeIdentityIssuerChain := x.qeIdentityIssuerChain
    rootCaCrl := x.rootCaCrl
    pckCrl := x.pckCrl }

/-- The same chain text, or one that differs in its trailer and is under the cap both times. -/
def SameChainText (s s' : String) : Prop :=
  s' = s ∨ SameButTrailer (asBytes s) (asBytes s') ∧ (asBytes s).length ≤ maxChainPemLen ∧
    (asBytes s').length ≤ maxChainPemLen

theorem SameChainText.fromPem_eq {s s' : String} (h : SameChainText s s') (kind : ChainKind) :
    CertChain.fromPem C kind (asBytes s') = CertChain.fromPem C kind (asBytes s) := by
  rcases h with rfl | ⟨hsame, hfits, hfits'⟩
  · rfl
  · exact fromPem_congr hsame hfits hfits' kind

/-- Trailers were added to or removed from any of the five texts. -/
structure PemTexts.SameButTrailers (x x' : PemTexts) : Prop where
  tcbInfoIssuerChain : SameChainText x.tcbInfoIssuerChain x'.tcbInfoIssuerChain
  pckCrlIssuerChain : SameChainText x.pckCrlIssuerChain x'.pckCrlIssuerChain
  qeIdentityIssuerChain : SameChainText x.qeIdentityIssuerChain x'.qeIdentityIssuerChain
  rootCaCrl : SameButTrailer (asBytes x.rootCaCrl) (asBytes x'.rootCaCrl)
  pckCrl : SameButTrailer (asBytes x.pckCrl) (asBytes x'.pckCrl)

/-- **No run notices a trailer.** -/
theorem verify_withPemTexts {c : SgxCollateral} {x : PemTexts}
    (h : c.pemTexts.SameButTrailers x) (currentTime : SystemTime) (quote : SgxQuote)
    (expectedMrenclave : MREnclave) (floor : UInt32) :
    verifyRemoteAttestation C currentTime (c.withPemTexts x) quote expectedMrenclave floor =
      verifyRemoteAttestation C currentTime c quote expectedMrenclave floor := by
  have hformats : checkDocumentFormats (c.withPemTexts x) = checkDocumentFormats c := rfl
  rw [verifyRemoteAttestation, verifyRemoteAttestation, hformats]
  simp only [SgxCollateral.withPemTexts, h.tcbInfoIssuerChain.fromPem_eq,
    h.pckCrlIssuerChain.fromPem_eq, h.qeIdentityIssuerChain.fromPem_eq,
    checkCrl_congr h.rootCaCrl, checkCrl_congr h.pckCrl]
  rfl

/--
**The trailer leniency is exactly trailing NUL and ASCII whitespace.**

Trimming a text drops a trailer and nothing else: what it returns is the longest prefix
that ends clean, and trimming that again changes nothing. So neither consumer can tell two
texts apart that differ in their trailers, the chains within their cap, and neither can a
run of the verifier.
-/
theorem trailers_exact (C : Crates) :
    (∀ d j : Bytes, IsTrailer j → trimTrailingJunk (d ++ j) = trimTrailingJunk d) ∧
    (∀ d : Bytes, ∃ trimmed, trimTrailingJunk d = .ok trimmed ∧
      trimTrailingJunk trimmed = .ok trimmed ∧ ∀ q, LongestClean d q ↔ q = trimmed) ∧
    (∀ (label : String) (d j issuerRaw : Bytes) (issuerKey : C.VerifyingKey) (now : Int),
      IsTrailer j →
      checkCrl C label (d ++ j) issuerRaw issuerKey now =
        checkCrl C label d issuerRaw issuerKey now) ∧
    (∀ (kind : ChainKind) (d j : Bytes), IsTrailer j → d.length + j.length ≤ maxChainPemLen →
      CertChain.fromPem C kind (d ++ j) = CertChain.fromPem C kind d) ∧
    (∀ (kind : ChainKind) (d j : Bytes), maxChainPemLen < d.length + j.length →
      ∃ e, CertChain.fromPem C kind (d ++ j) = .error (.reject e)) ∧
    ∀ (currentTime : SystemTime) (c : SgxCollateral) (x : PemTexts) (quote : SgxQuote)
        (expectedMrenclave : MREnclave) (floor : UInt32),
      c.pemTexts.SameButTrailers x →
      verifyRemoteAttestation C currentTime (c.withPemTexts x) quote expectedMrenclave floor =
        verifyRemoteAttestation C currentTime c quote expectedMrenclave floor := by
  refine ⟨fun d j hj => ?_, fun d => ?_, fun label d j issuerRaw issuerKey now hj => ?_,
    fun kind d j hj hfits => ?_, fun kind d j hover => ?_,
    fun currentTime c x quote expectedMrenclave floor h => ?_⟩
  · exact (trimTrailingJunk_eq_iff.mpr (.append d hj)).symm
  · refine ⟨_, trimTrailingJunk_eq d, trimTrailingJunk_idempotent (trimTrailingJunk_eq d),
      fun q => ?_⟩
    rw [← trimTrailingJunk_longest, trimTrailingJunk_eq, Except.ok.injEq, eq_comm]
  · exact checkCrl_congr (.append d hj) label issuerRaw issuerKey now
  · refine fromPem_congr (.append d hj) (by omega) ?_ kind
    rw [List.length_append]
    exact hfits
  · rw [← List.length_append] at hover
    exact (fromPem_over_cap hover kind).imp fun _ he => he.1
  · exact verify_withPemTexts h currentTime quote expectedMrenclave floor

/-- The honest collateral with a trailer after each of its five texts is accepted like the
original, and a chain text that its trailer takes over the cap is refused. -/
theorem trailing_junk_accepted :
    let C := Synthetic.crates (Synthetic.registry "UpToDate")
    trimTrailingJunk (asBytes "30" ++ [10, 0, 32]) = trimTrailingJunk (asBytes "30") ∧
    checkCrl C "PCK CRL" (asBytes "B" ++ [0]) [] [] 0 = checkCrl C "PCK CRL" (asBytes "B") [] [] 0 ∧
    CertChain.fromPem C .quotePck (asBytes "210" ++ [0]) =
      CertChain.fromPem C .quotePck (asBytes "210") ∧
    (∃ e, CertChain.fromPem C .quotePck ([] ++ List.replicate 65537 32) = .error (.reject e)) ∧
    verifyRemoteAttestation C Synthetic.currentTime
      ((Synthetic.collateral "UpToDate").withPemTexts
        ⟨"30\n", "10 \t", "30\x00", "A\r\n", "B\x0c"⟩)
      (Synthetic.quote 5 Synthetic.pckChain) Synthetic.mrenclave 17 =
        .ok (.upToDate, Synthetic.report 5 (Synthetic.zeros 64)) := by
  intro C
  have hempty : IsTrailer [] := fun _ hb => absurd hb List.not_mem_nil
  obtain ⟨htrim, _, hcrl, hpem, hover, hverify⟩ := trailers_exact C
  refine ⟨htrim _ _ (by decide +kernel), hcrl _ _ _ _ _ _ (by decide +kernel),
    hpem _ _ _ (by decide +kernel) (by decide),
    hover _ _ _ (by rw [List.length_replicate]; decide),
    (hverify _ _ _ _ _ _ ?_).trans Synthetic.honest_accepted⟩
  refine ⟨.inr ⟨⟨asBytes "30", [], [10], hempty, ?_, rfl, rfl⟩, ?_⟩,
    .inr ⟨⟨asBytes "10", [], [32, 9], hempty, ?_, rfl, rfl⟩, ?_⟩,
    .inr ⟨⟨asBytes "30", [], [0], hempty, ?_, rfl, rfl⟩, ?_⟩,
    ⟨asBytes "A", [], [13, 10], hempty, ?_, rfl, rfl⟩,
    ⟨asBytes "B", [], [12], hempty, ?_, rfl, rfl⟩⟩ <;> decide +kernel

end DcapVerify
