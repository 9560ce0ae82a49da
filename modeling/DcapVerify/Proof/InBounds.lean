import DcapVerify.Proof.Acceptance
import DcapVerify.Synthetic

/-!
# No partial operation leaves its domain

The crate indexes, slices, splits, copies between slices, negates and unwraps. In the model
each of these is a function that panics outside its domain, and here none of them ever
does. What keeps them inside comes from different places: the reader checks lengths before
it splits, the field widths of a report body add up to what was checked, a chain that was
decoded is not empty, a component number is looked at before it is used as an index, and
the one `expect` is on a key that the validated chains have decoded already.

Two error exits are dead for the same reason: past its length check a report body cannot
fail to parse, and a quote that still has its signature section to read is as long as its
signed portion.
-/

namespace DcapVerify

open ByteReader

/-- `m` ends in a value or in a rejection, never in a panic. -/
def InBounds {α : Type} (m : Outcome α) : Prop := ∀ operation, m ≠ .error (.panic operation)

theorem RejectsIn.inBounds {α : Type} {S : List ErrorCategory} {m : Outcome α}
    (h : RejectsIn S m) : InBounds m :=
  h.no_panic

/-! ## The report body -/

/-- **The length check is the only error exit of `parse` that is ever taken.** -/
theorem SgxReportBody.parse_eq_error {raw : Bytes} {f : Fault} :
    parse raw = .error f ↔ raw.length ≠ reportBodyLen ∧ f = .reject ⟨.quoteParse,
      s!"report body must be {reportBodyLen} bytes, got {raw.length}"⟩ := by
  by_cases h : raw.length = reportBodyLen
  · obtain ⟨b, hb⟩ := parse_of_length h
    rw [hb]
    exact iff_of_false (fun he => by cases he) fun hne => hne.1 h
  · rw [parse, rejectIf, if_pos h, DcapVerify.reject, Checks.error_bind, Except.error.injEq]
    exact ⟨fun he => ⟨h, he.symm⟩, fun he => he.2.symm⟩

/-! ## The quote -/

/-- What the exit behind the report body says. -/
def shorterThanSigned : String := "quote shorter than its signed portion"

/-- A rejection at another exit. -/
def Elsewhere (f : Fault) : Prop := ∃ e, f = .reject e ∧ e.detail ≠ shorterThanSigned

theorem append_ne {a b s t : String} (hlen : s.toList.length = t.toList.length) (hne : s ≠ t) :
    a ++ s ≠ b ++ t := by
  intro h
  have hlist := congrArg String.toList h
  rw [String.toList_append, String.toList_append] at hlist
  exact hne (String.toList_injective (List.append_inj_right' hlist hlen))

theorem head?_append {c : Char} {s t : String} (h : s.toList.head? = some c) :
    (s ++ t).toList.head? = some c := by
  rw [String.toList_append, List.head?_append, h]
  rfl

theorem ne_of_head? {c : Char} {s : String} (h : s.toList.head? = some c) (hc : c ≠ 'q') :
    s ≠ shorterThanSigned := by
  rintro rfl
  exact hc (Option.some.inj (h.symm.trans (by decide)))

/-- A short read is told apart by how its message ends. -/
theorem elsewhere_short : OfShortRead Elsewhere := by
  intro what n remaining
  refine ⟨_, rfl, ?_⟩
  have hsplit : shorterThanSigned = "quote shorter than its signed " ++ "portion" := by decide
  rw [hsplit]
  exact append_ne (by decide) (by decide)

/-- The other checks by how theirs begins. -/
theorem elsewhere_rejectIf {cond : Prop} [Decidable cond] {e : VerifyError} {c : Char}
    (h : e.detail.toList.head? = some c) (hc : c ≠ 'q') :
    Checks.Raises Elsewhere (rejectIf cond e) := by
  rw [rejectIf]
  split
  · exact Checks.Raises.error ⟨e, rfl, ne_of_head? h hc⟩
  · exact Checks.Raises.ok ()

/-- The array that was read has the length that is checked again. -/
theorem elsewhere_parse {raw : Bytes} (h : raw.length = reportBodyLen) :
    Checks.Raises Elsewhere (SgxReportBody.parse raw) := by
  obtain ⟨b, hb⟩ := SgxReportBody.parse_of_length h
  rw [hb]
  exact Checks.Raises.ok b

theorem elsewhere_signatureFields : Wire.Fails Elsewhere SgxQuote.readSignatureFields := by
  have ha (n : Nat) (what : String) := fails_array_of elsewhere_short n what
  have ht (n : Nat) (what : String) := fails_take_of elsewhere_short n what
  have h16 (what : String) := fails_u16Le_of elsewhere_short what
  have h32 (what : String) := fails_u32Le_of elsewhere_short what
  refine .bind (reads_array 64 _) (ha 64 _) fun _ _ _ =>
    .bind (reads_array 64 _) (ha 64 _) fun _ _ _ =>
    .bind (reads_array 384 _) (ha 384 _) fun raw _ _ =>
    .bind (Wire.Reads.lift _) (.lift (elsewhere_parse raw.toList_length)) fun _ _ _ =>
    .bind (reads_array 64 _) (ha 64 _) fun _ _ _ =>
    .bind (reads_u16Le _) (h16 _) fun _ _ _ => .bind (reads_take _ _) (ht _ _) fun _ _ _ =>
    .bind (reads_u16Le _) (h16 _) fun _ _ _ =>
    .bind reads_check (.lift (elsewhere_rejectIf (c := 'c') ?_ (by decide))) fun _ _ _ =>
    .bind (reads_u32Le _) (h32 _) fun _ _ _ => .bind (reads_take _ _) (ht _ _) fun _ _ _ => .pure _
  repeat apply head?_append
  decide

theorem elsewhere_readSignature (raw : Bytes) :
    Checks.Raises Elsewhere (SgxQuote.readSignature raw) := by
  refine .bind (elsewhere_signatureFields raw) fun _ _ =>
    .bind (elsewhere_rejectIf (c := 's') ?_ (by decide)) fun _ _ => .ok _
  repeat apply head?_append
  decide

section

variable {α : Type} {input : Bytes} {pos : Nat}

theorem elsewhere_at_array {n : Nat} {what : String} {f : U8Array n → ByteReader α}
    (hf : ∀ a, Wire.FailsAt input (pos + n) Elsewhere (f a)) :
    Wire.FailsAt input pos Elsewhere (array n what >>= f) :=
  .bind (reads_array n what) (fun a _ h => h.2 ▸ a.toList_length)
    (fails_array_of elsewhere_short n what) fun a _ _ => hf a

theorem elsewhere_at_u16Le {what : String} {f : UInt16 → ByteReader α}
    (hf : ∀ n, Wire.FailsAt input (pos + 2) Elsewhere (f n)) :
    Wire.FailsAt input pos Elsewhere (u16Le what >>= f) :=
  .bind (reads_u16Le what) (fun n _ h => h.2 ▸ le16_length n)
    (fails_u16Le_of elsewhere_short what) fun n _ _ => hf n

theorem elsewhere_at_u32Le {what : String} {f : UInt32 → ByteReader α}
    (hf : ∀ n, Wire.FailsAt input (pos + 4) Elsewhere (f n)) :
    Wire.FailsAt input pos Elsewhere (u32Le what >>= f) :=
  .bind (reads_u32Le what) (fun n _ h => h.2 ▸ le32_length n)
    (fails_u32Le_of elsewhere_short what) fun n _ _ => hf n

end

/-- The reads before the exit add up to the signed portion. -/
theorem elsewhere_quoteFields (input : Bytes) :
    Wire.FailsAt input 0 Elsewhere (SgxQuote.readFields input) := by
  have hend (what : String) : Wire.Fails Elsewhere (u32Le what) :=
    fails_u32Le_of elsewhere_short what
  unfold SgxQuote.readFields
  refine elsewhere_at_u16Le fun version => .lift_bind (fun _ => ?_) fun _ _ =>
    elsewhere_at_u16Le fun attKeyType => .lift_bind (fun _ => ?_) fun _ _ =>
    elsewhere_at_u32Le fun reserved => elsewhere_at_u16Le fun qeSvn =>
    elsewhere_at_u16Le fun pceSvn => elsewhere_at_array fun qeVendorId =>
    elsewhere_at_array fun userData => .bind (reads_take 384 _) (fun _ _ h => h.2 ▸ h.1)
      (fails_take_of elsewhere_short _ _) fun body _ hbody =>
    .lift_bind (fun _ => elsewhere_parse hbody.1) fun _ _ => .lift_bind (fun hlen => ?_) fun _ _ =>
    .of_fails (.bind (reads_u32Le _) (hend _) fun _ _ _ =>
      .bind (reads_take _ _) (fails_take_of elsewhere_short _ _) fun _ _ _ =>
      .bind (Wire.Reads.lift _) (.lift (elsewhere_readSignature _)) fun _ _ _ => .pure _)
  · refine elsewhere_rejectIf (c := 'o') ?_ (by decide)
    repeat apply head?_append
    decide
  · refine elsewhere_rejectIf (c := 'o') ?_ (by decide)
    repeat apply head?_append
    decide
  · -- 48 bytes of header and 384 of body have been read
    have hsigned : quoteSignedLen ≤ input.length := hlen
    rw [SgxQuote.getTo, if_pos hsigned]
    exact Checks.Raises.ok _

/-- **Reading a quote ends in the quote or in a rejection, and never at that exit.** -/
theorem read_elsewhere (bytes : Bytes) : Checks.Raises Elsewhere (SgxQuote.read bytes).1 := by
  intro f hf
  obtain ⟨_, hfields⟩ := SgxQuote.read_error (t := (SgxQuote.read bytes).2) (Prod.ext hf rfl)
  exact elsewhere_quoteFields bytes bytes (Nat.zero_add _).symm f hfields

/-! ## The clock -/

/-- `-x` on an `i64`, which overflows at the minimum. -/
def negI64 (x : Int) : Outcome Int :=
  if x = -(2 ^ 63) then .error (.panic "attempt to negate with overflow") else .ok (-x)

/-- `unix_seconds` with the negation as the machine does it. -/
def unixSecondsI64 (t : SystemTime) : Outcome Int :=
  match t.durationSinceEpoch with
  | .ok secs => .ok (i64Saturating secs)
  | .error secs => negI64 (i64Saturating secs)

theorem i64Saturating_range (secs : Nat) :
    0 ≤ i64Saturating secs ∧ i64Saturating secs < 2 ^ 63 := by
  unfold i64Saturating i64Max
  split <;> omega

/-- **The negation never overflows**, since saturation stops short of the minimum. -/
theorem unixSecondsI64_eq (t : SystemTime) : unixSecondsI64 t = .ok (unixSeconds t) := by
  unfold unixSecondsI64 unixSeconds
  cases t.durationSinceEpoch with
  | ok secs => rfl
  | error secs =>
      have hrange := i64Saturating_range secs
      have hmin : ¬ i64Saturating secs = -(2 ^ 63) := by omega
      exact if_neg hmin

/-! ## Chains -/

variable {C : Crates}

theorem ParsedChain.leaf_rejectsIn {S : List ErrorCategory} {chain : ParsedChain}
    (h : chain.certs ≠ []) : RejectsIn S chain.leaf := by
  rw [ParsedChain.leaf_eq_ok.mpr (List.head?_eq_some_head h)]
  exact .ok _

theorem ParsedChain.root_rejectsIn {S : List ErrorCategory} {chain : ParsedChain}
    (h : chain.certs ≠ []) : RejectsIn S chain.root := by
  rw [ParsedChain.root_eq_ok.mpr (List.getLast?_eq_some_getLast h)]
  exact .ok _

theorem ParsedChain.leafVerifyingKey_rejectsIn {chain : ParsedChain} (h : chain.certs ≠ []) :
    RejectsIn [.rootCaUntrusted] (chain.leafVerifyingKey C) :=
  .bind (leaf_rejectsIn h) fun _ _ => spkiVerifyingKey_rejectsIn C _ _

/-- **A decoded chain has a leaf and a root.** -/
theorem leaf_root_of_decoded {kind : ChainKind} {data : Bytes} {chain : CertChain}
    {parsed : ParsedChain} (hpem : CertChain.fromPem C kind data = .ok chain)
    (hparse : chain.parse C = .ok parsed) :
    (∃ cert, parsed.leaf = .ok cert) ∧ ∃ cert, parsed.root = .ok cert := by
  have hload : loadChain C kind data = .ok parsed := by
    rw [loadChain_of_pem hpem, hparse]
  have hne := (loadChain_eq_ok C hload).2.1
  exact ⟨⟨_, ParsedChain.leaf_eq_ok.mpr (List.head?_eq_some_head hne)⟩,
    ⟨_, ParsedChain.root_eq_ok.mpr (List.getLast?_eq_some_getLast hne)⟩⟩

/-- The terminal certificate is its own issuer, so the pinned key has been decoded. -/
theorem ValidPath.pinnedRootKey_eq_ok {certs : List X509Certificate} (h : ValidPath C certs) :
    ∃ key, pinnedRootKey C = .ok key := by
  obtain ⟨root, _, hpin, hissued⟩ := h.rooted.exists_anchor
  obtain ⟨key, _, hkey, _⟩ := hissued.signature
  rw [hpin] at hkey
  exact ⟨key, by rw [pinnedRootKey, hkey]⟩

/-! ## The pipeline -/

/-- The slots are decoded. -/
def Input.Loaded (C : Crates) (i : Input) : Prop := ∀ kind, (i.chain C kind).certs ≠ []

namespace Stage

/-- The stages up to the last decoding. -/
def loading : List Stage :=
  [.qeVendor, .mrenclave, .formats,
    .pem .tcbInfoIssuer, .pem .pckCrlIssuer, .pem .qeIdentityIssuer, .pem .quotePck,
    .der .tcbInfoIssuer, .der .pckCrlIssuer, .der .qeIdentityIssuer, .der .quotePck]

/-- The stages that validate the chains. -/
def paths : List Stage :=
  [.path .tcbInfoIssuer, .path .pckCrlIssuer, .path .qeIdentityIssuer, .path .quotePck]

/-- The stages that use them. -/
def afterPaths : List Stage := (order.drop loading.length).drop paths.length

theorem order_eq : order = loading ++ (paths ++ afterPaths) := rfl

variable {i : Input}

theorem check_loading_rejectsIn (i : Input) :
    ∀ s ∈ loading, RejectsIn s.categories (check C s i) := by
  simp only [loading, List.forall_mem_cons, List.not_mem_nil, false_implies, implies_true, and_true]
  have hpem (kind : ChainKind) : RejectsIn (Stage.pem kind).categories (check C (.pem kind) i) :=
    .bind (CertChain.fromPem_rejectsIn C _ _) fun _ _ => .ok _
  have hder (kind : ChainKind) : RejectsIn (Stage.der kind).categories (check C (.der kind) i) :=
    .bind (loadChain_rejectsIn C _ _) fun _ _ => .ok _
  exact ⟨checkQeVendor_rejectsIn C _, checkMrenclave_rejectsIn C _ _,
    checkDocumentFormats_rejectsIn _, hpem _, hpem _, hpem _, hpem _, hder _, hder _, hder _,
    hder _⟩

/-- **Every stage keeps to its categories and in bounds**, once the chains are decoded and the
pinned key decodes. -/
theorem check_rejectsIn (s : Stage) (hloaded : i.Loaded C)
    (hkey : ∃ key, pinnedRootKey C = .ok key) : RejectsIn s.categories (check C s i) := by
  have hleafKey (kind : ChainKind) :=
    ParsedChain.leafVerifyingKey_rejectsIn (C := C) (hloaded kind)
  cases s with
  | qeVendor => exact checkQeVendor_rejectsIn C _
  | mrenclave => exact checkMrenclave_rejectsIn C _ _
  | formats => exact checkDocumentFormats_rejectsIn _
  | pem kind => exact .bind (CertChain.fromPem_rejectsIn C _ _) fun _ _ => .ok _
  | der kind => exact .bind (loadChain_rejectsIn C _ _) fun _ _ => .ok _
  | path kind => exact ParsedChain.validate_rejectsIn (hloaded kind)
  | signingLeaf doc =>
      refine .bind (.bind (ParsedChain.leaf_rejectsIn (hloaded _)) fun _ _ => .okOrReject ?_)
        fun _ _ => .rejectIf (by simp [categories])
      simp [categories, Input.chain_kind]
  | crlScope =>
      exact .bind (.bind (ParsedChain.leaf_rejectsIn (hloaded _)) fun _ _ => .ok _) fun _ _ =>
        .bind (.bind (ParsedChain.leaf_rejectsIn (hloaded _)) fun _ _ => .ok _) fun _ _ =>
        .rejectIf (by simp [categories])
  | rootCrl =>
      obtain ⟨key, hkey⟩ := hkey
      refine .bind ?_ fun _ _ => .ok _
      rw [Input.checkRootCrl, hkey, Checks.ok_bind]
      exact .bind (.bind (ParsedChain.root_rejectsIn (hloaded _)) fun _ _ => .ok _) fun _ _ =>
        checkCrl_rejectsIn C _ _ _ _ _
  | pckCrl =>
      exact .bind (.bind (.bind (ParsedChain.leaf_rejectsIn (hloaded _)) fun _ _ => .ok _)
        fun _ _ => .bind ((hleafKey _).mono (by simp [categories])) fun _ _ =>
        (checkCrl_rejectsIn C _ _ _ _ _).mono (by simp [categories])) fun _ _ => .ok _
  | noneRevoked => exact ensureNoneRevoked_rejectsIn C _ _
  | signature doc =>
      exact .bind ((hleafKey _).mono (by simp [categories])) fun _ _ =>
        (verifyRawHexSignature_rejectsIn C _ _ _ _).mono (by simp [categories])
  | tcbInfoId => exact checkTcbInfoId_rejectsIn _
  | validityWindow doc => exact checkValidityWindow_rejectsIn _ _ _ _ _
  | evaluationRound doc => exact checkEvaluationRound_rejectsIn _ _ _ _
  | qeIdentity => exact checkQeIdentity_rejectsIn C _ _
  | qeReportSignature =>
      exact .bind ((hleafKey _).mono (by simp [categories])) fun _ _ =>
        (checkQeReportSignature_rejectsIn C _ _).mono (by simp [categories])
  | qeBinding => exact checkQeBinding_rejectsIn C _
  | quoteSignature => exact checkQuoteSignature_rejectsIn C _
  | debug => exact checkDebug_rejectsIn C _

/-- A list of stages, each of which keeps in bounds. -/
theorem run_rejectsIn {stages : List Stage}
    (h : ∀ s ∈ stages, RejectsIn s.categories (check C s i)) :
    RejectsIn ErrorCategory.all (Checks.run (stages.map (check C)) i) := by
  refine Checks.Raises.forM fun g hg => ?_
  obtain ⟨s, hs, rfl⟩ := List.mem_map.mp hg
  exact (h s hs).mono fun k _ => k.mem_all

theorem passes_of_run {stages : List Stage} {u : Unit}
    (h : Checks.run (stages.map (check C)) i = .ok u) : ∀ s ∈ stages, check C s i = .ok () :=
  List.forall_mem_map.mp (Checks.run_eq_ok.mp h)

end Stage

namespace Input

variable {i : Input}

/-- Past the decoding stages every slot is loaded. -/
theorem loaded_of_passes (h : ∀ s ∈ Stage.loading, Stage.check C s i = .ok ()) : i.Loaded C := by
  intro kind
  have hmem : Stage.der kind ∈ Stage.loading := by cases kind <;> decide
  exact (loadChain_eq_ok C (loadChain_of_der (h _ hmem))).2.1

/-- Past the validating stages the pinned key has been decoded. -/
theorem pinnedRootKey_of_passes (h : ∀ s ∈ Stage.paths, Stage.check C s i = .ok ()) :
    ∃ key, pinnedRootKey C = .ok key := by
  have hpath := h (.path .quotePck) (by decide)
  exact (ParsedChain.validate_eq_ok.mp hpath).1.pinnedRootKey_eq_ok

theorem result_rejectsIn (h : i.Loaded C) : RejectsIn ErrorCategory.all (i.result C) :=
  .bind ((extractPckPlatformTcb_rejectsIn C (h .quotePck)).mono fun k _ => k.mem_all) fun _ _ =>
    .bind ((platformStanding_rejectsIn C _ _).mono fun k _ => k.mem_all) fun _ _ => .ok _

/-- **A run ends in a verdict or in a rejection.** -/
theorem verify_rejectsIn (i : Input) : RejectsIn ErrorCategory.all (i.verify C) := by
  rw [verify_eq, Stage.runAll, Stage.order_eq, List.map_append, List.map_append, Checks.run_append,
    Checks.run_append, bind_assoc]
  refine .bind (Stage.run_rejectsIn (Stage.check_loading_rejectsIn i)) fun _ hload => ?_
  have hloaded := loaded_of_passes (Stage.passes_of_run hload)
  rw [bind_assoc]
  refine .bind (Stage.run_rejectsIn fun s hs => ?_) fun _ hpaths => ?_
  · obtain ⟨kind, rfl⟩ : ∃ kind, s = .path kind := by
      simp only [Stage.paths, List.mem_cons, List.not_mem_nil, or_false] at hs
      rcases hs with rfl | rfl | rfl | rfl <;> exact ⟨_, rfl⟩
    exact ParsedChain.validate_rejectsIn (hloaded kind)
  · have hkey := pinnedRootKey_of_passes (Stage.passes_of_run hpaths)
    exact .bind (Stage.run_rejectsIn fun s _ => Stage.check_rejectsIn s hloaded hkey) fun _ _ =>
      result_rejectsIn hloaded

end Input

theorem pckCollateralParams_rejectsIn (quote : SgxQuote) :
    RejectsIn [.quoteParse] (pckCollateralParams C quote) := by
  have hassoc : pckCollateralParams C quote =
      (loadChain C .quotePck quote.signature.certData >>= fun parsed => do
        let fmspc := (← extractPckPlatformTcb C parsed).fmspc
        let leaf ← parsed.leaf
        let issuerCn ← okOrReject (leaf.issuer.commonNames.head?.bind Except.toOption)
          ⟨.quoteParse, "PCK leaf issuer has no readable common name"⟩
        let pckCa ← pckCaNamed issuerCn
        pure (fmspc, pckCa)) := by
    rw [loadChain, bind_assoc]
    rfl
  rw [hassoc]
  refine .bind (loadChain_rejectsIn C _ _) fun parsed hload => ?_
  have hne := (loadChain_eq_ok C hload).2.1
  refine .bind (extractPckPlatformTcb_rejectsIn C hne) fun _ _ =>
    .bind (ParsedChain.leaf_rejectsIn hne) fun _ _ => .bind (.okOrReject (by simp)) fun cn _ =>
    .bind ?_ fun _ _ => .ok _
  unfold pckCaNamed
  split
  · exact .ok _
  · split
    · exact .ok _
    · exact .reject (by simp)

/-! ## Peeking -/

/-- Where the range is there, the conversion to an array succeeds. -/
theorem peek_eq_none {bytes : Bytes} {off n : Nat} :
    (getRange bytes off (off + n)).bind (tryInto n) = none ↔ bytes.length < off + n := by
  rw [getRange]
  split
  · rename_i h
    have hlen : ((bytes.drop off).take (off + n - off)).length = n := by
      rw [List.length_take, List.length_drop]
      omega
    rw [Option.bind_some, tryInto, dif_pos hlen]
    exact iff_of_false (Option.some_ne_none _) (by omega)
  · rename_i h
    exact iff_of_true rfl (by omega)

/--
**No partial operation leaves its domain.**

Reading, verifying and selecting collateral end in a value or in a rejection on every
input. The parts named one by one are those the rest stands on; the last two are the exits
that are never taken.
-/
theorem no_partial_operation_fails (C : Crates) :
    (∀ bytes : Bytes, InBounds (SgxQuote.read bytes).1) ∧
    (∀ bytes : Bytes, (peekMrenclave bytes = none ↔ bytes.length < peekMrenclaveOffset + 32) ∧
      (peekReportData bytes = none ↔ bytes.length < peekReportDataOffset + 64)) ∧
    (∀ (currentTime : SystemTime) (collateral : SgxCollateral) (quote : SgxQuote)
        (expectedMrenclave : MREnclave) (minTcbEvaluationDataNumber : UInt32),
      InBounds (verifyRemoteAttestation C currentTime collateral quote expectedMrenclave
        minTcbEvaluationDataNumber)) ∧
    (∀ quote : SgxQuote, InBounds (pckCollateralParams C quote)) ∧
    (∀ (kind : ChainKind) (data : Bytes) (chain : CertChain) (parsed : ParsedChain),
      CertChain.fromPem C kind data = .ok chain → chain.parse C = .ok parsed →
      (∃ cert, parsed.leaf = .ok cert) ∧ ∃ cert, parsed.root = .ok cert) ∧
    (∀ (slots : PckSlots) (entry : BerObject), InBounds (tcbEntry slots entry)) ∧
    (∀ signature : SgxEcdsaSignature, InBounds (checkQeBinding C signature)) ∧
    (∀ bytes : Bytes, (∃ trimmed, trimTrailingJunk bytes = .ok trimmed) ∧
      ∃ serial, normalizedSerial bytes = .ok serial) ∧
    (∀ t : SystemTime, unixSecondsI64 t = .ok (unixSeconds t)) ∧
    (∀ (raw : Bytes) (f : Fault), SgxReportBody.parse raw = .error f →
      raw.length ≠ reportBodyLen ∧ f = .reject ⟨.quoteParse,
        s!"report body must be {reportBodyLen} bytes, got {raw.length}"⟩) ∧
    ∀ (bytes : Bytes) (e : VerifyError), (SgxQuote.read bytes).1 = .error (.reject e) →
      e.detail ≠ "quote shorter than its signed portion" := by
  refine ⟨fun bytes operation h => ?_, fun bytes => ⟨peek_eq_none, peek_eq_none⟩, ?_,
    fun quote => (pckCollateralParams_rejectsIn quote).inBounds,
    fun _ _ _ _ => leaf_root_of_decoded,
    fun slots entry => (tcbEntry_rejectsIn slots entry).inBounds,
    fun signature => (checkQeBinding_rejectsIn C signature).inBounds,
    fun bytes => ⟨⟨_, trimTrailingJunk_eq bytes⟩, ⟨_, normalizedSerial_eq bytes⟩⟩,
    unixSecondsI64_eq, fun raw f => SgxReportBody.parse_eq_error.mp, fun bytes e h => ?_⟩
  · obtain ⟨e, he, _⟩ := read_elsewhere bytes _ h
    cases he
  · intro currentTime collateral quote expectedMrenclave floor
    exact (Input.verify_rejectsIn
      ⟨currentTime, collateral, quote, expectedMrenclave, floor⟩).inBounds
  · obtain ⟨e', he, hne⟩ := read_elsewhere bytes _ h
    cases he
    exact hne

/-- An empty report body fails at the length check, an empty quote before the exit, and the chain
an honest quote embeds has a leaf and a root. -/
theorem empty_inputs_rejected :
    SgxReportBody.parse [] =
      .error (.reject ⟨.quoteParse, "report body must be 384 bytes, got 0"⟩) ∧
    (∃ e, (SgxQuote.read []).1 = .error (.reject e) ∧
      e.detail ≠ "quote shorter than its signed portion") ∧
    ∃ chain parsed, CertChain.fromPem (Synthetic.crates (Synthetic.registry "UpToDate")) .quotePck
        Synthetic.pckChain = .ok chain ∧
      chain.parse (Synthetic.crates (Synthetic.registry "UpToDate")) = .ok parsed ∧
      (∃ cert, parsed.leaf = .ok cert) ∧ ∃ cert, parsed.root = .ok cert := by
  obtain ⟨_, _, _, _, hchain, _, _, _, _, hparse, hread⟩ :=
    no_partial_operation_fails (Synthetic.crates (Synthetic.registry "UpToDate"))
  refine ⟨?_, ⟨_, rfl, hread [] _ rfl⟩, ?_⟩
  · obtain ⟨_, hf⟩ := hparse [] _ rfl
    exact congrArg Except.error hf
  · let i : Input := ⟨Synthetic.currentTime, Synthetic.collateral "UpToDate",
      Synthetic.quote 5 Synthetic.pckChain, Synthetic.mrenclave, 17⟩
    obtain ⟨hpass, _⟩ := (Input.verify_eq_ok (i := i)).mp Synthetic.honest_accepted
    obtain ⟨chain, hpem, hparsed⟩ :=
      Checks.bind_eq_ok.mp (Input.loadChain_of_der (hpass (.der .quotePck)))
    exact ⟨chain, _, hpem, hparsed, hchain _ _ _ _ hpem hparsed⟩

end DcapVerify
