import DcapVerify.Lib.Octets
import DcapVerify.Lib.Window
import DcapVerify.Verify
import Mathlib.Data.Int.ConditionallyCompleteOrder

/-!
# What the checks on the two documents establish

One exactness lemma for each check on the TCB info and on the QE identity, and for
the checks both share. `QeMatches` and `Judged` say what the last two establish:
that the quoting enclave is the one Intel describes, and that a standing is what
the TCB info says about a platform.
-/

namespace DcapVerify

/-! ## Shared checks -/

/-- The only document formats the verifier was written for. -/
structure SupportedFormats (collateral : SgxCollateral) : Prop where
  envelope : collateral.version = 3
  tcbInfo : collateral.tcbInfo.body.version = 3
  qeIdentity : collateral.qeIdentity.body.version = 2
  tcbType : collateral.tcbInfo.body.tcbType = 0

theorem checkDocumentFormats_eq_ok {collateral : SgxCollateral} :
    checkDocumentFormats collateral = .ok () ↔ SupportedFormats collateral := by
  simp only [checkDocumentFormats, Checks.seq_eq_ok, rejectIf_eq_ok, not_not]
  refine ⟨fun h => ?_, fun h => ?_⟩
  · obtain ⟨henvelope, hinfo, hidentity, htype⟩ := h
    exact ⟨henvelope, hinfo, hidentity, htype⟩
  · obtain ⟨henvelope, hinfo, hidentity, htype⟩ := h
    exact ⟨henvelope, hinfo, hidentity, htype⟩

theorem checkDocumentFormats_rejectsIn (collateral : SgxCollateral) :
    RejectsIn [.collateralParse] (checkDocumentFormats collateral) :=
  .bind (.rejectIf (by simp)) fun _ _ => .bind (.rejectIf (by simp)) fun _ _ =>
    .bind (.rejectIf (by simp)) fun _ _ => .rejectIf (by simp)

theorem checkValidityWindow_eq_ok {document : String} {issueDate nextUpdate now : Int}
    {stale : ErrorCategory} : checkValidityWindow document issueDate nextUpdate now stale = .ok () ↔
      (⟨issueDate, some nextUpdate⟩ : Window Int).Contains now := by
  rw [checkValidityWindow, Checks.seq_eq_ok, rejectIf_eq_ok, rejectIf_eq_ok, not_le, not_lt,
    Window.contains_some, and_comm]

theorem checkValidityWindow_rejectsIn (document : String) (issueDate nextUpdate now : Int)
    (stale : ErrorCategory) :
    RejectsIn [stale] (checkValidityWindow document issueDate nextUpdate now stale) :=
  .bind (.rejectIf (by simp)) fun _ _ => .rejectIf (by simp)

theorem checkEvaluationRound_eq_ok {document : String} {round minimum : UInt32}
    {stale : ErrorCategory} :
    checkEvaluationRound document round minimum stale = .ok () ↔ minimum ≤ round := by
  rw [checkEvaluationRound, rejectIf_eq_ok, UInt32.not_lt]

theorem checkEvaluationRound_rejectsIn (document : String) (round minimum : UInt32)
    (stale : ErrorCategory) :
    RejectsIn [stale] (checkEvaluationRound document round minimum stale) :=
  .rejectIf (by simp)

variable (C : Crates)

/-- `signatureHex` is the hex of a signature that verifies over `message`. -/
def HexSigned (key : C.VerifyingKey) (message : Bytes) (signatureHex : String) : Prop :=
  ∃ sigBytes sig, C.hexDecode signatureHex = .ok sigBytes ∧
    C.signatureFromSlice sigBytes = .ok sig ∧ C.verify key message sig = true

theorem verifyRawHexSignature_eq_ok {key : C.VerifyingKey} {message : Bytes} {signatureHex : String}
    {category : ErrorCategory} :
    verifyRawHexSignature C key message signatureHex category = .ok () ↔
      HexSigned C key message signatureHex := by
  simp only [verifyRawHexSignature, Checks.bind_eq_ok, orReject_eq_ok, rejectIf_eq_ok,
    Bool.not_eq_false, HexSigned]
  refine ⟨fun h => ?_, fun h => ?_⟩
  · obtain ⟨bytes, hb, sig, hs, hv⟩ := h
    exact ⟨bytes, sig, hb, hs, hv⟩
  · obtain ⟨bytes, sig, hb, hs, hv⟩ := h
    exact ⟨bytes, hb, sig, hs, hv⟩

theorem verifyRawHexSignature_rejectsIn (key : C.VerifyingKey) (message : Bytes)
    (signatureHex : String) (category : ErrorCategory) :
    RejectsIn [category] (verifyRawHexSignature C key message signatureHex category) :=
  .bind (.orReject fun _ => by simp) fun _ _ => .bind (.orReject fun _ => by simp) fun _ _ =>
    .rejectIf (by simp)

/-! ## Hex fields -/

theorem decodeHexField_eq_ok {n : Nat} {what value : String} {a : U8Array n} :
    decodeHexField C n what value = .ok a ↔ C.hexDecode value = .ok a.toList := by
  simp only [decodeHexField, Checks.bind_eq_ok, orReject_eq_ok, okOrReject_eq_ok, tryInto_eq_some]
  refine ⟨fun h => ?_, fun h => ⟨_, h, rfl⟩⟩
  obtain ⟨_, hdecode, rfl⟩ := h
  exact hdecode

theorem decodeHexField_rejectsIn (n : Nat) (what value : String) :
    RejectsIn [.collateralParse] (decodeHexField C n what value) :=
  .bind (.orReject fun _ => by simp) fun _ _ => .okOrReject (by simp)

/-! ## The QE identity -/

/-- The report's bytes agree with the identity's on every bit of the mask. -/
def AgreesUnder {n : Nat} (mask actual expected : U8Array n) : Prop :=
  ∀ k : Fin n, Octets.AgreeOn (mask.get k) (actual.get k) (expected.get k)

theorem maskedEq_iff {n : Nat} {actual expected mask : U8Array n} :
    maskedEq actual expected mask = true ↔ AgreesUnder mask actual expected := by
  have hmem (x : (UInt8 × UInt8) × UInt8) :
      x ∈ (actual.toList.zip expected.toList).zip mask.toList ↔
        ∃ k : Fin n, x = ((actual.get k, expected.get k), mask.get k) := by
    rw [List.mem_iff_getElem]
    refine ⟨fun h => ?_, fun h => ?_⟩
    · obtain ⟨k, hk, rfl⟩ := h
      have hkn : k < n := by simpa using hk
      exact ⟨⟨k, hkn⟩, by simp [List.Vector.get_eq_get_toList]⟩
    · obtain ⟨k, rfl⟩ := h
      exact ⟨k, by simp, by simp [List.Vector.get_eq_get_toList]⟩
  simp only [maskedEq, List.all_eq_true, hmem, beq_iff_eq, forall_exists_index,
    forall_eq_apply_imp_iff, Octets.and_eq_and_iff, AgreesUnder]

/-- The level `check_qe_identity` judges a report by. -/
def qeLevel (identity : QeIdentity) (report : SgxReportBody) : Option QeTcbLevel :=
  maxByKey (fun l : QeTcbLevel => l.tcb.isvsvn)
    (identity.tcbLevels.filter fun l => l.tcb.isvsvn ≤ report.isvSvn)

/-- `report` comes from the quoting enclave that `identity` describes, at a current level. -/
structure QeMatches (identity : QeIdentity) (report : SgxReportBody) : Prop where
  id : identity.id = "QE"
  mrsigner : C.hexDecode identity.mrsigner = .ok report.mrsigner.toList
  isvprodid : identity.isvprodid = report.isvProdId
  miscselect : ∃ value mask : U8Array 4, C.hexDecode identity.miscselect = .ok value.toList ∧
    C.hexDecode identity.miscselectMask = .ok mask.toList ∧
    AgreesUnder mask report.miscSelect value
  attributes : ∃ value mask : U8Array 16, C.hexDecode identity.attributes = .ok value.toList ∧
    C.hexDecode identity.attributesMask = .ok mask.toList ∧
    AgreesUnder mask report.attributes value
  level : ∃ l, qeLevel identity report = some l ∧ l.tcbStatus = "UpToDate"

theorem checkQeIdentity_eq_ok {identity : QeIdentity} {report : SgxReportBody} :
    checkQeIdentity C identity report = .ok () ↔ QeMatches C identity report := by
  simp only [checkQeIdentity, Checks.bind_eq_ok, decodeHexField_eq_ok, rejectIf_eq_ok, not_not,
    Bool.not_eq_false, maskedEq_iff]
  refine ⟨fun h => ?_, fun h => ?_⟩
  · obtain ⟨_, hid, _, hsigner, _, rfl, _, hprod, misc, hm, miscMask, hmm, _, hmisc, attr, ha,
      attrMask, ham, _, hattr, hl⟩ := h
    refine ⟨hid, hsigner, hprod, ⟨misc, miscMask, hm, hmm, hmisc⟩,
      ⟨attr, attrMask, ha, ham, hattr⟩, ?_⟩
    split at hl
    · rename_i level hlevel
      exact ⟨level, hlevel, Decidable.not_not.mp (rejectIf_eq_ok.mp hl)⟩
    · exact absurd hl reject_ne_ok
  · obtain ⟨hid, hsigner, hprod, ⟨misc, miscMask, hm, hmm, hmisc⟩, ⟨attr, attrMask, ha, ham, hattr⟩,
      level, hlevel, hstatus⟩ := h
    refine ⟨(), hid, _, hsigner, (), rfl, (), hprod, misc, hm, miscMask, hmm, (), hmisc, attr, ha,
      attrMask, ham, (), hattr, ?_⟩
    rw [qeLevel] at hlevel
    rw [hlevel]
    exact rejectIf_eq_ok.mpr (not_not.mpr hstatus)

theorem checkQeIdentity_rejectsIn (identity : QeIdentity) (report : SgxReportBody) :
    RejectsIn [.qeIdentityMismatch, .collateralParse] (checkQeIdentity C identity report) := by
  have hhex (n : Nat) (what value : String) :
      RejectsIn [.qeIdentityMismatch, .collateralParse] (decodeHexField C n what value) :=
    (decodeHexField_rejectsIn C n what value).mono (by simp)
  refine .bind (.rejectIf (by simp)) fun _ _ => .bind (hhex _ _ _) fun _ _ =>
    .bind (.rejectIf (by simp)) fun _ _ => .bind (.rejectIf (by simp)) fun _ _ =>
    .bind (hhex _ _ _) fun _ _ => .bind (hhex _ _ _) fun _ _ =>
    .bind (.rejectIf (by simp)) fun _ _ => .bind (hhex _ _ _) fun _ _ =>
    .bind (hhex _ _ _) fun _ _ => .bind (.rejectIf (by simp)) fun _ _ => ?_
  dsimp only
  split
  · exact .rejectIf (by simp)
  · exact .reject (by simp)

/-! ## The TCB info -/

/-- The platform meets the level: sixteen components, none above the platform's, nor the PCESVN. -/
structure LevelMet (level : TcbLevel) (pck : PckPlatformTcb) : Prop where
  count : level.tcb.sgxtcbcomponents.length = 16
  components : ∀ (k : Fin 16) (component : TcbComponent),
    level.tcb.sgxtcbcomponents[k.val]? = some component → component.svn ≤ pck.compSvns.get k
  pcesvn : level.tcb.pcesvn ≤ pck.pcesvn

theorem levelSatisfied_iff {level : TcbLevel} {pck : PckPlatformTcb} :
    levelSatisfied level pck = true ↔ LevelMet level pck := by
  simp only [levelSatisfied, Bool.and_eq_true, beq_iff_eq, List.all_eq_true, decide_eq_true_eq]
  have hzip : (∀ x ∈ level.tcb.sgxtcbcomponents.zip pck.compSvns.toList, x.2 ≥ x.1.svn) ↔
      ∀ (k : Fin 16) (component : TcbComponent),
        level.tcb.sgxtcbcomponents[k.val]? = some component →
          component.svn ≤ pck.compSvns.get k := by
    refine ⟨fun h k component hc => ?_, fun h x hm => ?_⟩
    · refine h (component, pck.compSvns.get k) (List.mem_iff_getElem?.mpr ⟨k.val, ?_⟩)
      rw [List.getElem?_zip_eq_some]
      exact ⟨hc, by simp [List.Vector.get_eq_get_toList]⟩
    · obtain ⟨component, svn⟩ := x
      obtain ⟨k, hk⟩ := List.mem_iff_getElem?.mp hm
      obtain ⟨hc, hs⟩ := List.getElem?_zip_eq_some.mp hk
      obtain ⟨hlt, rfl⟩ := List.getElem?_eq_some_iff.mp hs
      have hk16 : k < 16 := by simpa using hlt
      exact h ⟨k, hk16⟩ component hc
  refine ⟨fun h => ?_, fun h => ?_⟩
  · obtain ⟨⟨hlen, hcomponents⟩, hpce⟩ := h
    exact ⟨hlen, hzip.mp hcomponents, hpce⟩
  · obtain ⟨hlen, hcomponents, hpce⟩ := h
    exact ⟨⟨hlen, hzip.mpr hcomponents⟩, hpce⟩

/-- What a level's status means: an accepted status, with that level's own advisories. -/
inductive StandingOf (level : TcbLevel) : TcbStanding → Prop where
  | upToDate : level.tcbStatus = "UpToDate" → StandingOf level .upToDate
  | swHardeningNeeded : level.tcbStatus = "SWHardeningNeeded" →
      StandingOf level (.swHardeningNeeded level.advisoryIds)
  | configurationAndSwHardeningNeeded : level.tcbStatus = "ConfigurationAndSWHardeningNeeded" →
      StandingOf level (.configurationAndSwHardeningNeeded level.advisoryIds)

theorem statusStanding_eq_ok {level : TcbLevel} {standing : TcbStanding} :
    statusStanding level = .ok standing ↔ StandingOf level standing := by
  unfold statusStanding
  refine ⟨fun h => ?_, fun h => ?_⟩
  · split at h
    · rename_i hs; cases h; exact .upToDate hs
    · split at h
      · rename_i hs; cases h; exact .swHardeningNeeded hs
      · split at h
        · rename_i hs; cases h; exact .configurationAndSwHardeningNeeded hs
        · exact absurd h reject_ne_ok
  · cases h with
    | upToDate hs => simp [hs]
    | swHardeningNeeded hs => simp [hs]
    | configurationAndSwHardeningNeeded hs => simp [hs]

theorem statusStanding_rejectsIn (level : TcbLevel) :
    RejectsIn [.tcbLevelUnsupported] (statusStanding level) := by
  unfold statusStanding
  split
  · exact .ok _
  · split
    · exact .ok _
    · split
      · exact .ok _
      · exact .reject (by simp)

/-- `info` is about this platform, and `standing` is what its first met level says. -/
structure Judged (info : TcbInfo) (pck : PckPlatformTcb) (standing : TcbStanding) : Prop where
  fmspc : C.hexDecode info.fmspc = .ok pck.fmspc.toList
  pceId : C.hexDecode info.pceId = .ok pck.pceId.toList
  level : ∃ (k : Nat) (level : TcbLevel), info.tcbLevels[k]? = some level ∧ LevelMet level pck ∧
    (∀ (j : Nat) (earlier : TcbLevel), j < k → info.tcbLevels[j]? = some earlier →
      ¬ LevelMet earlier pck) ∧
    StandingOf level standing

/-- Searching in document order finds the first level that is met. -/
theorem find_levelSatisfied {levels : List TcbLevel} {pck : PckPlatformTcb} {level : TcbLevel} :
    levels.find? (fun level => levelSatisfied level pck) = some level ↔
      ∃ k : Nat, levels[k]? = some level ∧ LevelMet level pck ∧
        ∀ (j : Nat) (earlier : TcbLevel), j < k → levels[j]? = some earlier →
          ¬ LevelMet earlier pck := by
  simp only [List.find?_eq_some_iff_getElem, levelSatisfied_iff, List.getElem?_eq_some_iff]
  refine ⟨fun h => ?_, fun h => ?_⟩
  · obtain ⟨hmet, k, hk, rfl, hfirst⟩ := h
    refine ⟨k, ⟨hk, rfl⟩, hmet, ?_⟩
    intro j _ hj hget
    obtain ⟨_, rfl⟩ := hget
    have hj' := hfirst j hj
    rwa [Bool.not_eq_true', ← Bool.not_eq_true, levelSatisfied_iff] at hj'
  · obtain ⟨k, ⟨hk, rfl⟩, hmet, hfirst⟩ := h
    refine ⟨hmet, k, hk, rfl, fun j hj => ?_⟩
    rw [Bool.not_eq_true', ← Bool.not_eq_true, levelSatisfied_iff]
    exact hfirst j _ hj ⟨hj.trans hk, rfl⟩

theorem platformStanding_eq_ok {info : TcbInfo} {pck : PckPlatformTcb} {standing : TcbStanding} :
    platformStanding C info pck = .ok standing ↔ Judged C info pck standing := by
  simp only [platformStanding, Checks.bind_eq_ok, decodeHexField_eq_ok, rejectIf_eq_ok, not_not,
    okOrReject_eq_ok, find_levelSatisfied, statusStanding_eq_ok]
  refine ⟨fun h => ?_, fun h => ?_⟩
  · obtain ⟨_, hf, _, rfl, _, hp, _, rfl, level, ⟨k, hk, hmet, hfirst⟩, hst⟩ := h
    exact ⟨hf, hp, k, level, hk, hmet, hfirst, hst⟩
  · obtain ⟨hf, hp, k, level, hk, hmet, hfirst, hst⟩ := h
    exact ⟨_, hf, (), rfl, _, hp, (), rfl, level, ⟨k, hk, hmet, hfirst⟩, hst⟩

theorem platformStanding_rejectsIn (info : TcbInfo) (pck : PckPlatformTcb) :
    RejectsIn [.tcbLevelUnsupported, .collateralParse] (platformStanding C info pck) :=
  .bind ((decodeHexField_rejectsIn C _ _ _).mono (by simp)) fun _ _ =>
    .bind (.rejectIf (by simp)) fun _ _ =>
    .bind ((decodeHexField_rejectsIn C _ _ _).mono (by simp)) fun _ _ =>
    .bind (.rejectIf (by simp)) fun _ _ => .bind (.okOrReject (by simp)) fun level _ =>
    (statusStanding_rejectsIn level).mono (by simp)

end DcapVerify
