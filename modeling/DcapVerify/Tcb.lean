import DcapVerify.Pki

/-!
# TCB status of the platform and of the QE

`tcb.rs`, and the standing type of `lib.rs`.
-/

namespace DcapVerify

/-- The platform's TCB status, for the statuses the crate accepts. -/
inductive TcbStanding where
  | upToDate
  | swHardeningNeeded (advisoryIds : List String)
  | configurationAndSwHardeningNeeded (advisoryIds : List String)
  deriving DecidableEq, Repr

/-- `{:?}` of a list whose elements are already formatted. -/
def debugList (xs : List String) : String := "[" ++ ", ".intercalate xs ++ "]"

variable (C : Crates)

def decodeHexField (n : Nat) (what value : String) : Outcome (U8Array n) := do
  let bytes ← orReject (C.hexDecode value) fun e =>
    ⟨.collateralParse, s!"{what} is not valid hex ('{value}'): {e}"⟩
  okOrReject (tryInto n bytes)
    ⟨.collateralParse, s!"{what} must be {n} bytes, got {value.utf8ByteSize / 2} ('{value}')"⟩

def levelSatisfied (level : TcbLevel) (pck : PckPlatformTcb) : Bool :=
  -- a level that does not list all sixteen components is met by no platform
  level.tcb.sgxtcbcomponents.length == 16
    && (level.tcb.sgxtcbcomponents.zip pck.compSvns.toList).all
        (fun (component, platform) => platform ≥ component.svn)
    && pck.pcesvn ≥ level.tcb.pcesvn

/-- The mapping at the end of `platform_standing`. -/
def statusStanding (selected : TcbLevel) : Outcome TcbStanding :=
  if selected.tcbStatus = "UpToDate" then .ok .upToDate
  else if selected.tcbStatus = "SWHardeningNeeded" then
    .ok (.swHardeningNeeded selected.advisoryIds)
  else if selected.tcbStatus = "ConfigurationAndSWHardeningNeeded" then
    .ok (.configurationAndSwHardeningNeeded selected.advisoryIds)
  else reject ⟨.tcbLevelUnsupported,
    s!"the platform's TCB level carries status '{selected.tcbStatus}', which is not accepted"⟩

def platformStanding (info : TcbInfo) (pck : PckPlatformTcb) : Outcome TcbStanding := do
  let fmspc ← decodeHexField C 6 "TCB info fmspc" info.fmspc
  rejectIf (fmspc ≠ pck.fmspc) ⟨.tcbLevelUnsupported,
    s!"TCB info describes platform family {info.fmspc}, the quote's PCK certificate belongs to " ++
    s!"{C.hexEncode pck.fmspc.toList}"⟩
  let pceId ← decodeHexField C 2 "TCB info pceId" info.pceId
  rejectIf (pceId ≠ pck.pceId) ⟨.tcbLevelUnsupported,
    s!"TCB info describes PCE {info.pceId}, the quote's PCK certificate belongs to PCE " ++
    s!"{C.hexEncode pck.pceId.toList}"⟩
  -- the first level in document order, not a maximum
  let selected ← okOrReject (info.tcbLevels.find? fun level => levelSatisfied level pck)
    ⟨.tcbLevelUnsupported,
      s!"platform TCB (components {debugList (pck.compSvns.toList.map toString)}, pcesvn " ++
      s!"{pck.pcesvn}) meets none of the {info.tcbLevels.length} levels in the TCB info"⟩
  statusStanding selected

def maskedEq {n : Nat} (actual expected mask : U8Array n) : Bool :=
  ((actual.toList.zip expected.toList).zip mask.toList).all
    fun ((a, e), m) => a &&& m == e &&& m

/-- `Iterator::max_by_key`: of several maxima, the last. -/
def maxByKey {α : Type} (key : α → UInt16) (xs : List α) : Option α :=
  xs.foldl (fun best x =>
    match best with
    | none => some x
    | some b => if key b > key x then some b else some x) none

def checkQeIdentity (identity : QeIdentity) (qeReport : SgxReportBody) : Outcome Unit := do
  rejectIf (identity.id ≠ "QE") ⟨.qeIdentityMismatch,
    s!"identity document describes enclave '{identity.id}', expected the SGX QE"⟩
  let mrsigner ← decodeHexField C 32 "QE identity mrsigner" identity.mrsigner
  -- each field is decoded where it is compared, so a bad one is reported in this order
  rejectIf (mrsigner ≠ qeReport.mrsigner) ⟨.qeIdentityMismatch,
    s!"QE report is signed by {C.hexEncode qeReport.mrsigner.toList}, identity requires " ++
    s!"{identity.mrsigner}"⟩
  rejectIf (identity.isvprodid ≠ qeReport.isvProdId) ⟨.qeIdentityMismatch,
    s!"QE report carries product id {qeReport.isvProdId}, identity requires {identity.isvprodid}"⟩
  let miscselect ← decodeHexField C 4 "QE identity miscselect" identity.miscselect
  let miscselectMask ← decodeHexField C 4 "QE identity miscselectMask" identity.miscselectMask
  rejectIf (maskedEq qeReport.miscSelect miscselect miscselectMask = false) ⟨.qeIdentityMismatch,
    s!"QE report miscselect {C.hexEncode qeReport.miscSelect.toList} does not match identity " ++
    s!"value {identity.miscselect} under mask {identity.miscselectMask}"⟩
  let attributes ← decodeHexField C 16 "QE identity attributes" identity.attributes
  let attributesMask ← decodeHexField C 16 "QE identity attributesMask" identity.attributesMask
  rejectIf (maskedEq qeReport.attributes attributes attributesMask = false) ⟨.qeIdentityMismatch,
    s!"QE report attributes {C.hexEncode qeReport.attributes.toList} do not match identity " ++
    s!"value {identity.attributes} under mask {identity.attributesMask}"⟩
  -- unlike the platform's, the QE's level is the highest one met
  let level := maxByKey (fun l : QeTcbLevel => l.tcb.isvsvn)
    (identity.tcbLevels.filter fun l => l.tcb.isvsvn ≤ qeReport.isvSvn)
  match level with
  | some l => rejectIf (l.tcbStatus ≠ "UpToDate") ⟨.qeIdentityMismatch,
      s!"QE at isvsvn {qeReport.isvSvn} sits at TCB status '{l.tcbStatus}' (level isvsvn " ++
      s!"{l.tcb.isvsvn}), which is not current"⟩
  | none => reject ⟨.qeIdentityMismatch,
      s!"QE isvsvn {qeReport.isvSvn} is below every TCB level in the identity document"⟩

end DcapVerify
