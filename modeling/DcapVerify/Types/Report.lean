import DcapVerify.Types.Reader

/-!
# The report body

`types/report.rs`.
-/

namespace DcapVerify

abbrev MREnclave := U8Array 32

def reportBodyLen : Nat := 384

def attributeFlagDebug : UInt64 := (1 : UInt64) <<< 1

structure SgxReportBody where
  cpuSvn : U8Array 16
  miscSelect : U8Array 4
  isvExtProdId : U8Array 16
  attributes : U8Array 16
  mrenclave : MREnclave
  mrsigner : U8Array 32
  configId : U8Array 64
  isvProdId : UInt16
  isvSvn : UInt16
  configSvn : UInt16
  isvFamilyId : U8Array 16
  sgxReportDataBytes : U8Array 64
  deriving DecidableEq

namespace SgxReportBody

open ByteReader

/-- The field reads of `SgxReportBody::parse`, in order. -/
def readFields : ByteReader SgxReportBody := do
  let cpuSvn ← array 16 "cpu_svn"
  let miscSelect ← array 4 "misc_select"
  let _ ← take 12 "report reserved1"
  let isvExtProdId ← array 16 "isv_ext_prod_id"
  let attributes ← array 16 "attributes"
  let mrenclave ← array 32 "mrenclave"
  let _ ← take 32 "report reserved2"
  let mrsigner ← array 32 "mrsigner"
  let _ ← take 32 "report reserved3"
  let configId ← array 64 "config_id"
  let isvProdId ← u16Le "isv_prod_id"
  let isvSvn ← u16Le "isv_svn"
  let configSvn ← u16Le "config_svn"
  let _ ← take 42 "report reserved4"
  let isvFamilyId ← array 16 "isv_family_id"
  let sgxReportDataBytes ← array 64 "report_data"
  pure { cpuSvn, miscSelect, isvExtProdId, attributes, mrenclave, mrsigner, configId, isvProdId,
         isvSvn, configSvn, isvFamilyId, sgxReportDataBytes }

def parse (raw : Bytes) : Outcome SgxReportBody := do
  rejectIf (raw.length ≠ reportBodyLen)
    ⟨.quoteParse, s!"report body must be {reportBodyLen} bytes, got {raw.length}"⟩
  -- what is left over is not looked at, and there is none
  let (body, _) ← readFields raw
  pure body

def attributeFlags (body : SgxReportBody) : Outcome UInt64 := do
  let flags ← copyFromSlice 8 (← sliceTo body.attributes.toList 8)
  pure (u64FromLeBytes flags.toList)

def isDebug (body : SgxReportBody) : Outcome Bool := do
  pure ((← attributeFlags body) &&& attributeFlagDebug != 0)

end SgxReportBody

end DcapVerify
