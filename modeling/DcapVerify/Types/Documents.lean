import DcapVerify.Error

/-!
# The two signed documents

`types/tcb_info.rs` and `types/qe_identity.rs`. A date is the `.timestamp()` of the parsed
`DateTime`, which is all that is read of it: whole seconds, with the sub-second part dropped.
-/

namespace DcapVerify

structure TcbComponent where
  svn : UInt32

structure TcbPlatform where
  sgxtcbcomponents : List TcbComponent
  pcesvn : UInt32

structure TcbLevel where
  tcb : TcbPlatform
  tcbStatus : String
  advisoryIds : List String

structure TcbInfo where
  id : String
  version : UInt32
  issueDate : Int
  nextUpdate : Int
  fmspc : String
  pceId : String
  tcbType : UInt32
  tcbEvaluationDataNumber : UInt32
  tcbLevels : List TcbLevel

structure QeTcb where
  isvsvn : UInt16

structure QeTcbLevel where
  tcb : QeTcb
  tcbStatus : String

structure QeIdentity where
  id : String
  version : UInt32
  issueDate : Int
  nextUpdate : Int
  tcbEvaluationDataNumber : UInt32
  miscselect : String
  miscselectMask : String
  attributes : String
  attributesMask : String
  mrsigner : String
  isvprodid : UInt16
  tcbLevels : List QeTcbLevel

end DcapVerify
