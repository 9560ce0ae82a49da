import DcapVerify.X509
import DcapVerify.Types.Documents
import Mathlib.Data.List.Infix

/-!
# Third-party primitives

Everything the crate calls and does not contain: P-256 ECDSA, SHA-256, hex, PEM,
X.509 and DER decoding, and JSON. Each is a field of `Crates`, so every theorem
holds for every behaviour of these crates. The few results that rely on more than
"it is a function" say so by assuming one of the named laws below.
-/

namespace DcapVerify

structure Crates where
  /-- `p256::ecdsa::VerifyingKey` -/
  VerifyingKey : Type
  /-- `p256::ecdsa::Signature` -/
  Signature : Type
  /-- `VerifyingKey::from_sec1_bytes` -/
  fromSec1Bytes : Bytes → Except String VerifyingKey
  /-- `Signature::from_slice` -/
  signatureFromSlice : Bytes → Except String Signature
  /-- `Signature::from_der` -/
  signatureFromDer : Bytes → Except String Signature
  /-- `Verifier::verify(..).is_ok()` -/
  verify : VerifyingKey → Bytes → Signature → Bool
  /-- `Sha256` over the concatenation of what was fed to the hasher -/
  sha256 : Bytes → U8Array 32
  /-- `hex::encode` -/
  hexEncode : Bytes → String
  /-- `hex::decode` -/
  hexDecode : String → Except String Bytes
  /-- `pem::parse_many` -/
  pemParseMany : Bytes → Except String (List Pem)
  /-- `X509Certificate::from_der`; every caller drops the remainder -/
  certificateFromDer : Bytes → Except String X509Certificate
  /-- `CertificateRevocationList::from_der`; the caller drops the remainder -/
  crlFromDer : Bytes → Except String CertificateRevocationList
  /-- `der_parser::der::parse_der`; the caller drops the remainder -/
  parseDer : Bytes → Except String BerObject
  /-- `Any::as_oid` -/
  anyAsOid : Any → Option Oid
  /-- `TbsCertificate::raw_serial_as_string` -/
  rawSerialAsString : Bytes → String
  /-- `BigUint::to_bytes_be` -/
  toBytesBe : Nat → Bytes
  /-- `serde_json`, a raw JSON value read as a string -/
  jsonString : String → Except String String
  /-- `serde_json::from_str::<TcbInfo>` -/
  tcbInfoFromStr : String → Except String TcbInfo
  /-- `serde_json::from_str::<QeIdentity>` -/
  qeIdentityFromStr : String → Except String QeIdentity

/-- `str::as_bytes`. -/
def asBytes (s : String) : Bytes := s.toByteArray.data.toList

/-- `str::contains` for a string pattern. -/
def strContains (s pattern : String) : Bool := decide (pattern.toList <:+: s.toList)

end DcapVerify
