import DcapVerify.Error

/-!
# The values third-party decoders hand over

PEM blocks, decoded certificates, decoded CRLs and DER trees, each with exactly
the parts the crate reads. The decoders themselves are parameters (`Crates`);
these types are what they return. Where the crate only ever calls an accessor,
the accessor's answer is the field.
-/

namespace DcapVerify

/-- A decoded PEM block. -/
structure Pem where
  tag : String
  contents : Bytes
  deriving DecidableEq

/-- An object identifier, as its arcs. -/
structure Oid where
  arcs : List Nat
  deriving DecidableEq

/-- Dotted decimal. -/
def Oid.toIdString (oid : Oid) : String := ".".intercalate (oid.arcs.map toString)

/-- `ecdsa-with-SHA256`. -/
def oidSigEcdsaWithSha256 : Oid := ⟨[1, 2, 840, 10045, 4, 3, 2]⟩

/-- `id-ecPublicKey`. -/
def oidKeyTypeEcPublicKey : Oid := ⟨[1, 2, 840, 10045, 2, 1]⟩

/-- `prime256v1`. -/
def oidEcP256 : Oid := ⟨[1, 2, 840, 10045, 3, 1, 7]⟩

/-- An undecoded ASN.1 value. -/
structure Any where
  tag : Nat
  data : Bytes
  deriving DecidableEq

structure AlgorithmIdentifier where
  algorithm : Oid
  parameters : Option Any
  deriving DecidableEq

/-- A distinguished name: its DER, its display form, and each common name read as a string. -/
structure X509Name where
  asRaw : Bytes
  display : String
  commonNames : List (Except String String)

/-- Unix timestamps of a certificate's validity. -/
structure Validity where
  notBefore : Int
  notAfter : Int

structure SubjectPublicKeyInfo where
  algorithm : AlgorithmIdentifier
  subjectPublicKey : Bytes

structure BasicConstraints where
  ca : Bool
  pathLenConstraint : Option Nat

structure KeyUsage where
  keyCertSign : Bool

structure X509Extension where
  oid : Oid
  value : Bytes

/-- A decoded certificate. `tbsCertificate` is the signed DER, `tbsSignature` the signed copy of
the algorithm. The two extension accessors can fail on an unparseable extension. -/
structure X509Certificate where
  tbsCertificate : Bytes
  tbsSignature : AlgorithmIdentifier
  rawSerial : Bytes
  issuer : X509Name
  subject : X509Name
  validity : Validity
  publicKey : SubjectPublicKeyInfo
  basicConstraints : Except String (Option BasicConstraints)
  keyUsage : Except String (Option KeyUsage)
  extensions : List X509Extension
  signatureAlgorithm : AlgorithmIdentifier
  signatureValue : Bytes

/-- A CRL entry: the content octets of its serial, and the number read from them. -/
structure RevokedCertificate where
  rawSerial : Bytes
  userCertificate : Nat

/-- A decoded CRL. -/
structure CertificateRevocationList where
  tbsCertList : Bytes
  tbsSignature : AlgorithmIdentifier
  issuer : X509Name
  lastUpdate : Int
  nextUpdate : Option Int
  revokedCertificates : List RevokedCertificate
  signatureAlgorithm : AlgorithmIdentifier
  signatureValue : Bytes

/-- A node of a decoded DER tree, as the answers of its four accessors. -/
inductive BerObject where
  | mk (asSequence : Except String (List BerObject)) (asOid : Option Oid)
      (asSlice : Option Bytes) (asU32 : Option UInt32)

namespace BerObject

def asSequence : BerObject → Except String (List BerObject)
  | mk s _ _ _ => s

def asOid : BerObject → Option Oid
  | mk _ o _ _ => o

def asSlice : BerObject → Option Bytes
  | mk _ _ b _ => b

def asU32 : BerObject → Option UInt32
  | mk _ _ _ n => n

end BerObject

end DcapVerify
