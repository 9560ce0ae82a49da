import DcapVerify.Lib.Octets
import DcapVerify.Proof.QuoteGrammar
import DcapVerify.Verify

/-!
# A synthetic PKI

The counterpart of `synthetic_e2e.rs`: third-party primitives small enough to
compute with, and builders for certificates, CRLs, collateral and quotes that are
signed under them. A PEM text is one character a block, a digit for a certificate
and a letter for a CRL, and a DER blob is an index into a registry. Hex and
big-integer encoding are the real ones. A signature names the key and the message
it is for, so it verifies under that key alone.
-/

namespace DcapVerify.Synthetic

/-! ## Primitives -/

/-- The first 32 bytes, padded. -/
def digest (msg : Bytes) : U8Array 32 := ⟨(msg ++ List.replicate 32 0).take 32, by simp⟩

/-- A signature: half of the key, then the digest. -/
def sign (key msg : Bytes) : U8Array 64 :=
  ⟨(digest (key.drop 1)).toList ++ (digest msg).toList, by simp⟩

def hexDigit (c : Char) : Option Nat :=
  let n := c.toNat
  if 48 ≤ n ∧ n < 58 then some (n - 48)
  else if 97 ≤ n ∧ n < 103 then some (n - 87)
  else if 65 ≤ n ∧ n < 71 then some (n - 55)
  else none

def hexDecodeChars : List Char → Option Bytes
  | [] => some []
  | [_] => none
  | c :: d :: rest => do
      let hi ← hexDigit c
      let lo ← hexDigit d
      let bytes ← hexDecodeChars rest
      pure (UInt8.ofNat (16 * hi + lo) :: bytes)

def hexEncode (bytes : Bytes) : String :=
  let digit (n : Nat) : Char := Char.ofNat (if n < 10 then 48 + n else 87 + n)
  String.ofList (bytes.flatMap fun b => [digit (b.toNat / 16), digit (b.toNat % 16)])

theorem hexDigit_ofNat : ∀ n < 16,
    hexDigit (Char.ofNat (if n < 10 then 48 + n else 87 + n)) = some n := by
  decide

/-- What is written in hex is read back. -/
theorem hexDecodeChars_hexEncode (bytes : Bytes) :
    hexDecodeChars (hexEncode bytes).toList = some bytes := by
  rw [hexEncode, String.toList_ofList]
  induction bytes with
  | nil => rfl
  | cons b rest ih =>
      have hb : b.toNat < 256 := b.toNat_lt
      have hhi := hexDigit_ofNat (b.toNat / 16) (by omega)
      have hlo := hexDigit_ofNat (b.toNat % 16) (by omega)
      have hbyte : UInt8.ofNat (16 * (b.toNat / 16) + b.toNat % 16) = b := by
        rw [Nat.div_add_mod, UInt8.ofNat_toNat]
      rw [List.flatMap_cons, List.cons_append, List.cons_append, List.nil_append, hexDecodeChars,
        hhi, hlo, ih]
      exact congrArg (fun x => some (x :: rest)) hbyte

/-- The digits of `n`, most significant first, and one zero octet for zero. -/
def toBytesBe (n : Nat) : Bytes :=
  if n = 0 then [0] else ((Nat.digits 256 n).map UInt8.ofNat).reverse

theorem beNat_toBytesBe (n : Nat) : Octets.beNat (toBytesBe n) = n := by
  unfold toBytesBe
  split
  · rename_i h; rw [h]; rfl
  · rw [Octets.beNat, List.reverse_reverse, Octets.leNat_eq_ofDigits, List.map_map]
    have hdigits : (Nat.digits 256 n).map (UInt8.toNat ∘ UInt8.ofNat) = Nat.digits 256 n := by
      refine List.map_congr_left (fun d hd => ?_) |>.trans (List.map_id _)
      exact Nat.mod_eq_of_lt (Nat.digits_lt_base (by decide) hd)
    rw [hdigits, Nat.ofDigits_digits]

/-- What the decoders know. -/
structure Registry where
  certs : List X509Certificate
  crls : List CertificateRevocationList
  extension : BerObject
  tcbInfo : TcbInfo
  qeIdentity : QeIdentity

/-- The entry a one-byte blob names. -/
def lookup {α : Type} (entries : List α) : Bytes → Except String α
  | [k] => match entries[k.toNat]? with
      | some a => .ok a
      | none => .error "unknown index"
  | _ => .error "malformed"

theorem lookup_mem {α : Type} {entries : List α} {der : Bytes} {a : α}
    (h : lookup entries der = .ok a) : a ∈ entries := by
  unfold lookup at h
  split at h
  · split at h
    · rename_i hk
      cases h
      exact List.mem_of_getElem? hk
    · cases h
  · cases h

/-- A block for each character. -/
def pemBlock (b : UInt8) : Pem :=
  if 48 ≤ b ∧ b < 58 then ⟨"CERTIFICATE", [b - 48]⟩ else ⟨"X509 CRL", [b - 65]⟩

def crates (reg : Registry) : Crates where
  VerifyingKey := Bytes
  Signature := U8Array 64
  fromSec1Bytes bs := if bs.length = 65 ∧ bs.head? = some 4 then .ok bs else .error "not a point"
  signatureFromSlice bs := match tryInto 64 bs with
    | some sig => .ok sig
    | none => .error "not 64 bytes"
  signatureFromDer bs := match tryInto 64 bs with
    | some sig => .ok sig
    | none => .error "not 64 bytes"
  verify key msg sig := decide (sig = sign key msg)
  sha256 := digest
  hexEncode := hexEncode
  hexDecode s := match hexDecodeChars s.toList with
    | some bytes => .ok bytes
    | none => .error "not hex"
  pemParseMany data := .ok (data.map pemBlock)
  certificateFromDer := lookup reg.certs
  crlFromDer := lookup reg.crls
  parseDer bs := if bs = [0] then .ok reg.extension else .error "malformed"
  anyAsOid any := if any.tag = 6 ∧ any.data = [1] then some oidEcP256 else none
  rawSerialAsString := hexEncode
  toBytesBe := toBytesBe
  jsonString raw := .ok raw
  tcbInfoFromStr s := if s = "tcb-info" then .ok reg.tcbInfo else .error "malformed"
  qeIdentityFromStr s := if s = "qe-identity" then .ok reg.qeIdentity else .error "malformed"

theorem hexDecode_hexEncode (reg : Registry) (bytes : Bytes) :
    (crates reg).hexDecode (hexEncode bytes) = .ok bytes := by
  simp only [crates, hexDecodeChars_hexEncode]

/-- What verifies under a decoded key is the signature made with it. -/
theorem eq_sign_of_verify {reg : Registry} {spk der key msg : Bytes} {sig : U8Array 64}
    (hkey : (crates reg).fromSec1Bytes spk = .ok key)
    (hsig : (crates reg).signatureFromDer der = .ok sig)
    (hv : (crates reg).verify key msg sig = true) : der = (sign spk msg).toList := by
  have hspk : (if spk.length = 65 ∧ spk.head? = some 4 then .ok spk else .error "not a point") =
    (.ok key : Except String Bytes) := hkey
  have hder : (match tryInto 64 der with
    | some sig => .ok sig
    | none => .error "not 64 bytes") = (.ok sig : Except String (U8Array 64)) := hsig
  have hsign : sig = sign key msg := of_decide_eq_true hv
  split at hspk
  · split at hder
    · rename_i hinto
      cases hspk
      cases hder
      rw [← hsign, tryInto_eq_some.mp hinto]
    · cases hder
  · cases hspk

/-! ## Certificates and CRLs -/

def name (cn : String) : X509Name := ⟨asBytes cn, s!"CN={cn}", [.ok cn]⟩

/-- A key, told from the others by one byte. -/
def key (n : UInt8) : Bytes := 4 :: List.replicate 64 n

def ecdsaSha256 : AlgorithmIdentifier := ⟨oidSigEcdsaWithSha256, none⟩

def spki (key : Bytes) : SubjectPublicKeyInfo := ⟨⟨oidKeyTypeEcPublicKey, some ⟨6, [1]⟩⟩, key⟩

/-- A certificate authority: a name and a key. -/
structure Authority where
  cn : String
  key : Bytes

/-- A certificate on `subject` issued by `issuer`. -/
def issue (issuer subject : Authority) (serial : Bytes) (ca : Bool)
    (extensions : List X509Extension) : X509Certificate :=
  let tbs := asBytes subject.cn ++ serial
  { tbsCertificate := tbs
    tbsSignature := ecdsaSha256
    rawSerial := serial
    issuer := name issuer.cn
    subject := name subject.cn
    validity := ⟨1000, 2000⟩
    publicKey := spki subject.key
    basicConstraints := .ok (some ⟨ca, none⟩)
    keyUsage := .ok (some ⟨ca⟩)
    extensions
    signatureAlgorithm := ecdsaSha256
    signatureValue := (sign issuer.key tbs).toList }

/-- A CRL signed by `signer` in the name of `issuer`. -/
def issueCrl (issuer : String) (signer : Bytes) (revoked : List Bytes) :
    CertificateRevocationList :=
  let tbs := asBytes issuer
  { tbsCertList := tbs
    tbsSignature := ecdsaSha256
    issuer := name issuer
    lastUpdate := 1000
    nextUpdate := some 2000
    revokedCertificates := revoked.map fun serial => ⟨serial, Octets.beNat serial⟩
    signatureAlgorithm := ecdsaSha256
    signatureValue := (sign signer tbs).toList }

def root : Authority := ⟨"Root", intelSgxRootCaPublicKeySec1⟩
def pckCa : Authority := ⟨"PCK CA", key 1⟩
def pckLeaf : Authority := ⟨"PCK", key 2⟩
def tcbSigning : Authority := ⟨"Intel SGX TCB Signing", key 3⟩

/-- Another authority under the name of the PCK CA. -/
def pckCaTwin : Authority := ⟨"PCK CA", key 4⟩

/-- An authority with no CRL. -/
def otherCa : Authority := ⟨"Other CA", key 5⟩

/-! ## The platform -/

def der (oid : List Nat) (value : BerObject) : BerObject :=
  .mk (.ok [.mk (.error "primitive") (some ⟨oid⟩) none none, value]) none none none

def octets (bs : Bytes) : BerObject := .mk (.error "primitive") none (some bs) none

def integer (n : UInt32) : BerObject := .mk (.error "primitive") none none (some n)

def sequence (xs : List BerObject) : BerObject := .mk (.ok xs) none none none

def sgxOid (suffix : List Nat) : List Nat := [1, 2, 840, 113741, 1, 13, 1] ++ suffix

/-- A platform of family `00906ea10000` whose components are all at SVN 5. -/
def extension : BerObject :=
  sequence [der (sgxOid [2]) (sequence ((List.range 17).map fun i =>
      der (sgxOid [2, i + 1]) (integer 5))),
    der (sgxOid [3]) (octets [0, 0]),
    der (sgxOid [4]) (octets [0, 0x90, 0x6e, 0xa1, 0, 0])]

/-- A level at which every component is at `svn`. -/
def level (svn : UInt32) (status : String) (advisoryIds : List String) : TcbLevel :=
  ⟨⟨List.replicate 16 ⟨svn⟩, svn⟩, status, advisoryIds⟩

/-- A TCB info whose second level, the one the platform meets, carries `status`. -/
def tcbInfo (status : String) : TcbInfo :=
  { id := "SGX", version := 3, issueDate := 1000, nextUpdate := 2000, fmspc := "00906EA10000",
    pceId := "0000", tcbType := 0, tcbEvaluationDataNumber := 17,
    tcbLevels := [level 6 "UpToDate" [], level 5 status ["INTEL-SA-00615"]] }

def qeIdentity : QeIdentity :=
  { id := "QE", version := 2, issueDate := 1000, nextUpdate := 2000, tcbEvaluationDataNumber := 17,
    miscselect := "00000000", miscselectMask := "FFFFFFFF",
    attributes := "11000000000000000000000000000000",
    attributesMask := "FBFFFFFFFFFFFFFF0000000000000000",
    mrsigner := String.ofList (List.replicate 64 'b'), isvprodid := 1,
    tcbLevels := [⟨⟨6⟩, "UpToDate"⟩, ⟨⟨5⟩, "OutOfDate"⟩] }

/-- Certificates `0` to `6` and CRLs `A` to `D`: of an honest PKI, and of two authorities that stand
beside it. The last CRL revokes the PCK leaf. -/
def registry (status : String) : Registry where
  certs :=
    [issue root root [1] true [], issue root pckCa [2] true [],
      issue pckCa pckLeaf [0x5a, 1] false [⟨⟨sgxOid []⟩, [0]⟩],
      issue root tcbSigning [3] false [],
      issue root pckCaTwin [4] true [], issue root otherCa [5] true [],
      issue otherCa tcbSigning [6] false []]
  crls :=
    [issueCrl root.cn root.key [[9]], issueCrl pckCa.cn pckCa.key [[0x5a, 2]],
      issueCrl pckCa.cn pckCaTwin.key [], issueCrl pckCa.cn pckCa.key [[0, 0x5a, 1]]]
  extension := extension
  tcbInfo := tcbInfo status
  qeIdentity := qeIdentity

/-- Collateral over the honest chains. -/
def collateral (status : String) : SgxCollateral where
  version := 3
  rootCaCrl := "A"
  pckCrl := "B"
  tcbInfoIssuerChain := "30"
  pckCrlIssuerChain := "10"
  qeIdentityIssuerChain := "30"
  tcbInfo := ⟨"tcb-info", tcbInfo status,
    hexEncode (sign tcbSigning.key (asBytes "tcb-info")).toList⟩
  qeIdentity := ⟨"qe-identity", qeIdentity,
    hexEncode (sign tcbSigning.key (asBytes "qe-identity")).toList⟩

/-! ## The quote -/

def zeros (n : Nat) : U8Array n := List.Vector.replicate n 0

def mrenclave : MREnclave := List.Vector.replicate 32 0xaa

/-- A report body with the given attribute flags and report data. -/
def report (flags : UInt8) (reportData : U8Array 64) : SgxReportBody :=
  { cpuSvn := zeros 16, miscSelect := zeros 4, isvExtProdId := zeros 16,
    attributes := flags ::ᵥ zeros 15, mrenclave := mrenclave,
    mrsigner := List.Vector.replicate 32 0xbb, configId := zeros 64, isvProdId := 1, isvSvn := 6,
    configSvn := 0, isvFamilyId := zeros 16, sgxReportDataBytes := reportData }

/-- The report's 384 bytes, with zeros in the reserved gaps. -/
def reportBytes (b : SgxReportBody) : Bytes :=
  b.cpuSvn.toList ++ (b.miscSelect.toList ++ ((zeros 12).toList ++ (b.isvExtProdId.toList ++
    (b.attributes.toList ++ (b.mrenclave.toList ++ ((zeros 32).toList ++ (b.mrsigner.toList ++
    ((zeros 32).toList ++ (b.configId.toList ++ (le16 b.isvProdId ++
    (le16 b.isvSvn ++ (le16 b.configSvn ++ ((zeros 42).toList ++
    (b.isvFamilyId.toList ++ b.sgxReportDataBytes.toList))))))))))))))

theorem encodes_reportBytes (b : SgxReportBody) : SgxReportBody.Encodes b (reportBytes b) :=
  ⟨(zeros 12).toList, (zeros 32).toList, (zeros 32).toList, (zeros 42).toList,
    List.Vector.toList_length _, List.Vector.toList_length _, List.Vector.toList_length _,
    List.Vector.toList_length _, rfl⟩

theorem reportBytes_length (b : SgxReportBody) : (reportBytes b).length = reportBodyLen :=
  (encodes_reportBytes b).length

def header : SgxQuoteHeader :=
  { version := 3, attKeyType := 2, reserved := 0, qeSvn := 0, pceSvn := 0,
    qeVendorId := intelQeVendorId, userData := zeros 20 }

def attestationPubKey : U8Array 64 := List.Vector.replicate 64 0x77

def qeAuthData : Bytes := [1, 2, 3]

/-- Report data that commits to the attestation key. -/
def qeReportData : U8Array 64 :=
  ⟨(digest (attestationPubKey.toList ++ qeAuthData)).toList ++ List.replicate 32 0, by simp⟩

def qeReport : SgxReportBody := report 0x11 qeReportData

/-- The signed part of a quote over `body`. -/
def signedPart (body : SgxReportBody) : Bytes := headerBytes header ++ reportBytes body

/-- A quote over an enclave with the given attribute flags, signed through the PCK leaf. The chain
it embeds is `certData`. -/
def quote (flags : UInt8) (certData : Bytes) : SgxQuote :=
  let body := report flags (zeros 64)
  { header := header
    reportBody := body
    signature :=
      { isvSignature := sign (4 :: attestationPubKey.toList) (signedPart body)
        attestationPubKey := attestationPubKey
        qeReport := qeReport
        qeReportRaw := ⟨reportBytes qeReport, reportBytes_length _⟩
        qeReportSignature := sign pckLeaf.key (reportBytes qeReport)
        qeAuthData := qeAuthData
        certDataType := certDataTypePckChain
        certData := certData }
    signedBytes := signedPart body }

theorem signedPart_length (body : SgxReportBody) : (signedPart body).length = quoteSignedLen := by
  rw [signedPart, List.length_append, headerBytes_length, reportBytes_length]
  rfl

/-- **Every synthetic quote is a quote**: its encoding reads back as itself. -/
theorem read_encode_quote (flags : UInt8) {certData : Bytes} (h : certData.length < 2 ^ 16) :
    SgxQuote.read (quote flags certData).encode = (.ok (quote flags certData), []) := by
  let body := report flags (zeros 64)
  have hs := @QuoteV3.header_slices header (reportBytes body)
  obtain ⟨h₁, h₂, h₃, h₄, h₅, h₆, h₇⟩ := hs
  let sg := (quote flags certData).signature
  let p : QuoteV3 :=
    { signed := ⟨signedPart body, signedPart_length body⟩
      isvSignature := sg.isvSignature
      attestationPubKey := attestationPubKey
      qeReportRaw := sg.qeReportRaw
      qeReportSignature := sg.qeReportSignature
      qeAuthData := qeAuthData
      certData := certData
      version := h₁.symm
      attKeyType := h₂.symm
      authFits := by decide
      certFits := by omega
      sectionFits := by
        have hlen := sectionBytes_length sg.isvSignature.toList attestationPubKey.toList
          (reportBytes qeReport) sg.qeReportSignature.toList qeAuthData certData
        rw [List.Vector.toList_length, List.Vector.toList_length, List.Vector.toList_length,
          reportBytes_length] at hlen
        have hauth : qeAuthData.length = 3 := rfl
        have hreport : reportBodyLen = 384 := rfl
        exact hlen.trans_lt (by omega) }
  have hbody : Octets.slice 48 384 (signedPart body) = reportBytes body := by
    rw [signedPart, Octets.slice_append_of_le (by simp), headerBytes_length]
    exact Octets.slice_self (reportBytes_length body)
  have hp : p.Denotes (quote flags certData) :=
    { signedBytes := rfl
      headerVersion := h₁
      headerAttKeyType := h₂
      headerReserved := h₃
      headerQeSvn := h₄
      headerPceSvn := h₅
      headerQeVendorId := h₆
      headerUserData := h₇
      reportBody := (congrArg _ hbody).trans (SgxReportBody.parse_eq_ok.mpr (encodes_reportBytes _))
      isvSignature := rfl
      attestationPubKey := rfl
      qeReportRaw := rfl
      qeReport := SgxReportBody.parse_eq_ok.mpr (encodes_reportBytes _)
      qeReportSignature := rfl
      qeAuthData := rfl
      certDataType := rfl
      certData := rfl }
  exact QuoteV3.read_eq_ok_iff.mpr ⟨p, hp, by rw [List.append_nil, SgxQuote.encode_eq hp]⟩

/-- The chain an honest quote embeds: PCK leaf, PCK CA, root. -/
def pckChain : Bytes := asBytes "210"

def currentTime : SystemTime := ⟨1500 * 10 ^ 9, by decide⟩

/-- Honest evidence about an up-to-date platform is accepted. -/
theorem honest_accepted :
    verifyRemoteAttestation (crates (registry "UpToDate")) currentTime (collateral "UpToDate")
      (quote 5 pckChain) mrenclave 17 = .ok (.upToDate, report 5 (zeros 64)) := by
  decide +kernel

/-- A debug-mode enclave is rejected for that. -/
theorem debug_rejected :
    verifyRemoteAttestation (crates (registry "UpToDate")) currentTime (collateral "UpToDate")
      (quote 7 pckChain) mrenclave 17 = .error (.reject ⟨.debugEnclaveRejected,
        "report attributes 07000000000000000000000000000000 carry the DEBUG flag"⟩) := by
  decide +kernel

/-- So is a round below the caller's floor. -/
theorem stale_rejected :
    verifyRemoteAttestation (crates (registry "UpToDate")) currentTime (collateral "UpToDate")
      (quote 5 pckChain) mrenclave 18 = .error (.reject ⟨.tcbInfoStale,
        "TCB info is from TCB evaluation round 17, caller requires at least 18"⟩) := by
  decide +kernel

theorem honest_read :
    SgxQuote.read (quote 5 pckChain).encode = (.ok (quote 5 pckChain), []) :=
  read_encode_quote 5 (by decide)

end DcapVerify.Synthetic
