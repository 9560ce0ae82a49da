import DcapVerify.Differ.Sweep

/-!
# Splicing collateral

`dcap-differ/tools/build_recombination_corpus.py`, as far as it writes a collateral file:
signed documents keep their bytes, so the file is put together by concatenation, and the
documents are cut out of it again without parsing it. Strings are of Unicode scalars, and
fetching and the dates are left out.
-/

namespace DcapVerify.Differ

/-- What the script raises. -/
inductive CorpusError where
  | key (key : String)
  | assertion (message : String)
  | value (message : String)
  /-- What `json.loads` raises. -/
  | json (message : String)
  deriving DecidableEq, Repr

/-! ## Cutting out an object -/

/-- The bytes that the loops skip. -/
def isBlank (b : UInt8) : Bool := b == 32 || b == 9 || b == 13 || b == 10

/-- The loop over the object's bytes: how far on its closing brace is. -/
def closeObject (depth : Int) (inStr esc : Bool) : Bytes → Option Nat
  | [] => none
  | c :: buf =>
      if inStr then
        if esc then (closeObject depth true false buf).map (· + 1)
        else if c = 92 then (closeObject depth true true buf).map (· + 1)
        else if c = 34 then (closeObject depth false false buf).map (· + 1)
        else (closeObject depth true false buf).map (· + 1)
      else if c = 34 then (closeObject depth true false buf).map (· + 1)
      else if c = 123 then (closeObject (depth + 1) false false buf).map (· + 1)
      else if c = 125 then
        if depth - 1 = 0 then some 0 else (closeObject (depth - 1) false false buf).map (· + 1)
      else (closeObject depth false false buf).map (· + 1)

/-- The bytes of the object that is the value of `key`. -/
def extractRawObject (buf : Bytes) (key : String) : Except CorpusError Bytes :=
  let token := asBytes s!"\"{key}\""
  match windowPosition token buf with
  | none => .error (.key key)
  | some i =>
      match (buf.drop (i + token.length)).dropWhile isBlank with
      | 58 :: rest =>
          let object := rest.dropWhile isBlank
          if object.head? = some 123 then
            match closeObject 0 false false object with
            | some n => .ok (object.take (n + 1))
            | none => .error (.value s!"unbalanced object for {key}")
          else .error (.assertion s!"{key} value is not an object")
      | _ => .error (.assertion s!"{key} not a key")

/-! ## Putting a file together -/

/-- `'\\u{0:04x}'.format(n)`. -/
def unicodeEscape (n : Nat) : Bytes :=
  92 :: 117 :: ([n / 0x1000 % 16, n / 0x100 % 16, n / 0x10 % 16, n % 16].map fun d =>
    UInt8.ofNat d.digitChar.toNat)

/-- A character in `json.dumps`. -/
def escapeChar (c : Char) : Bytes :=
  if c = '"' then [92, 34]
  else if c = '\\' then [92, 92]
  else if c = '\n' then [92, 110]
  else if c = '\r' then [92, 114]
  else if c = '\t' then [92, 116]
  else if c = '\x0c' then [92, 102]
  else if c = '\x08' then [92, 98]
  else if 0x20 ≤ c.toNat ∧ c.toNat ≤ 0x7e then [UInt8.ofNat c.toNat]
  else if c.toNat < 0x10000 then unicodeEscape c.toNat
  else
    let n := c.toNat - 0x10000
    unicodeEscape (0xd800 + n / 0x400) ++ unicodeEscape (0xdc00 + n % 0x400)

/-- `json.dumps(s).encode("utf-8")`. -/
def jstr (s : String) : Bytes := 34 :: (s.toList.flatMap escapeChar ++ [34])

/-- The arguments of `assemble_collateral`. -/
structure Spliced where
  rootCaCrl : String
  pckCrl : String
  tcbChain : String
  pckcrlChain : String
  qeChain : String
  tcbInfoRaw : Bytes
  qeIdentityRaw : Bytes

def Spliced.assembleCollateral (s : Spliced) : Bytes :=
  asBytes "\x7b" ++
    asBytes "\"version\":3," ++
    asBytes "\"root_ca_crl\":" ++ jstr s.rootCaCrl ++ asBytes "," ++
    asBytes "\"pck_crl\":" ++ jstr s.pckCrl ++ asBytes "," ++
    asBytes "\"tcb_info_issuer_chain\":" ++ jstr s.tcbChain ++ asBytes "," ++
    asBytes "\"pck_crl_issuer_chain\":" ++ jstr s.pckcrlChain ++ asBytes "," ++
    asBytes "\"qe_identity_issuer_chain\":" ++ jstr s.qeChain ++ asBytes "," ++
    asBytes "\"tcb_info\":" ++ s.tcbInfoRaw ++ asBytes "," ++
    asBytes "\"qe_identity\":" ++ s.qeIdentityRaw ++
    asBytes "\x7d"

/-- `verify_case`, on the bytes of the file that was written. The value that `json.loads` gives is
not looked at. -/
def Spliced.verifyCase (loads : Bytes → Except String Unit) (s : Spliced) (name : String)
    (buf : Bytes) : Except CorpusError Unit := do
  (loads buf).mapError .json
  let gotTcb ← extractRawObject buf "tcb_info"
  let gotQe ← extractRawObject buf "qe_identity"
  if gotTcb ≠ s.tcbInfoRaw then throw (.assertion s!"{name}: tcb_info bytes not verbatim")
  if gotQe ≠ s.qeIdentityRaw then throw (.assertion s!"{name}: qe_identity bytes not verbatim")

end DcapVerify.Differ
