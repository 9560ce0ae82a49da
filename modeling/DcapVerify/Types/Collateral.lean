import DcapVerify.Crates

/-!
# Collateral

`types/collateral.rs`. A signed document arrives as a JSON object presented member
by member; `Signed.visitMap` is the visitor's loop over the members, each a key
and the raw text of its value.
-/

namespace DcapVerify

/-- A collateral document paired with the exact JSON text its signature covers. -/
structure Signed (T : Type) where
  bodyJson : String
  body : T
  signatureHex : String

/-- `SignedBody` together with `serde_json::from_str` at the body type. -/
structure SignedBody (T : Type) where
  wireField : String
  fromStr : String → Except String T

variable (C : Crates)

def tcbInfoBody : SignedBody TcbInfo := ⟨"tcbInfo", C.tcbInfoFromStr⟩

def qeIdentityBody : SignedBody QeIdentity := ⟨"enclaveIdentity", C.qeIdentityFromStr⟩

/-- The errors of the visitor. -/
inductive DeError where
  | duplicateField (name : String)
  | missingField (name : String)
  | custom (detail : String)
  deriving DecidableEq

/-- The visitor's two optional slots. -/
structure SignedSlots where
  bodyRaw : Option String := none
  signatureHex : Option String := none

namespace Signed

variable {T : Type} (B : SignedBody T)

/-- One round of the visitor's loop. -/
def visitMember (slots : SignedSlots) (member : String × String) : Except DeError SignedSlots :=
  let (key, raw) := member
  if key = B.wireField then
    if slots.bodyRaw.isSome then .error (.duplicateField B.wireField)
    else .ok { slots with bodyRaw := some raw }
  else if key = "signature" then
    if slots.signatureHex.isSome then .error (.duplicateField "signature")
    else do
      let s ← (C.jsonString raw).mapError .custom
      .ok { slots with signatureHex := some s }
  -- other members are skipped
  else .ok slots

def visitMap (members : List (String × String)) : Except DeError (Signed T) := do
  let slots ← members.foldlM (visitMember C B) {}
  match slots.bodyRaw with
  | none => .error (.missingField B.wireField)
  | some bodyRaw =>
      match slots.signatureHex with
      | none => .error (.missingField "signature")
      | some signatureHex => do
          let body ← (B.fromStr bodyRaw).mapError .custom
          .ok { bodyJson := bodyRaw, body, signatureHex }

end Signed

structure SgxCollateral where
  version : UInt32
  rootCaCrl : String
  pckCrl : String
  tcbInfoIssuerChain : String
  pckCrlIssuerChain : String
  qeIdentityIssuerChain : String
  tcbInfo : Signed TcbInfo
  qeIdentity : Signed QeIdentity

/-- Both signed documents came out of their `Deserialize` implementations. -/
structure SgxCollateral.Deserialized (c : SgxCollateral) : Prop where
  tcbInfo : ∃ members, Signed.visitMap C (tcbInfoBody C) members = .ok c.tcbInfo
  qeIdentity : ∃ members, Signed.visitMap C (qeIdentityBody C) members = .ok c.qeIdentity

end DcapVerify
