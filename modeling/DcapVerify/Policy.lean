import DcapVerify.Tcb

/-!
# The caller's acceptance policy

`policy.rs`.
-/

namespace DcapVerify

structure TcbPolicy where
  minTcbEvaluationDataNumber : UInt32
  acceptSwHardeningNeeded : Bool
  acceptConfigurationAndSwHardeningNeeded : Bool
  deriving DecidableEq

/-- The ranges of controls, formats, separators, private use, noncharacters and empty planes. Other
characters that are unassigned, or that extend the one before, are left out: they depend on the
version of Unicode that the toolchain has. -/
def unprintable : List (Nat × Nat) :=
  [(0x0, 0x1f), (0x7f, 0xa0), (0xad, 0xad), (0x600, 0x605), (0x61c, 0x61c), (0x6dd, 0x6dd),
    (0x70f, 0x70f), (0x890, 0x891), (0x8e2, 0x8e2), (0x1680, 0x1680), (0x180e, 0x180e),
    (0x2000, 0x200f), (0x2028, 0x202f), (0x205f, 0x206f), (0x3000, 0x3000), (0xe000, 0xf8ff),
    (0xfdd0, 0xfdef), (0xfeff, 0xfeff), (0xfff0, 0xfffb), (0xfffe, 0xffff), (0x110bd, 0x110bd),
    (0x110cd, 0x110cd), (0x13430, 0x13438), (0x1bca0, 0x1bca3), (0x1d173, 0x1d17a),
    (0x1fffe, 0x1ffff), (0x2fffe, 0x2ffff), (0x3fffe, 0xe00ff), (0xe01f0, 0x10ffff)]

/-- A character in `{:?}` of a string. -/
def escapeDebug (c : Char) : String :=
  if c = '"' then "\\\"" else if c = '\\' then "\\\\" else if c = '\n' then "\\n"
  else if c = '\r' then "\\r" else if c = '\t' then "\\t" else if c = '\x00' then "\\0"
  else if unprintable.any fun r => r.1 ≤ c.toNat && c.toNat ≤ r.2 then
    "\\u\x7b" ++ String.ofList (Nat.toDigits 16 c.toNat) ++ "\x7d"
  else c.toString

/-- `{:?}` of a string. -/
def debugStr (s : String) : String :=
  "\"" ++ String.join (s.toList.map escapeDebug) ++ "\""

example : debugStr "a\x7f\n" = "\"a\\u\x7b7f\x7d\\n\"" := by decide +kernel

def rejection (standingTag : String) (advisoryIds : List String) : VerifyError :=
  ⟨.tcbStandingRejected, s!"caller policy rejects TCB standing {standingTag} (advisories: " ++
    s!"{debugList (advisoryIds.map debugStr)})"⟩

/-- Judge an already-verified standing against the policy. -/
def TcbPolicy.check (policy : TcbPolicy) : TcbStanding → Outcome Unit
  | .upToDate => .ok ()
  | .swHardeningNeeded advisoryIds =>
      if policy.acceptSwHardeningNeeded then .ok ()
      else reject (rejection "sw-hardening-needed" advisoryIds)
  | .configurationAndSwHardeningNeeded advisoryIds =>
      if policy.acceptConfigurationAndSwHardeningNeeded then .ok ()
      else reject (rejection "configuration-and-sw-hardening-needed" advisoryIds)

end DcapVerify
