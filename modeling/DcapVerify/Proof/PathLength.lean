import DcapVerify.Proof.Chains
import DcapVerify.Synthetic

/-!
# Path length constraints

A CA certificate may limit how many intermediates stand below it. `require_ca` reads
the extension that carries the limit, checks that the certificate is a CA, and goes
no further, so `validate` accepts chains that exceed a limit. Which chains those are
is decided by the standard countdown over the issuers, from the terminal certificate
down: the limits are honoured exactly where it does not run out.
-/

namespace DcapVerify

/-- Issuer and subject are the same name. -/
def X509Certificate.selfIssued (cert : X509Certificate) : Bool :=
  cert.issuer.asRaw == cert.subject.asRaw

/-- The `pathLenConstraint` of a certificate that carries one. -/
def X509Certificate.pathLen (cert : X509Certificate) : Option Nat :=
  match cert.basicConstraints with
  | .ok (some bc) => bc.pathLenConstraint
  | _ => none

/-- No limit is exceeded by the intermediates below it. The leaf and self-issued certificates do
not count. -/
def PathLengthsHonoured (certs : List X509Certificate) : Prop :=
  ∀ (i : Nat) (cert : X509Certificate) (p : Nat), 1 ≤ i → certs[i]? = some cert →
    cert.pathLen = some p →
    ((certs.take i).drop 1).countP (fun c => !c.selfIssued) ≤ p

/-- `max_path_length` after the issuers have been processed, terminal certificate first. -/
def maxPathLength (certs : List X509Certificate) : Option Nat :=
  Path.budget X509Certificate.selfIssued X509Certificate.pathLen certs.tail.length certs.tail

/-- **The limits are honoured where the countdown does not run out.** -/
theorem maxPathLength_isSome_iff {certs : List X509Certificate} :
    (maxPathLength certs).isSome = true ↔ PathLengthsHonoured certs := by
  rw [maxPathLength, Path.budget_isSome_iff]
  have htake (i : Nat) : (certs.take (i + 1)).drop 1 = certs.tail.take i := by
    cases certs with
    | nil => simp
    | cons c rest => rfl
  have hget (i : Nat) : certs.tail[i]? = certs[i + 1]? := by
    rw [List.getElem?_tail]
  refine ⟨fun h i cert p hi hcert hp => ?_, fun h i cert p hcert hp => ?_⟩
  · obtain ⟨k, rfl⟩ := Nat.exists_eq_add_of_le' hi
    rw [htake]
    exact h k cert p ((hget k).trans hcert) hp
  · have hk := h (i + 1) cert p (Nat.succ_pos i) ((hget i).symm.trans hcert) hp
    rwa [htake] at hk

/--
**When validation honours path lengths.**

For every chain and time: acceptance implies the limits exactly if a chain that is a
valid path inside its windows leaves the countdown with something to spare.
-/
theorem path_lengths_honoured_iff (C : Crates) (chain : ParsedChain) (now : Int) :
    (chain.validate C now = .ok () → PathLengthsHonoured chain.certs) ↔
      (ValidPath C chain.certs → (∀ cert ∈ chain.certs, cert.window.Contains now) →
        (maxPathLength chain.certs).isSome = true) := by
  rw [ParsedChain.validate_eq_ok, maxPathLength_isSome_iff]
  refine ⟨fun h hpath hwin => h ⟨hpath, hwin⟩, fun h hvalid => ?_⟩
  obtain ⟨hpath, hwin⟩ := hvalid
  exact h hpath hwin

namespace Synthetic

/-- A root that allows no intermediate, above an honest PCK CA and its leaf. -/
def limitedChain : ParsedChain where
  kind := .quotePck
  certs :=
    [issue pckCa pckLeaf [0x5a, 1] false [], issue root pckCa [2] true [],
      { issue root root [1] true [] with basicConstraints := .ok (some ⟨true, some 0⟩) }]

end Synthetic

/-- The root's limit is zero, one intermediate stands below it, and the chain validates. -/
theorem exceeded_path_length_accepted :
    Synthetic.limitedChain.validate (Synthetic.crates (Synthetic.registry "UpToDate")) 1500 =
        .ok () ∧
      ¬ PathLengthsHonoured Synthetic.limitedChain.certs := by
  refine ⟨by decide +kernel, fun h => ?_⟩
  have hlimit := h 2 _ 0 (by decide) rfl rfl
  exact absurd hlimit (by decide)

end DcapVerify
