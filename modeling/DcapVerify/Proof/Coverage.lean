import DcapVerify.Proof.Acceptance
import DcapVerify.Synthetic

/-!
# What the two CRLs cover

A verification consults two CRLs, whatever the shape of its chains: one in the name
at the end of the quote's chain, one in the name that issued the PCK leaf. Names
are all that ties a CRL to a certificate, so certificates issued under any other
name are not covered by a CRL. That happens as soon as a chain has an intermediate
of its own.
-/

namespace DcapVerify

variable {C : Crates}

/-! ## Coverage -/

/-- The names the two CRLs of a run speak for. -/
theorem crl_issuers {i : Input} {crl₁ crl₂ : CertificateRevocationList} (h₁ : RootCrl C i crl₁)
    (h₂ : PckCrl C i crl₂) {root leaf : X509Certificate}
    (hroot : (i.chain C .quotePck).certs.getLast? = some root)
    (hleaf : (i.chain C .quotePck).certs.head? = some leaf) :
    crl₁.issuer.asRaw = root.subject.asRaw ∧ crl₂.issuer.asRaw = leaf.issuer.asRaw := by
  obtain ⟨_, root', _, hroot', hvalid₁⟩ := h₁.valid
  obtain ⟨leaf', _, _, hleaf', _, _, hvalid₂⟩ := h₂.valid
  rw [Option.some.inj (hroot.symm.trans hroot'), Option.some.inj (hleaf.symm.trans hleaf')]
  exact ⟨hvalid₁.issuer, hvalid₂.issuer⟩

/-- The two certificates at the end of a valid path are both issued in the name of the last. -/
theorem ValidPath.issuer_of_end {certs : List X509Certificate} (h : ValidPath C certs)
    {root cert : X509Certificate} (hroot : certs.getLast? = some root) {k : Nat}
    (hcert : certs[k]? = some cert) (hk : certs.length ≤ k + 2) :
    cert.issuer.asRaw = root.subject.asRaw := by
  have hissued := ((Path.rooted_iff_index.mp h.rooted).2 k cert hcert).name
  rw [hissued]
  rw [List.getLast?_eq_getElem?] at hroot
  have hlt := (List.getElem?_eq_some_iff.mp hcert).1
  -- above the last but one there is only the last, which issued itself
  by_cases hlast : k + 1 < certs.length
  · have hnext : k + 1 = certs.length - 1 := by omega
    rw [Path.parentOf, hnext, hroot, Option.getD_some]
  · have hself : k = certs.length - 1 := by omega
    have hnone : certs[k + 1]? = none := List.getElem?_eq_none (by omega)
    rw [Path.parentOf, hnone, Option.getD_none]
    rw [← hself, hcert] at hroot
    rw [Option.some.inj hroot]

/--
**Coverage is by two names.**

In an accepted run a certificate of any of the four chains is covered by a checked
CRL precisely when it was issued in the name at the end of the quote's chain or in
the name that issued the PCK leaf, and neither CRL lists it. The PCK leaf and the
last two certificates of the quote's chain are always covered.
-/
theorem revocation_coverage {currentTime : SystemTime} {collateral : SgxCollateral}
    {quote : SgxQuote} {expectedMrenclave : MREnclave} {floor : UInt32}
    {r : TcbStanding × SgxReportBody}
    (h : verifyRemoteAttestation C currentTime collateral quote expectedMrenclave floor = .ok r) :
    let i : Input := ⟨currentTime, collateral, quote, expectedMrenclave, floor⟩
    ∃ crl₁ crl₂ root leaf, RootCrl C i crl₁ ∧ PckCrl C i crl₂ ∧
      (i.chain C .quotePck).certs.getLast? = some root ∧
      (i.chain C .quotePck).certs.head? = some leaf ∧
      (∀ kind, ∀ cert ∈ (i.chain C kind).certs,
        ((∃ crl ∈ [crl₁, crl₂], cert.issuer.asRaw = crl.issuer.asRaw) ↔
          cert.issuer.asRaw = root.subject.asRaw ∨ cert.issuer.asRaw = leaf.issuer.asRaw) ∧
        ∀ crl ∈ [crl₁, crl₂],
          (⟨cert.issuer.asRaw, serialKey cert.rawSerial⟩ : RevokedEntry) ∉ crl.entries C) ∧
      ∀ (k : Nat) (cert : X509Certificate), (i.chain C .quotePck).certs[k]? = some cert →
        k = 0 ∨ (i.chain C .quotePck).certs.length ≤ k + 2 →
        ∃ crl ∈ [crl₁, crl₂], cert.issuer.asRaw = crl.issuer.asRaw := by
  intro i
  obtain ⟨hauth, _⟩ := Input.verify_eq_ok_iff.mp (show i.verify C = .ok r from h)
  obtain ⟨crl₁, h₁⟩ := hauth.rootCrl
  obtain ⟨crl₂, h₂⟩ := hauth.pckCrl
  obtain ⟨_, root, _, hroot, _⟩ := h₁.valid
  obtain ⟨leaf, _, _, hleaf, _⟩ := h₂.valid
  obtain ⟨hissuer₁, hissuer₂⟩ := crl_issuers h₁ h₂ hroot hleaf
  have hcovered (cert : X509Certificate) :
      (∃ crl ∈ [crl₁, crl₂], cert.issuer.asRaw = crl.issuer.asRaw) ↔
        cert.issuer.asRaw = root.subject.asRaw ∨ cert.issuer.asRaw = leaf.issuer.asRaw := by
    simp only [List.mem_cons, List.not_mem_nil, or_false, exists_eq_or_imp, exists_eq_left,
      hissuer₁, hissuer₂]
  have hunlisted (kind : ChainKind) (cert : X509Certificate)
      (hcert : cert ∈ (i.chain C kind).certs) : ∀ crl ∈ [crl₁, crl₂],
        (⟨cert.issuer.asRaw, serialKey cert.rawSerial⟩ : RevokedEntry) ∉ crl.entries C := by
    intro crl hcrl
    rcases List.mem_pair.mp hcrl with rfl | rfl
    · exact hauth.noneRevoked crl (.inl h₁) kind cert hcert
    · exact hauth.noneRevoked crl (.inr h₂) kind cert hcert
  refine ⟨crl₁, crl₂, root, leaf, h₁, h₂, hroot, hleaf,
    fun kind cert hcert => ⟨hcovered cert, hunlisted kind cert hcert⟩, ?_⟩
  intro k cert hcert hend
  rcases hend with rfl | hk
  · rw [List.head?_eq_getElem?, hcert] at hleaf
    exact (hcovered cert).mpr (.inr (by rw [Option.some.inj hleaf]))
  · exact (hcovered cert).mpr (.inl ((hauth.paths .quotePck).issuer_of_end hroot hcert hk))

/-- In the honest run of the synthetic PKI the two CRLs cover all of the quote's chain. -/
theorem honest_chain_covered :
    let C := Synthetic.crates (Synthetic.registry "UpToDate")
    let i : Input := ⟨Synthetic.currentTime, Synthetic.collateral "UpToDate",
      Synthetic.quote 5 Synthetic.pckChain, Synthetic.mrenclave, 17⟩
    ∃ crl₁ crl₂, RootCrl C i crl₁ ∧ PckCrl C i crl₂ ∧
      ∀ cert ∈ (i.chain C .quotePck).certs,
        ∃ crl ∈ [crl₁, crl₂], cert.issuer.asRaw = crl.issuer.asRaw := by
  intro C i
  obtain ⟨crl₁, crl₂, _, _, h₁, h₂, _, _, _, hends⟩ := revocation_coverage Synthetic.honest_accepted
  refine ⟨crl₁, crl₂, h₁, h₂, fun cert hcert => ?_⟩
  obtain ⟨k, hk⟩ := List.mem_iff_getElem?.mp hcert
  have hlen : (i.chain C .quotePck).certs.length = 3 := by decide +kernel
  have hlt : k < (i.chain C .quotePck).certs.length := (List.getElem?_eq_some_iff.mp hk).1
  refine hends k cert hk ?_
  change k = 0 ∨ (i.chain C .quotePck).certs.length ≤ k + 2
  omega

/-- **A certificate outside both names is not covered.** An intermediate of its own puts the TCB
signing leaf under an authority whose CRL is never consulted, and the run still succeeds. -/
theorem uncovered_certificate :
    ¬ ∀ (C : Crates) (currentTime : SystemTime) (collateral : SgxCollateral) (quote : SgxQuote)
        (expectedMrenclave : MREnclave) (floor : UInt32) (r : TcbStanding × SgxReportBody),
      verifyRemoteAttestation C currentTime collateral quote expectedMrenclave floor = .ok r →
      let i : Input := ⟨currentTime, collateral, quote, expectedMrenclave, floor⟩
      ∀ kind, ∀ cert ∈ (i.chain C kind).certs, ∃ crl,
        (RootCrl C i crl ∨ PckCrl C i crl) ∧ crl.issuer.asRaw = cert.issuer.asRaw := by
  intro hall
  let C := Synthetic.crates (Synthetic.registry "UpToDate")
  let i : Input := ⟨Synthetic.currentTime,
    { Synthetic.collateral "UpToDate" with tcbInfoIssuerChain := "650" },
    Synthetic.quote 5 Synthetic.pckChain, Synthetic.mrenclave, 17⟩
  have haccepted : i.verify C = .ok (.upToDate, Synthetic.report 5 (Synthetic.zeros 64)) := by
    decide +kernel
  have hleaf : ((i.chain C .tcbInfoIssuer).certs.head?.map fun c => c.issuer.asRaw) =
      some (asBytes "Other CA") := by decide +kernel
  have hroot : (decodeCrl C "root CA CRL" (asBytes i.collateral.rootCaCrl)).map
      (fun crl => crl.issuer.asRaw) = .ok (asBytes "Root") := by decide +kernel
  have hpck : (decodeCrl C "PCK CRL" (asBytes i.collateral.pckCrl)).map
      (fun crl => crl.issuer.asRaw) = .ok (asBytes "PCK CA") := by decide +kernel
  obtain ⟨leaf, hhead, hissuer⟩ := Option.map_eq_some_iff.mp hleaf
  obtain ⟨crl, hcrl, hcovers⟩ :=
    hall _ _ _ _ _ _ _ haccepted .tcbInfoIssuer leaf (List.mem_of_head? hhead)
  rw [hissuer] at hcovers
  rcases hcrl with hcrl | hcrl
  · rw [hcrl.decoded, Except.map, Except.ok.injEq, hcovers] at hroot
    exact absurd hroot (by decide +kernel)
  · rw [hcrl.decoded, Except.map, Except.ok.injEq, hcovers] at hpck
    exact absurd hpck (by decide +kernel)

end DcapVerify
