import DividendX.Controls
import DividendX.Sdk.Quotes

/-!
# Both sides read a mint alike

The client decodes the extensions of a mint by raw offsets, the program by typed layouts. On every
mint whose entries have the sizes of their layouts they accept the same, find the same decimals,
mask and scale, and hash the same bytes; and the client's comparison with a policy is the program's.
-/

namespace DividendX

open LittleEndian

namespace Sdk

variable {host : Host} {key : Pubkey} {mint : Mint} {clock : ChainClock}
    {now : Int64} {st st' : Scan}
  {ins ins' : Inspection} {type : UInt16} {types : List UInt16}

/-- The variables before the loop of `inspectMintProfile`. -/
def Scan.start (host : Host) (address : Pubkey) (mint : Mint) : Scan where
  extensionsMask := 0
  fingerprintParts := "dividendx:mint-controls:v1".toUTF8.data.toList
    ++ (host.addressBytes address).toList ++ optionPublicKey host mint.mintAuthority
    ++ optionPublicKey host mint.freezeAuthority
  scale := none
  accountingFactorsSupported := false

/-- The bytes the client hashes into the fingerprint. -/
def fingerprintPreimage (host : Host) (address : Pubkey) (mint : Mint) (clock : ChainClock) :
    Thrown (List UInt8) := do
  let st ← mint.sortedTypes.foldlM (scanExtension mint clock) (.start host address mint)
  return st.fingerprintParts

theorem extensionData_eq_payload {data : List UInt8} :
    extensionData mint type = .ok data ↔ mint.payload? type = some data := by
  simp only [extensionData, Mint.payload?, Result.bind_eq_ok, Result.okOr_eq_ok, Result.pure_eq_ok,
    Option.map_eq_some_iff]

theorem getD_of_drop_eq {data : List UInt8} {b : UInt8} (h : data.drop 32 = [b]) :
    data.getD 32 0 = b := by
  have hget := congrArg (fun l : List UInt8 => l[0]?) h
  simp only [List.getElem?_drop, Nat.add_zero, List.getElem?_cons_zero] at hget
  rw [List.getD_eq_getElem?_getD, hget, Option.getD_some]

/-- **One extension, the other way**: what fits for the program the client accepts. -/
theorem scanExtension_of_passes (clock : ChainClock) (st : Scan) (hpasses : Passes mint type)
    (hmem : type ∈ mint.extensionTypes) :
    ∃ st', scanExtension mint clock st type = .ok st' := by
  simp only [scanExtension, Result.bind_eq_ok, Result.exists_unit, Result.pure_eq_ok,
    invariant_eq_ok, Result.checkWhen_eq_ok, extensionData_eq_payload]
  rcases hpasses with rfl | ⟨data, hfits⟩
  · obtain ⟨data, hdata⟩ :=
      Option.ne_none_iff_exists'.mp (mt payload?_eq_none.mp (not_not.mpr hmem))
    exact ⟨_, by decide, data, hdata, _, rfl, nofun, nofun, nofun, rfl⟩
  · have hcases := layoutSize_cases hfits.size
    simp only [List.mem_cons, List.not_mem_nil, or_false, Prod.mk.injEq] at hcases
    have hallowed : type < 64 ∧ type ∈ ALLOWED := by
      rcases hcases with ⟨rfl, -⟩ | ⟨rfl, -⟩ | ⟨rfl, -⟩ | ⟨rfl, -⟩
        | ⟨rfl, -⟩ | ⟨rfl, -⟩ | ⟨rfl, -⟩ | ⟨rfl, -⟩ <;>
        decide
    have hscan : ∀ st : Scan, ∃ st', scanData clock st type data = .ok st' := by
      intro st
      rw [scanData]
      split_ifs with hscale
      · -- the only length the client looks at before the checks
        have hlen : data.length = 56 := by
          subst hscale
          exact (Option.some.inj hfits.size).symm
        exact ⟨_, Result.bind_eq_ok.mpr ⟨(), invariant_eq_ok.mpr hlen, rfl⟩⟩
      · exact ⟨_, rfl⟩
      · exact ⟨_, rfl⟩
      · exact ⟨_, rfl⟩
    obtain ⟨st', hst'⟩ := hscan _
    refine ⟨st', hallowed, data, hfits.payload, st', hst', hfits.initialized, ?_, ?_, rfl⟩
    · rintro rfl
      have hzero := (List.eq_replicate_iff.mp (hfits.unhooked rfl)).2
      exact ⟨(Option.some.inj hfits.size).symm, List.all_eq_true.mpr fun b hb =>
        decide_eq_true (hzero b hb)⟩
    · rintro rfl
      exact ⟨(Option.some.inj hfits.size).symm, getD_of_drop_eq (hfits.running rfl)⟩

/-- Over any list of types the client follows the program. -/
theorem foldlM_scanExtension_of_passes (clock : ChainClock) (st : Scan)
    (hpasses : ∀ type ∈ types, Passes mint type)
    (hmem : ∀ type ∈ types, type ∈ mint.extensionTypes) :
    ∃ st', types.foldlM (scanExtension mint clock) st = .ok st' := by
  induction types generalizing st with
  | nil => exact ⟨st, rfl⟩
  | cons type types ih =>
    rw [List.forall_mem_cons] at hpasses hmem
    obtain ⟨st₁, hfirst⟩ := scanExtension_of_passes clock st hpasses.1 hmem.1
    obtain ⟨st', hrest⟩ := ih st₁ hpasses.2 hmem.2
    rw [List.foldlM_cons]
    exact ⟨st', Result.bind_eq_ok.mpr ⟨st₁, hfirst, hrest⟩⟩

/-! ## The whole mint -/

theorem Scan.Matches.start : Scan.Matches mint (.start host key mint)
    { mask := 0, fingerprint := fingerprintBase host key mint, scale := none } := by
  refine ⟨rfl, ?_, rfl, by simp [Scan.start]⟩
  simp only [Scan.start, optionPublicKey_eq]
  rfl

theorem inspectMintProfile_eq_ok {p : InspectedMintProfile} :
    inspectMintProfile host key mint clock = .ok p ↔
      mint.isInitialized = true ∧ (mint.decimals = 6 ∨ mint.decimals = 8 ∨ mint.decimals = 9) ∧
      mint.sortedTypes.Nodup ∧
      ∃ st, mint.sortedTypes.foldlM (scanExtension mint clock) (.start host key mint) = .ok st ∧
        ∃ scale, st.scale = some scale ∧
          { decimals := mint.decimals.toNat, extensionsMask := st.extensionsMask, scale := scale,
            controlsFingerprint := host.sha256 st.fingerprintParts,
            accountingFactorsSupported := st.accountingFactorsSupported } = p := by
  simp only [inspectMintProfile, Scan.start, Result.bind_eq_ok, Result.exists_unit,
    Result.pure_eq_ok, invariant_eq_ok, Result.okOr_eq_ok]

/-- What the program's exit inspection accepts the client accepts. -/
theorem inspectMintProfile_of_accepted {profile : MintProfile}
    (hclock : clock.unixTimestamp = now.toInt)
    (hl : mint.laidOut = true) (h : inspectMintForExit host key mint now = .ok profile) :
    ∃ p, inspectMintProfile host key mint clock = .ok p := by
  obtain ⟨-, hinit, hdecimals, hchain, ins, hloop, scale, hscale, -⟩ := inspectMintInner_eq_ok.mp h
  obtain ⟨st, hst⟩ := foldlM_scanExtension_of_passes clock (.start host key mint)
    (fun type hmem => passes_of_accepted h hmem) fun type => mem_sortedTypes.mp
  obtain ⟨ins', hloop', hm⟩ := foldlM_scanExtension_agrees hclock hl .start hst
  obtain rfl : ins = ins' := Except.ok.inj (hloop.symm.trans hloop')
  refine ⟨_, inspectMintProfile_eq_ok.mpr ⟨hinit, hdecimals,
    nodup_of_isChain_ne mint.sortedTypes_sorted hchain, st, hst, .ofProgram scale, ?_, rfl⟩⟩
  rw [hm.scale, hscale, Option.map_some]

/-- Both sides hash the same bytes. -/
theorem fingerprintPreimage_agrees {p : InspectedMintProfile}
    (hclock : clock.unixTimestamp = now.toInt)
    (hl : mint.laidOut = true) (h : inspectMintProfile host key mint clock = .ok p) :
    ∃ bytes, fingerprintPreimage host key mint clock = .ok bytes ∧
      controlsPreimage host key mint now = .ok bytes ∧
        p.controlsFingerprint = host.sha256 bytes := by
  obtain ⟨-, -, -, st, hst, scale, -, rfl⟩ := inspectMintProfile_eq_ok.mp h
  obtain ⟨ins, hloop, hm⟩ := foldlM_scanExtension_agrees hclock hl .start hst
  refine ⟨st.fingerprintParts, Result.bind_eq_ok.mpr ⟨st, hst, rfl⟩, ?_, rfl⟩
  exact controlsPreimage_eq_ok.mpr ⟨ins, hloop, hm.fingerprint⟩

/-- The observation of a policy can still be used. -/
def ObservationFresh (asset : AssetPolicy) (c : Clock) : Prop :=
  asset.observationEvidenceDigest ≠ zero32 ∧ c.unixTimestamp ≤ asset.observationValidUntil ∧
    asset.observedSlot ≤ c.slot

theorem requireReviewedProfile_iff {asset : AssetPolicy} {c : Clock} :
    (∃ profile, requireReviewedProfile host asset key mint c = .ok profile) ↔
      ObservationFresh asset c ∧
      ∃ profile, inspectMint host key mint c.unixTimestamp = .ok profile ∧
        profile.decimals = asset.decimals ∧ profile.extensionsMask = asset.extensionsMask ∧
        profile.controlsFingerprint = asset.reviewedControlsFingerprint ∧
        requireScaleEqualsReview asset profile.scale = .ok () := by
  simp only [requireReviewedProfile, Result.bind_eq_ok, Result.require_eq_ok, Result.exists_unit,
    Result.pure_eq_ok]
  constructor
  · rintro ⟨_, hfresh, profile, hinspect, hd, hm, hc, hs, rfl⟩
    exact ⟨hfresh, profile, hinspect, hd, hm, hc, hs⟩
  · rintro ⟨hfresh, profile, hinspect, hd, hm, hc, hs⟩
    exact ⟨profile, hfresh, profile, hinspect, hd, hm, hc, hs, rfl⟩

/-- **One reading of a mint**: the client accepts a mint exactly if the program's exit inspection
does, then with the same decimals, mask, scale and hashed bytes; it calls the factors supported
exactly if the full inspection passes too; and its comparison with a policy is the program's. -/
theorem inspectMintProfile_iff (host : Host) (key : Pubkey) (mint : Mint) (c : Clock)
    (hprogram : mint.tokenProgram = .token2022) (hl : mint.laidOut = true) :
    ((∃ p, inspectMintProfile host key mint (.ofProgram c) = .ok p) ↔
      ∃ profile, inspectMintForExit host key mint c.unixTimestamp = .ok profile) ∧
    ∀ p profile, inspectMintProfile host key mint (.ofProgram c) = .ok p →
      inspectMintForExit host key mint c.unixTimestamp = .ok profile →
      p.Matches profile ∧
      (∃ bytes, fingerprintPreimage host key mint (.ofProgram c) = .ok bytes ∧
        controlsPreimage host key mint c.unixTimestamp = .ok bytes ∧
        p.controlsFingerprint = host.sha256 bytes) ∧
      (p.accountingFactorsSupported = true ↔
        ∃ q, inspectMint host key mint c.unixTimestamp = .ok q) ∧
      ∀ (assetKey : Pubkey) (asset : AssetPolicy), ObservationFresh asset c →
        (mintProfileMatchesPolicy (normalizeAssetPolicyAccount assetKey asset false) p = true ↔
          ∃ q, requireReviewedProfile host asset key mint c = .ok q) := by
  have hclock : (ChainClock.ofProgram c).unixTimestamp = c.unixTimestamp.toInt := rfl
  constructor
  · constructor
    · rintro ⟨p, hp⟩
      obtain ⟨profile, -, hexit, -⟩ := inspectMintProfile_agrees hclock hprogram hl hp
      exact ⟨profile, hexit⟩
    · rintro ⟨profile, hexit⟩
      exact inspectMintProfile_of_accepted hclock hl hexit
  · intro p profile hp hexit
    obtain ⟨profile', hmatch, hexit', hsupported, hunique⟩ :=
      inspectMintProfile_agrees hclock hprogram hl hp
    obtain rfl : profile = profile' := Except.ok.inj (hexit.symm.trans hexit')
    refine ⟨hmatch, fingerprintPreimage_agrees hclock hl hp, hsupported, ?_⟩
    intro assetKey asset hfresh
    rw [mintProfileMatchesPolicy_iff hmatch, hsupported, requireReviewedProfile_iff]
    constructor
    · rintro ⟨⟨q, hq⟩, hrest⟩
      obtain rfl := hunique q hq
      exact ⟨hfresh, q, hq, hrest⟩
    · rintro ⟨-, q, hq, hrest⟩
      obtain rfl := hunique q hq
      exact ⟨⟨q, hq⟩, hrest⟩

/-- A mint with every control that is understood, and a delegate, a close authority and a freeze
authority that hold it; the entries in no order. -/
def controlledMint : Mint :=
  { Sample.mint with
    freezeAuthority := some (.wallet Sample.attestor)
    extensions := [⟨PAUSABLE, List.replicate 32 0x12 ++ [0]⟩, ⟨TOKEN_METADATA, [1, 2]⟩,
        ⟨METADATA_POINTER, List.replicate 64 0x15⟩, ⟨PERMANENT_DELEGATE, List.replicate 32 0x16⟩,
        ⟨DEFAULT_ACCOUNT_STATE, [1]⟩]
      ++ Sample.mint.extensions ++ [⟨TRANSFER_HOOK, List.replicate 32 0x17 ++ List.replicate 32 0⟩,
        ⟨MINT_CLOSE_AUTHORITY, List.replicate 32 0x18⟩,
        ⟨CONFIDENTIAL_TRANSFER_MINT, List.replicate 65 0x19⟩] }

/-- The policy that was reviewed for it. -/
def reviewedPolicy : AssetPolicy where
  config := .config
  issuerId := Sample.issuerId
  collateralMint := Sample.mintKey
  symbol := "TESTx"
  decimals := 6
  attestor := .wallet Sample.attestor
  policyDigest := Sample.evidence
  extensionsMask := 0x60c5058
  admissionEnabled := true
  reviewedCurrentMultiplierBits := Sample.one
  reviewedNewMultiplierBits := Sample.one
  reviewedNewMultiplierEffectiveTimestamp := 0
  reviewedActiveMultiplierBits := Sample.one
  reviewedControlsFingerprint :=
    ⟨[184, 110, 97, 208, 66, 224, 213, 190, 211, 70, 70, 74, 220, 63, 252, 92, 52, 34, 53, 11, 173,
      94, 230, 84, 23, 176, 6, 154, 7, 108, 73, 1], rfl⟩
  observedSlot := 10
  observationValidUntil := 20
  observationEvidenceDigest := Sample.evidence

/-- Both sides accept the mint, and it meets the policy that was reviewed for it. -/
theorem inspectMintProfile_iff_sample :
    ∃ p, inspectMintProfile Sample.host Sample.mintKey controlledMint
      (.ofProgram ⟨10, 20⟩) = .ok p ∧ p.accountingFactorsSupported = true ∧
      mintProfileMatchesPolicy (normalizeAssetPolicyAccount Sample.assetKey reviewedPolicy false) p
        = true := by
  have haccepted :
      (inspectMintForExit Sample.host Sample.mintKey controlledMint 20).toOption.isSome = true := by
    decide +kernel
  have hfull : (inspectMint Sample.host Sample.mintKey controlledMint 20).toOption.isSome =
      true := by
    decide +kernel
  have hreviewed : (requireReviewedProfile Sample.host reviewedPolicy Sample.mintKey controlledMint
      ⟨10, 20⟩).toOption.isSome = true := by
    decide +kernel
  simp only [Option.isSome_iff_exists, Result.toOption_eq_some] at haccepted hfull hreviewed
  obtain ⟨hiff, hsame⟩ := inspectMintProfile_iff Sample.host Sample.mintKey controlledMint ⟨10, 20⟩
    (by decide +kernel) (by decide +kernel)
  obtain ⟨p, hp⟩ := hiff.mpr haccepted
  obtain ⟨profile, hexit⟩ := haccepted
  obtain ⟨-, -, hfactors, hpolicy⟩ := hsame p profile hp hexit
  refine ⟨p, hp, hfactors.mpr hfull, (hpolicy _ _ ?_).mpr hreviewed⟩
  rw [ObservationFresh]
  decide +kernel

end Sdk

end DividendX
