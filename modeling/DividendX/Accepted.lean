import DividendX.Chain

/-!
# What an accepted instruction checked and wrote

One lemma for each handler, `…_eq_ok`: the instruction succeeds exactly when it could load its
accounts and all its checks passed, and then the world after it is the stated one. The checks of
an instruction are a structure with one named field a check, in the source's order; the loaded
accounts of the larger instructions are records. Everything later is derived from these lemmas,
no proof looks inside a handler again.
-/

namespace DividendX

variable {host : Host} {w w' : World}

/-! ## Loading -/

/-- An account loads if it is there. -/
theorem World.load_eq_ok {α : Type} {store : Pubkey → Option α} {key : Pubkey} {a : α} :
    World.load store key = .ok a ↔ store key = some a := by
  simp only [World.load, Result.okOr_eq_ok]

theorem World.loadMint_eq_ok {key : Pubkey} {m : Mint} :
    w.loadMint key = .ok m ↔ w.bank.mints key = some m ∧ m.isInitialized = true := by
  simp only [World.loadMint, Result.bind_eq_ok, World.load_eq_ok, Result.require_eq_ok,
    Result.exists_unit, Result.pure_eq_ok]
  constructor
  · rintro ⟨_, hm, hi, rfl⟩
    exact ⟨hm, hi⟩
  · rintro ⟨hm, hi⟩
    exact ⟨m, hm, hi, rfl⟩

theorem World.loadToken_eq_ok {key : Pubkey} {t : TokenAccount} :
    w.loadToken key = .ok t ↔ w.bank.tokens key = some t ∧ t.state ≠ .uninitialized := by
  simp only [World.loadToken, Result.bind_eq_ok, World.load_eq_ok, Result.require_eq_ok,
    Result.exists_unit, Result.pure_eq_ok]
  constructor
  · rintro ⟨_, ht, hs, rfl⟩
    exact ⟨ht, hs⟩
  · rintro ⟨ht, hs⟩
    exact ⟨t, ht, hs, rfl⟩

theorem World.loadClaimMint_eq_ok {key : Pubkey} {m : Mint} :
    w.loadClaimMint key = .ok m ↔
      (w.bank.mints key = some m ∧ m.isInitialized = true) ∧ m.tokenProgram = .token := by
  simp only [World.loadClaimMint, Result.bind_eq_ok, World.loadMint_eq_ok, Result.require_eq_ok,
    Result.exists_unit, Result.pure_eq_ok]
  constructor
  · rintro ⟨_, hm, hp, rfl⟩
    exact ⟨hm, hp⟩
  · rintro ⟨hm, hp⟩
    exact ⟨m, hm, hp, rfl⟩

theorem World.loadClaimToken_eq_ok {key : Pubkey} {t : TokenAccount} :
    w.loadClaimToken key = .ok t ↔
      (w.bank.tokens key = some t ∧ t.state ≠ .uninitialized) ∧ t.tokenProgram = .token := by
  simp only [World.loadClaimToken, Result.bind_eq_ok, World.loadToken_eq_ok, Result.require_eq_ok,
    Result.exists_unit, Result.pure_eq_ok]
  constructor
  · rintro ⟨_, ht, hp, rfl⟩
    exact ⟨ht, hp⟩
  · rintro ⟨ht, hp⟩
    exact ⟨t, ht, hp, rfl⟩

theorem World.loadCollateralMint_eq_ok {key : Pubkey} {m : Mint} :
    w.loadCollateralMint key = .ok m ↔
      w.bank.mints key = some m ∧ m.tokenProgram = .token2022 := by
  simp only [World.loadCollateralMint, Result.bind_eq_ok, World.load_eq_ok, Result.require_eq_ok,
    Result.exists_unit, Result.pure_eq_ok]
  constructor
  · rintro ⟨_, hm, hp, rfl⟩
    exact ⟨hm, hp⟩
  · rintro ⟨hm, hp⟩
    exact ⟨m, hm, hp, rfl⟩

/-! ## Shared checks -/

/-- The guard of a user: the version, the time and the least output. -/
theorem checkGuard_eq_ok {s : Series} {g : Guard} {c : Clock} {out : UInt64} {u : Unit} :
    checkGuard s g c out = .ok u ↔ g.expectedStateVersion = s.stateVersion ∧
      c.unixTimestamp ≤ g.expiryUnixTimestamp ∧ g.minimumRawOutput ≤ out := by
  simp only [checkGuard, Result.bind_eq_ok, Result.require_eq_ok, Result.exists_unit]

/-- What `validate_exit_accounts` establishes. -/
structure ExitValid (k : Pubkey) (s : Series) (pk : Pubkey) (p : AssetPolicy) (mk : Pubkey)
    (m : Mint) (vk : Pubkey) (v : TokenAccount) : Prop where
  assetPolicy : s.assetPolicy = pk
  policyDigest : s.policyDigest = p.policyDigest
  collateralMint : mk = s.collateralMint
  mintProgram : m.tokenProgram = .token2022
  vault : vk = s.vault
  vaultProgram : v.tokenProgram = .token2022
  vaultMint : v.mint = s.collateralMint
  vaultOwner : v.owner = k
  vaultAuthorities : v.delegate = none ∧ v.closeAuthority = none
  vaultState : v.state = .initialized

/-- What `validate_series_accounts` establishes. -/
structure SeriesValid (k : Pubkey) (s : Series) (pk : Pubkey) (p : AssetPolicy) (mk : Pubkey)
    (m : Mint) (vk : Pubkey) (v : TokenAccount) (ptk : Pubkey) (pt : Mint) (drk : Pubkey)
    (dr : Mint) : Prop where
  exit : ExitValid k s pk p mk m vk v
  ptMint : ptk = s.ptMint
  drMint : drk = s.drMint
  distinct : ptk ≠ drk
  ptProgram : pt.tokenProgram = .token
  drProgram : dr.tokenProgram = .token

/-- What `validate_holder_collateral` and `validate_holder_claim` establish. -/
structure HolderValid (program : TokenProgramId) (t : TokenAccount) (holder mintKey : Pubkey) :
    Prop where
  tokenProgram : t.tokenProgram = program
  owner : t.owner = holder
  mint : t.mint = mintKey
  state : t.state = .initialized

/-- What `require_claim_mint_open` and `require_claim_mint_final` establish. -/
structure ClaimMintValid (authority : Option Pubkey) (m : Mint) (decimals : UInt8) : Prop where
  decimals : m.decimals = decimals
  mintAuthority : m.mintAuthority = authority
  freezeAuthority : m.freezeAuthority = none

/-- The checks on the way out pass for accounts that are the series' own. -/
theorem validateExitAccounts_eq_ok {k : Pubkey} {s : Series} {pk : Pubkey} {p : AssetPolicy}
    {mk : Pubkey} {m : Mint} {vk : Pubkey} {v : TokenAccount} {u : Unit} :
    validateExitAccounts k s pk p mk m vk v = .ok u ↔ ExitValid k s pk p mk m vk v := by
  simp only [validateExitAccounts, Result.bind_eq_ok, Result.require_eq_ok, Result.exists_unit]
  refine ⟨fun ⟨h1, h2, h3, h4, h5, h6, h7, h8, h9, h10⟩ =>
    ⟨h1, h2, h3, h4, h5, h6, h7, h8, h9, h10⟩,
    fun h => ⟨h.assetPolicy, h.policyDigest, h.collateralMint, h.mintProgram, h.vault,
      h.vaultProgram, h.vaultMint, h.vaultOwner, h.vaultAuthorities, h.vaultState⟩⟩

/-- The checks of the whole series pass for accounts that are its own. -/
theorem validateSeriesAccounts_eq_ok {k : Pubkey} {s : Series} {pk : Pubkey} {p : AssetPolicy}
    {mk : Pubkey} {m : Mint} {vk : Pubkey} {v : TokenAccount} {ptk : Pubkey} {pt : Mint}
    {drk : Pubkey} {dr : Mint} {u : Unit} :
    validateSeriesAccounts k s pk p mk m vk v ptk pt drk dr = .ok u ↔
      SeriesValid k s pk p mk m vk v ptk pt drk dr := by
  simp only [validateSeriesAccounts, Result.bind_eq_ok, Result.require_eq_ok, Result.exists_unit,
    validateExitAccounts_eq_ok]
  refine ⟨fun ⟨h1, h2, h3, h4, h5, h6⟩ => ⟨h1, h2, h3, h4, h5, h6⟩,
    fun h => ⟨h.exit, h.ptMint, h.drMint, h.distinct, h.ptProgram, h.drProgram⟩⟩

theorem validateHolder_eq_ok {program : TokenProgramId} {t : TokenAccount}
    {holder mintKey : Pubkey} {u : Unit} :
    validateHolder program t holder mintKey = .ok u ↔ HolderValid program t holder mintKey := by
  simp only [validateHolder, Result.bind_eq_ok, Result.require_eq_ok, Result.exists_unit]
  refine ⟨fun ⟨h1, h2, h3, h4⟩ => ⟨h1, h2, h3, h4⟩,
    fun h => ⟨h.tokenProgram, h.owner, h.mint, h.state⟩⟩

theorem requireClaimMint_eq_ok {authority : Option Pubkey} {m : Mint} {decimals : UInt8}
    {u : Unit} :
    requireClaimMint authority m decimals = .ok u ↔ ClaimMintValid authority m decimals := by
  simp only [requireClaimMint, Result.bind_eq_ok, Result.require_eq_ok, Result.exists_unit]
  refine ⟨fun ⟨h1, h2, h3⟩ => ⟨h1, h2, h3⟩,
    fun h => ⟨h.decimals, h.mintAuthority, h.freezeAuthority⟩⟩

/-- The version counts up, unless it is full. -/
theorem bumpStateVersion_eq_ok {s s' : Series} : bumpStateVersion s = .ok s' ↔
    ∃ v : UInt64, v.toNat = s.stateVersion.toNat + 1 ∧ s' = { s with stateVersion := v } := by
  simp only [bumpStateVersion, Result.bind_eq_ok, Result.okOr_eq_ok, Checked.addU64_eq_some,
    Result.pure_eq_ok, eq_comm (a := s')]
  rfl

/-- What is left of both pools. -/
theorem remainingObligations_eq_ok {s : Series} {r : UInt64} : remainingObligations s = .ok r ↔
    s.ptPaid.toNat ≤ s.ptPool.toNat ∧ s.drPaid.toNat ≤ s.drPool.toNat ∧
      r.toNat + s.ptPaid.toNat + s.drPaid.toNat = s.ptPool.toNat + s.drPool.toNat := by
  simp only [remainingObligations, Result.bind_eq_ok, Result.okOr_eq_ok, Checked.subU64_eq_some,
    Checked.addU64_eq_some]
  constructor
  · rintro ⟨a, ha, b, hb, hr⟩
    omega
  · rintro ⟨hpt, hdr, hsum⟩
    refine ⟨s.ptPool - s.ptPaid, ?_, s.drPool - s.drPaid, ?_, ?_⟩ <;>
      simp only [Checked.toNat_sub_of_le hpt, Checked.toNat_sub_of_le hdr] <;> omega

/-! ## Administration and creation -/

/-- A policy that keeps what was registered; the attestor's observation may change. -/
structure SamePolicy (p p' : AssetPolicy) : Prop where
  config : p'.config = p.config
  issuerId : p'.issuerId = p.issuerId
  collateralMint : p'.collateralMint = p.collateralMint
  decimals : p'.decimals = p.decimals
  attestor : p'.attestor = p.attestor
  policyDigest : p'.policyDigest = p.policyDigest
  extensionsMask : p'.extensionsMask = p.extensionsMask
  reviewedControlsFingerprint : p'.reviewedControlsFingerprint = p.reviewedControlsFingerprint

/-- Only the config is written. -/
theorem initializeConfig_ok {upgradeAuthority domain : Bytes32}
    (h : initializeConfig w upgradeAuthority domain = .ok w') :
    ∃ config, w' = { w with config := some config } := by
  simp only [initializeConfig, Result.bind_eq_ok, Result.require_eq_ok, Result.exists_unit,
    Result.pure_eq_ok] at h
  obtain ⟨-, -, -, rfl⟩ := h
  exact ⟨_, rfl⟩

/-- An inspected mint is of Token-2022, and its decimals are those of the mint. -/
theorem inspectMintInner_decimals {key : Pubkey} {m : Mint} {now : Int64} {bounds : Bool}
    {profile : MintProfile} (h : inspectMintInner host key m now bounds = .ok profile) :
    m.tokenProgram = .token2022 ∧ profile.decimals = m.decimals := by
  simp only [inspectMintInner, Result.bind_eq_ok, Result.require_eq_ok, Result.exists_unit,
    Result.okOr_eq_ok, Result.pure_eq_ok] at h
  obtain ⟨hprogram, -, -, -, -, st, -, scale, -, rfl⟩ := h
  exact ⟨hprogram, rfl⟩

theorem registerAsset_ok {acc : RegisterAssetAccounts} {issuerId : Bytes32} {symbol : String}
    {attestor : Pubkey} {policyDigest : Bytes32}
    (h : registerAsset host w acc issuerId symbol attestor policyDigest = .ok w') :
    ∃ p m, w.bank.mints acc.collateralMint = some m ∧ m.tokenProgram = .token2022 ∧
      w.policies (.asset issuerId acc.collateralMint) = none ∧ p.issuerId = issuerId ∧
      p.collateralMint = acc.collateralMint ∧ p.decimals = m.decimals ∧
      w' = w.putPolicy (.asset issuerId acc.collateralMint) p := by
  simp only [registerAsset, Result.bind_eq_ok, Result.require_eq_ok, Result.exists_unit,
    Result.okOr_eq_ok, Result.pure_eq_ok, World.loadCollateralMint_eq_ok] at h
  obtain ⟨config, -, m, ⟨hm, hprogram⟩, hnone, -, -, -, -, -, profile, hprofile, rfl⟩ := h
  exact ⟨_, m, hm, hprogram, hnone, rfl, rfl, (inspectMintInner_decimals hprofile).2, rfl⟩

/-- Admission writes the policy, and leaves what it is about. -/
theorem setAssetAdmission_ok {acc : SetAssetAdmissionAccounts} {enabled : Bool}
    (h : setAssetAdmission w acc enabled = .ok w') :
    ∃ p p', w.policies acc.assetPolicy = some p ∧ SamePolicy p p' ∧
      w' = w.putPolicy acc.assetPolicy p' := by
  simp only [setAssetAdmission, Result.bind_eq_ok, Result.require_eq_ok, Result.exists_unit,
    Result.okOr_eq_ok, Result.pure_eq_ok, World.load_eq_ok] at h
  obtain ⟨config, -, p, hp, -, -, rfl⟩ := h
  refine ⟨p, _, hp, ?_, rfl⟩
  exact ⟨rfl, rfl, rfl, rfl, rfl, rfl, rfl, rfl⟩

/-- So does a new observation. -/
theorem refreshObservation_ok {acc : RefreshObservationAccounts} {evidence : Bytes32}
    {validUntil : Int64} (h : refreshObservation host w acc evidence validUntil = .ok w') :
    ∃ p p', w.policies acc.assetPolicy = some p ∧ SamePolicy p p' ∧
      w' = w.putPolicy acc.assetPolicy p' := by
  simp only [refreshObservation, Result.bind_eq_ok, Result.require_eq_ok, Result.exists_unit,
    Result.pure_eq_ok, World.load_eq_ok, World.loadCollateralMint_eq_ok] at h
  obtain ⟨p, hp, m, -, -, -, -, -, -, profile, -, -, -, -, rfl⟩ := h
  refine ⟨p, _, hp, ?_, rfl⟩
  exact ⟨rfl, rfl, rfl, rfl, rfl, rfl, rfl, rfl⟩

/-- An admitted mint passes the full inspection. -/
theorem requireAdmission_ok {p : AssetPolicy} {key : Pubkey} {m : Mint} {c : Clock}
    {profile : MintProfile} (h : requireAdmission host p key m c = .ok profile) :
    inspectMint host key m c.unixTimestamp = .ok profile ∧ profile.decimals = p.decimals := by
  simp only [requireAdmission, requireReviewedProfile, Result.bind_eq_ok, Result.require_eq_ok,
    Result.exists_unit, Result.pure_eq_ok] at h
  obtain ⟨-, -, profile, hprofile, hdecimals, -, -, -, rfl⟩ := h
  exact ⟨hprofile, hdecimals⟩

/-- What `create_series` needed, and all it wrote. -/
structure SeriesCreated (host : Host) (w : World) (acc : CreateSeriesAccounts) (year : UInt16)
    (p : AssetPolicy) (s : Series) (w' : World) : Prop where
  policy : w.policies acc.assetPolicy = some p
  policyKey : acc.assetPolicy = .asset p.issuerId acc.collateralMint
  policyMint : p.collateralMint = acc.collateralMint
  noSeries : w.series (.series acc.assetPolicy year) = none
  noPt : w.bank.mints (.pt (.series acc.assetPolicy year)) = none
  noDr : w.bank.mints (.dr (.series acc.assetPolicy year)) = none
  noVault : w.bank.tokens (.ata (.series acc.assetPolicy year) acc.collateralMint) = none
  fresh : ∃ start maturity profile, yearBounds year = .ok (start, maturity) ∧
    w.clock.unixTimestamp < start ∧ profile.decimals = p.decimals ∧
    s = freshSeries host (.series acc.assetPolicy year) acc.assetPolicy p year start maturity
      acc.collateralMint profile
  mint : ∃ m, w.bank.mints acc.collateralMint = some m ∧ m.tokenProgram = .token2022
  written : w' = ((w.putSeries (.series acc.assetPolicy year) s).putAccumulator
    (.accumulator (.series acc.assetPolicy year))
      ⟨.series acc.assetPolicy year, 0, [1], [1]⟩).setBank
    { tokens := Function.update w.bank.tokens
        (.ata (.series acc.assetPolicy year) acc.collateralMint)
        (some (freshVault (.series acc.assetPolicy year) acc.collateralMint))
      mints := Function.update (Function.update w.bank.mints
        (.pt (.series acc.assetPolicy year))
        (some (freshClaimMint (.series acc.assetPolicy year) p.decimals)))
        (.dr (.series acc.assetPolicy year))
        (some (freshClaimMint (.series acc.assetPolicy year) p.decimals)) }

theorem createSeries_ok {acc : CreateSeriesAccounts} {year : UInt16}
    (h : createSeries host w acc year = .ok w') : ∃ p s, SeriesCreated host w acc year p s w' := by
  simp only [createSeries, Result.bind_eq_ok, Result.require_eq_ok, Result.exists_unit,
    Result.pure_eq_ok, World.load_eq_ok, World.loadMint_eq_ok] at h
  obtain ⟨p, hp, m, ⟨hm, -⟩, hseries, -, hpt, hdr, hvault, hkey, hmint, ⟨start, maturity⟩, hbounds,
    hearly, profile, hprofile, rfl⟩ := h
  obtain ⟨hinspect, hdecimals⟩ := requireAdmission_ok hprofile
  exact ⟨p, _, ⟨hp, hkey, hmint, hseries, hpt, hdr, hvault,
    ⟨start, maturity, profile, hbounds, hearly, hdecimals, rfl⟩,
    ⟨m, hm, (inspectMintInner_decimals hinspect).1⟩, rfl⟩⟩

/-! ## Deposit and recombination -/

/-- The accounts of `Deposit` and `Recombine`, loaded. -/
structure PairLoaded where
  asset : AssetPolicy
  series : Series
  mint : Mint
  vault : TokenAccount
  holderCollateral : TokenAccount
  ptMint : Mint
  drMint : Mint
  holderPt : TokenAccount
  holderDr : TokenAccount

/-- The records are the accounts at the supplied addresses. -/
structure PairLoaded.From (L : PairLoaded) (w : World) (acc : PairAccounts) : Prop where
  asset : w.policies acc.assetPolicy = some L.asset
  series : w.series acc.series = some L.series
  mint : w.bank.mints acc.collateralMint = some L.mint ∧ L.mint.isInitialized = true
  vault : w.bank.tokens acc.vault = some L.vault ∧ L.vault.state ≠ .uninitialized
  holderCollateral : w.bank.tokens acc.holderCollateral = some L.holderCollateral ∧
    L.holderCollateral.state ≠ .uninitialized
  ptMint : (w.bank.mints acc.ptMint = some L.ptMint ∧ L.ptMint.isInitialized = true) ∧
    L.ptMint.tokenProgram = .token
  drMint : (w.bank.mints acc.drMint = some L.drMint ∧ L.drMint.isInitialized = true) ∧
    L.drMint.tokenProgram = .token
  holderPt : (w.bank.tokens acc.holderPt = some L.holderPt ∧ L.holderPt.state ≠ .uninitialized) ∧
    L.holderPt.tokenProgram = .token
  holderDr : (w.bank.tokens acc.holderDr = some L.holderDr ∧ L.holderDr.state ≠ .uninitialized) ∧
    L.holderDr.tokenProgram = .token
  hasOne : L.series.assetPolicy = acc.assetPolicy

/-- The checks of `deposit`. -/
structure DepositPasses (host : Host) (w : World) (acc : PairAccounts) (amount : UInt64)
    (guard : Guard) (L : PairLoaded) : Prop where
  positive : 0 < amount
  guarded : checkGuard L.series guard w.clock amount = .ok ()
  phase : L.series.phase = .open
  journal : fundingJournalOpen L.series.unresolvedCount L.series.inYearQualifiedCount = true
  early : w.clock.unixTimestamp < L.series.startTimestamp
  admitted : ∃ profile,
  requireAdmission host L.asset acc.collateralMint L.mint w.clock = .ok profile
  accounts : SeriesValid acc.series L.series acc.assetPolicy L.asset acc.collateralMint L.mint
    acc.vault L.vault acc.ptMint L.ptMint acc.drMint L.drMint
  holderCollateral : HolderValid .token2022 L.holderCollateral
    (.wallet acc.holder) acc.collateralMint
  holderPt : HolderValid .token L.holderPt (.wallet acc.holder) acc.ptMint
  holderDr : HolderValid .token L.holderDr (.wallet acc.holder) acc.drMint
  distinct : [acc.holderCollateral, acc.vault, acc.holderPt, acc.holderDr].Nodup
  covered : L.series.nominalBacking ≤ L.vault.amount
  ptMint : ClaimMintValid (some acc.series) L.ptMint L.series.decimals
  drMint : ClaimMintValid (some acc.series) L.drMint L.series.decimals

/-- The checks of `recombine`. -/
structure RecombinePasses (host : Host) (w : World) (acc : PairAccounts) (amount : UInt64)
    (guard : Guard) (L : PairLoaded) : Prop where
  positive : 0 < amount
  guarded : checkGuard L.series guard w.clock amount = .ok ()
  phase : L.series.phase ≠ .finalized
  backed : amount ≤ L.series.nominalBacking
  inspected : ∃ profile,
    inspectMintForExit host acc.collateralMint L.mint w.clock.unixTimestamp = .ok profile
  accounts : SeriesValid acc.series L.series acc.assetPolicy L.asset acc.collateralMint L.mint
    acc.vault L.vault acc.ptMint L.ptMint acc.drMint L.drMint
  holderPt : HolderValid .token L.holderPt (.wallet acc.holder) acc.ptMint
  holderDr : HolderValid .token L.holderDr (.wallet acc.holder) acc.drMint
  holderCollateral : HolderValid .token2022 L.holderCollateral
    (.wallet acc.holder) acc.collateralMint
  distinct : [acc.holderPt, acc.holderDr, acc.holderCollateral, acc.vault].Nodup
  covered : L.series.nominalBacking ≤ L.vault.amount

/-- **Deposit**: collateral in, both claims out, backing and version up. -/
theorem deposit_eq_ok {acc : PairAccounts} {amount : UInt64} {guard : Guard} :
    deposit host w acc amount guard = .ok w' ↔ ∃ L : PairLoaded, L.From w acc ∧
      DepositPasses host w acc amount guard L ∧
      ∃ b₁ b₂ b₃, host.invoke w.bank (.transferChecked acc.holderCollateral acc.collateralMint
          acc.vault (.wallet acc.holder) amount L.series.decimals) = .ok b₁ ∧
        host.invoke b₁ (.mintTo acc.ptMint acc.holderPt acc.series amount) = .ok b₂ ∧
        host.invoke b₂ (.mintTo acc.drMint acc.holderDr acc.series amount) = .ok b₃ ∧
        ∃ nominal v : UInt64, nominal.toNat = L.series.nominalBacking.toNat + amount.toNat ∧
          v.toNat = L.series.stateVersion.toNat + 1 ∧
          w' = (w.setBank b₃).putSeries acc.series
            { L.series with nominalBacking := nominal, stateVersion := v } := by
  simp only [deposit, Result.bind_eq_ok, Result.require_eq_ok, Result.exists_unit,
    Result.pure_eq_ok, Result.okOr_eq_ok, World.load_eq_ok, World.loadMint_eq_ok,
    World.loadToken_eq_ok, World.loadClaimMint_eq_ok, World.loadClaimToken_eq_ok,
    validateSeriesAccounts_eq_ok, validateHolderCollateral, validateHolderClaim,
    validateHolder_eq_ok, requireDistinct, requireClaimMintOpen, requireClaimMint_eq_ok,
    Checked.addU64_eq_some, bumpStateVersion_eq_ok]
  refine ⟨?_, ?_⟩
  · rintro ⟨asset, h1, series, h2, mint, h3, vault, h4, hc, h5, pt, h6, dr, h7, hpt, h8, hdr, h9,
      h10, c1, c2, c3, c4, c5, profile, c6, c7, c8, c9, c10, c11, c12, c13, c14, b₁, hb₁, b₂, hb₂,
      b₃, hb₃, nominal, hn, _, ⟨v, hv, rfl⟩, rfl⟩
    exact ⟨⟨asset, series, mint, vault, hc, pt, dr, hpt, hdr⟩,
      ⟨h1, h2, h3, h4, h5, h6, h7, h8, h9, h10⟩,
      ⟨c1, c2, c3, c4, c5, ⟨profile, c6⟩, c7, c8, c9, c10, c11, c12, c13, c14⟩,
      b₁, b₂, b₃, hb₁, hb₂, hb₃, nominal, v, hn, hv, rfl⟩
  · rintro ⟨L, h, c, b₁, b₂, b₃, hb₁, hb₂, hb₃, nominal, v, hn, hv, rfl⟩
    obtain ⟨profile, hprofile⟩ := c.admitted
    exact ⟨L.asset, h.asset, L.series, h.series, L.mint, h.mint, L.vault, h.vault,
      L.holderCollateral, h.holderCollateral, L.ptMint, h.ptMint, L.drMint, h.drMint, L.holderPt,
      h.holderPt, L.holderDr, h.holderDr, h.hasOne, c.positive, c.guarded, c.phase, c.journal,
      c.early, profile, hprofile, c.accounts, c.holderCollateral, c.holderPt, c.holderDr,
      c.distinct, c.covered, c.ptMint, c.drMint, b₁, hb₁, b₂, hb₂, b₃, hb₃, nominal, hn, _,
      ⟨v, hv, rfl⟩, rfl⟩

/-- **Recombination**: both claims in, collateral out, backing down and version up. -/
theorem recombine_eq_ok {acc : PairAccounts} {amount : UInt64} {guard : Guard} :
    recombine host w acc amount guard = .ok w' ↔ ∃ L : PairLoaded, L.From w acc ∧
      RecombinePasses host w acc amount guard L ∧
      ∃ b₁ b₂ b₃, host.invoke w.bank (.burn acc.ptMint acc.holderPt (.wallet acc.holder) amount) =
          .ok b₁ ∧
        host.invoke b₁ (.burn acc.drMint acc.holderDr (.wallet acc.holder) amount) = .ok b₂ ∧
        host.invoke b₂ (.transferChecked acc.vault acc.collateralMint acc.holderCollateral
          acc.series amount L.series.decimals) = .ok b₃ ∧
        ∃ nominal v : UInt64, L.series.nominalBacking.toNat = nominal.toNat + amount.toNat ∧
          v.toNat = L.series.stateVersion.toNat + 1 ∧
          w' = (w.setBank b₃).putSeries acc.series
            { L.series with nominalBacking := nominal, stateVersion := v } := by
  simp only [recombine, Result.bind_eq_ok, Result.require_eq_ok, Result.exists_unit,
    Result.pure_eq_ok, Result.okOr_eq_ok, World.load_eq_ok, World.loadMint_eq_ok,
    World.loadToken_eq_ok, World.loadClaimMint_eq_ok, World.loadClaimToken_eq_ok,
    validateSeriesAccounts_eq_ok, validateHolderCollateral, validateHolderClaim,
    validateHolder_eq_ok, requireDistinct, Checked.subU64_eq_some, bumpStateVersion_eq_ok]
  refine ⟨?_, ?_⟩
  · rintro ⟨asset, h1, series, h2, mint, h3, vault, h4, hc, h5, pt, h6, dr, h7, hpt, h8, hdr, h9,
      h10, c1, c2, c3, c4, profile, c5, c6, c7, c8, c9, c10, c11, b₁, hb₁, b₂, hb₂, b₃, hb₃,
      nominal, hn, _, ⟨v, hv, rfl⟩, rfl⟩
    exact ⟨⟨asset, series, mint, vault, hc, pt, dr, hpt, hdr⟩,
      ⟨h1, h2, h3, h4, h5, h6, h7, h8, h9, h10⟩,
      ⟨c1, c2, c3, c4, ⟨profile, c5⟩, c6, c7, c8, c9, c10, c11⟩,
      b₁, b₂, b₃, hb₁, hb₂, hb₃, nominal, v, hn, hv, rfl⟩
  · rintro ⟨L, h, c, b₁, b₂, b₃, hb₁, hb₂, hb₃, nominal, v, hn, hv, rfl⟩
    obtain ⟨profile, hprofile⟩ := c.inspected
    exact ⟨L.asset, h.asset, L.series, h.series, L.mint, h.mint, L.vault, h.vault,
      L.holderCollateral, h.holderCollateral, L.ptMint, h.ptMint, L.drMint, h.drMint, L.holderPt,
      h.holderPt, L.holderDr, h.holderDr, h.hasOne, c.positive, c.guarded, c.phase, c.backed,
      profile, hprofile, c.accounts, c.holderPt, c.holderDr, c.holderCollateral, c.distinct,
      c.covered, b₁, hb₁, b₂, hb₂, b₃, hb₃, nominal, hn, _, ⟨v, hv, rfl⟩, rfl⟩

/-! ## The journal -/

/-- A counter counts what it is told to. -/
theorem countIf_eq_ok {b : Bool} {x y : UInt8} :
    countIf b x = .ok y ↔ y.toNat = x.toNat + b.toNat := by
  cases b with
  | true =>
    simp only [countIf, if_true, Result.okOr_eq_ok, Checked.addU8_eq_some]
    rfl
  | false =>
    simp only [countIf, Bool.false_eq_true, if_false, Result.pure_eq_ok, ← UInt8.toNat_inj,
      Bool.toNat_false, Nat.add_zero]
    exact eq_comm

/-- And takes back what it is told to. -/
theorem uncountIf_eq_ok {b : Bool} {x y : UInt8} :
    uncountIf b x = .ok y ↔ x.toNat = y.toNat + b.toNat := by
  cases b with
  | true =>
    simp only [uncountIf, if_true, Result.okOr_eq_ok, Checked.subU8_eq_some]
    rfl
  | false =>
    simp only [uncountIf, Bool.false_eq_true, if_false, Result.pure_eq_ok, ← UInt8.toNat_inj,
      Bool.toNat_false, Nat.add_zero]

/-- **The counters**: a new head counts once more, an old record is given back before the new one
is counted. The update fails exactly when a counter would leave its byte on either side. -/
theorem updateCounters_eq_ok {s s' : Series} {head : EventHead} {isNew resolved inYear : Bool} :
    updateCounters s head isNew resolved inYear = .ok s' ↔
      ∃ events unresolved unresolvedMid qualified qualifiedMid : UInt8,
        events.toNat = s.eventCount.toNat + isNew.toNat ∧
        s.unresolvedCount.toNat = unresolvedMid.toNat + (!isNew && !head.latestResolved).toNat ∧
        s.inYearQualifiedCount.toNat =
          qualifiedMid.toNat + (!isNew && head.latestInYearQualified).toNat ∧
        unresolved.toNat = unresolvedMid.toNat + (!resolved).toNat ∧
        qualified.toNat = qualifiedMid.toNat + inYear.toNat ∧
        s' = { s with eventCount := events, unresolvedCount := unresolved,
                      inYearQualifiedCount := qualified } := by
  simp only [updateCounters, Result.bind_eq_ok, countIf_eq_ok, uncountIf_eq_ok, Result.pure_eq_ok]
  refine ⟨?_, ?_⟩
  · rintro ⟨e, he, um, hum, qm, hqm, u, hu, q, hq, rfl⟩
    exact ⟨e, u, um, q, qm, he, hum, hqm, hu, hq, rfl⟩
  · rintro ⟨e, u, um, q, qm, he, hum, hqm, hu, hq, rfl⟩
    exact ⟨e, he, um, hum, qm, hqm, u, hu, q, hq, rfl⟩

/-- The input is, to the letter, the latest record of its event. -/
structure Replay (w : World) (k : Pubkey) (input : EventInput) : Prop where
  latest : ∃ head r, w.heads (.event k input.eventId) = some head ∧ head.series = k ∧
    head.eventId = input.eventId ∧ head.latestRevision = input.revision ∧
    w.revisions (.revision (.event k input.eventId) input.revision) = some r ∧
    r.recordHash = head.latestRecordHash ∧ r.toInput = input

/-- The head an accepted record leaves behind. -/
def recordedHead (host : Host) (k : Pubkey) (s : Series) (head : EventHead) (isNew : Bool)
    (input : EventInput) (resolved inYear : Bool) : EventHead :=
  { series := k, eventId := input.eventId, index := if isNew then s.eventCount else head.index,
    latestRevision := input.revision,
    latestRecordHash :=
      hashEventRecord host k input (if isNew then zero32 else head.latestRecordHash),
    latestResolved := resolved, latestInYearQualified := inYear }

/-- The revision an accepted record leaves behind. -/
def recordedRevision (host : Host) (k : Pubkey) (head : EventHead) (isNew : Bool)
    (input : EventInput) : EventRevision :=
  input.toRevision (.event k input.eventId) (if isNew then zero32 else head.latestRecordHash)
    (hashEventRecord host k input (if isNew then zero32 else head.latestRecordHash))

/-- A record that was written: a first one for a new head, or a higher revision. -/
structure Recorded (host : Host) (w : World) (k : Pubkey) (s : Series) (input : EventInput)
    (resolved inYear : Bool) (head : EventHead) (isNew : Bool) (s' : Series) (w' : World) :
    Prop where
  loaded : (w.heads (.event k input.eventId)).getD .zeroed = head
  new : isNew = true → head.series = .default ∧ s.eventCount < MAX_EVENTS
  revised : isNew = false → head.series = k ∧ head.eventId = input.eventId ∧
    head.series ≠ .default ∧ head.latestRevision < input.revision
  unused :
      ((w.revisions (.revision (.event k input.eventId) input.revision)).getD .zeroed).revision = 0
  series : ∃ s₁, updateCounters s head isNew resolved inYear = .ok s₁ ∧
    ∃ jv v : UInt64, jv.toNat = s₁.journalVersion.toNat + 1 ∧ v.toNat = s₁.stateVersion.toNat + 1 ∧
      s' = { s₁ with
        journalVersion := jv
        journalHash := nextJournalHash host s₁.journalHash
          (hashEventRecord host k input (if isNew then zero32 else head.latestRecordHash))
        stateVersion := v }
  written : w' = ((w.putRevision (.revision (.event k input.eventId) input.revision)
      (recordedRevision host k head isNew input)).putHead (.event k input.eventId)
      (recordedHead host k s head isNew input resolved inYear)).putSeries k s'

/-- The checks of `upsert_event` before it looks at the event accounts. -/
structure UpsertPasses (w : World) (acc : UpsertEventAccounts) (input : EventInput)
    (p : AssetPolicy) (s : Series) (resolved inYear : Bool) : Prop where
  asset : w.policies acc.assetPolicy = some p
  series : w.series acc.series = some s
  attestor : p.attestor = .wallet acc.attestor
  hasOne : s.assetPolicy = acc.assetPolicy
  phase : s.phase = .open
  revision : 0 < input.revision
  valid : validateEventInput input s.year w.clock = .ok (resolved, inYear)

theorem acceptRecord_eq_ok {k : Pubkey} {s : Series} {head : EventHead} {r : EventRevision}
    {isNew : Bool} {input : EventInput} {resolved inYear : Bool} :
    acceptRecord host w k s head r isNew input resolved inYear = .ok w' ↔ r.revision = 0 ∧
      ∃ s₁, updateCounters s head isNew resolved inYear = .ok s₁ ∧
      ∃ jv v : UInt64, jv.toNat = s₁.journalVersion.toNat + 1 ∧
        v.toNat = s₁.stateVersion.toNat + 1 ∧
        w' = ((w.putRevision (.revision (.event k input.eventId) input.revision)
          (recordedRevision host k head isNew input)).putHead (.event k input.eventId)
          (recordedHead host k s head isNew input resolved inYear)).putSeries k
          { s₁ with
            journalVersion := jv
            journalHash := nextJournalHash host s₁.journalHash
              (hashEventRecord host k input (if isNew then zero32 else head.latestRecordHash))
            stateVersion := v } := by
  simp only [acceptRecord, Result.bind_eq_ok, Result.require_eq_ok, Result.exists_unit,
    Result.okOr_eq_ok, Checked.addU64_eq_some, bumpStateVersion_eq_ok, Result.pure_eq_ok]
  refine ⟨?_, ?_⟩
  · rintro ⟨hr, s₁, hs₁, jv, hjv, _, ⟨v, hv, rfl⟩, rfl⟩
    exact ⟨hr, s₁, hs₁, jv, v, hjv, hv, rfl⟩
  · rintro ⟨hr, s₁, hs₁, jv, v, hjv, hv, rfl⟩
    exact ⟨hr, s₁, hs₁, jv, hjv, _, ⟨v, hv, rfl⟩, rfl⟩

/-- An event account is written twice; the last write counts. -/
theorem World.put_event_accounts {hk rk : Pubkey} {h h' : EventHead} {r r' : EventRevision} :
    (((w.putHead hk h).putRevision rk r).putRevision rk r').putHead hk h' =
      (w.putRevision rk r').putHead hk h' := by
  simp [World.putHead, World.putRevision]

/-- Writing what is there changes nothing. -/
theorem World.put_same_event_accounts {hk rk : Pubkey} {h : EventHead} {r : EventRevision}
    (hh : w.heads hk = some h) (hr : w.revisions rk = some r) :
    (w.putHead hk h).putRevision rk r = w := by
  simp only [World.putHead, World.putRevision]
  rw [← hh, ← hr, Function.update_eq_self, Function.update_eq_self]

/-- A record that matches an input is of its revision. -/
theorem EventRevision.matchesInput_revision {r : EventRevision} {input : EventInput} {h : Bytes32}
    (hm : r.matchesInput input h = true) : r.revision = input.revision := by
  rw [← (EventRevision.matchesInput_iff.mp hm).1]
  rfl

/-- **Event records**: an accepted input is an exact replay, which changes nothing, or it was
recorded. -/
theorem upsertEvent_ok {acc : UpsertEventAccounts} {input : EventInput}
    (h : upsertEvent host w acc input = .ok w') :
    ∃ p s resolved inYear, UpsertPasses w acc input p s resolved inYear ∧
      ((Replay w acc.series input ∧ w' = w) ∨
        ∃ head isNew s', Recorded host w acc.series s input resolved inYear head isNew s' w') := by
  simp only [upsertEvent, Result.bind_eq_ok, Result.require_eq_ok, Result.exists_unit,
    World.load_eq_ok, Prod.exists] at h
  obtain ⟨p, hp, s, hs, hattestor, hone, hphase, hrev, resolved, inYear, hvalid, h⟩ := h
  refine ⟨p, s, resolved, inYear, ⟨hp, hs, hattestor, hone, hphase, hrev, hvalid⟩, ?_⟩
  split at h
  · rename_i hdefault
    simp only [Result.bind_eq_ok, Result.require_eq_ok, Result.exists_unit] at h
    obtain ⟨hlimit, h⟩ := h
    rw [acceptRecord_eq_ok] at h
    obtain ⟨hunused, s₁, hs₁, jv, v, hjv, hv, rfl⟩ := h
    refine .inr ⟨_, true, _, rfl, fun _ => ⟨hdefault, hlimit⟩,
      fun hf => absurd hf (by decide), hunused, ⟨s₁, hs₁, jv, v, hjv, hv, rfl⟩, ?_⟩
    rw [World.put_event_accounts]
  · rename_i hdefault
    simp only [Result.bind_eq_ok, Result.require_eq_ok, Result.exists_unit] at h
    obtain ⟨hseries, hid, hle, h⟩ := h
    split at h
    · rename_i heq
      simp only [Result.bind_eq_ok, Result.require_eq_ok, Result.exists_unit,
        Result.pure_eq_ok] at h
      obtain ⟨⟨hhash, hmatch⟩, rfl⟩ := h
      -- neither account can be a zeroed one
      cases hhead : w.heads (.event acc.series input.eventId) with
      | none =>
        rw [hhead] at hdefault
        exact absurd rfl hdefault
      | some head =>
        cases hrevision :
            w.revisions (.revision (.event acc.series input.eventId) input.revision) with
        | none =>
          have h0 := EventRevision.matchesInput_revision hmatch
          rw [hrevision] at h0
          rw [← h0] at hrev
          cases hrev
        | some r =>
          rw [hhead] at hseries hid heq hhash
          rw [hrevision] at hhash hmatch
          refine .inl ⟨⟨head, r, hhead, hseries, hid, heq.symm, hrevision, hhash,
            (EventRevision.matchesInput_iff.mp hmatch).1⟩, ?_⟩
          exact World.put_same_event_accounts hhead hrevision
    · rename_i hne
      rw [acceptRecord_eq_ok] at h
      obtain ⟨hunused, s₁, hs₁, jv, v, hjv, hv, rfl⟩ := h
      refine .inr ⟨_, false, _, rfl, fun hf => absurd hf (by decide),
        fun _ => ⟨hseries, hid, hdefault, ?_⟩, hunused, ⟨s₁, hs₁, jv, v, hjv, hv, rfl⟩, ?_⟩
      · exact UInt64.lt_of_le_of_ne hle (Ne.symm hne)
      · rw [World.put_event_accounts]

/-! ## Finalization -/

/-- The accounts of `BeginFinalization` and `CompleteFinalization`, loaded. -/
structure StageLoaded where
  asset : AssetPolicy
  series : Series
  accumulator : Accumulator
  mint : Mint
  vault : TokenAccount
  ptMint : Mint
  drMint : Mint

/-- The records are the accounts at the supplied addresses. -/
structure StageLoaded.From (L : StageLoaded) (w : World)
    (assetPolicy series accumulator collateralMint vault ptMint drMint : Pubkey) : Prop where
  asset : w.policies assetPolicy = some L.asset
  loadedSeries : w.series series = some L.series
  loadedAccumulator : w.accumulators accumulator = some L.accumulator
  mint : w.bank.mints collateralMint = some L.mint ∧ L.mint.isInitialized = true
  loadedVault : w.bank.tokens vault = some L.vault ∧ L.vault.state ≠ .uninitialized
  pt : (w.bank.mints ptMint = some L.ptMint ∧ L.ptMint.isInitialized = true) ∧
    L.ptMint.tokenProgram = .token
  dr : (w.bank.mints drMint = some L.drMint ∧ L.drMint.isInitialized = true) ∧
    L.drMint.tokenProgram = .token
  hasOne : L.series.assetPolicy = assetPolicy
  seeds : accumulator = .accumulator series
  owner : L.accumulator.series = series

/-- The checks of `begin_finalization`. -/
structure BeginPasses (host : Host) (w : World) (acc : BeginFinalizationAccounts)
    (journalVersion : UInt64) (journalHash coverageDigest : Bytes32) (L : StageLoaded)
    (profile : MintProfile) : Prop where
  attestor : L.asset.attestor = .wallet acc.attestor
  coverage : requireNonzero coverageDigest .zeroEvidenceDigest = .ok ()
  phase : L.series.phase = .open
  mature : L.series.maturityTimestamp ≤ w.clock.unixTimestamp
  resolved : L.series.unresolvedCount = 0
  journal : L.series.journalVersion = journalVersion ∧ L.series.journalHash = journalHash
  reviewed : requireReviewedProfile host L.asset acc.collateralMint L.mint w.clock = .ok profile
  accounts : SeriesValid acc.series L.series acc.assetPolicy L.asset acc.collateralMint L.mint
    acc.vault L.vault acc.ptMint L.ptMint acc.drMint L.drMint
  covered : L.series.nominalBacking ≤ L.vault.amount

/-- The series `begin_finalization` writes, before the version goes up. -/
def Series.sealed (s : Series) (journalVersion : UInt64) (journalHash coverageDigest : Bytes32)
    (profile : MintProfile) : Series :=
  { s with
    phase := .sealing
    sealedJournalVersion := journalVersion
    sealedJournalHash := journalHash
    sealedCoverageDigest := coverageDigest
    sealedEventCount := s.eventCount
    sealedCurrentMultiplierBits := profile.scale.currentBits
    sealedNewMultiplierBits := profile.scale.newBits
    sealedNewMultiplierEffectiveTimestamp := profile.scale.effectiveTimestamp
    sealedActiveMultiplierBits := profile.scale.activeBits
    sealedControlsFingerprint := profile.controlsFingerprint }

/-- **The seal**: the journal is frozen and the product starts empty. -/
theorem beginFinalization_eq_ok {acc : BeginFinalizationAccounts} {journalVersion : UInt64}
    {journalHash coverageDigest : Bytes32} :
    beginFinalization host w acc journalVersion journalHash coverageDigest = .ok w' ↔
      ∃ (L : StageLoaded) (profile : MintProfile),
        L.From w acc.assetPolicy acc.series acc.accumulator acc.collateralMint acc.vault acc.ptMint
          acc.drMint ∧
        BeginPasses host w acc journalVersion journalHash coverageDigest L profile ∧
        ∃ v : UInt64, v.toNat = L.series.stateVersion.toNat + 1 ∧
          w' = (w.putSeries acc.series
            { L.series.sealed journalVersion journalHash coverageDigest profile with
              stateVersion := v }).putAccumulator acc.accumulator L.accumulator.reset := by
  simp only [beginFinalization, Result.bind_eq_ok, Result.require_eq_ok, Result.exists_unit,
    Result.pure_eq_ok, World.load_eq_ok, World.loadMint_eq_ok, World.loadToken_eq_ok,
    World.loadClaimMint_eq_ok, validateSeriesAccounts_eq_ok, bumpStateVersion_eq_ok]
  refine ⟨?_, ?_⟩
  · rintro ⟨asset, h1, series, h2, accumulator, h3, mint, h4, vault, h5, pt, h6, dr, h7, c1, h8, h9,
      h10, c2, c3, c4, c5, c6, profile, c7, c8, c9, _, ⟨v, hv, rfl⟩, rfl⟩
    exact ⟨⟨asset, series, accumulator, mint, vault, pt, dr⟩, profile,
      ⟨h1, h2, h3, h4, h5, h6, h7, h8, h9, h10⟩, ⟨c1, c2, c3, c4, c5, c6, c7, c8, c9⟩, v, hv, rfl⟩
  · rintro ⟨L, profile, h, c, v, hv, rfl⟩
    exact ⟨L.asset, h.asset, L.series, h.loadedSeries, L.accumulator, h.loadedAccumulator, L.mint,
      h.mint, L.vault, h.loadedVault, L.ptMint, h.pt, L.drMint, h.dr, c.attestor, h.hasOne, h.seeds,
      h.owner, c.coverage, c.phase, c.mature, c.resolved, c.journal, profile, c.reviewed,
      c.accounts, c.covered, _, ⟨v, hv, rfl⟩, rfl⟩

/-- The accounts and checks of `accumulate_event`. -/
structure AccumulatePasses (w : World) (acc : AccumulateEventAccounts) (s : Series)
    (a : Accumulator) (head : EventHead) (r : EventRevision) : Prop where
  series : w.series acc.series = some s
  accumulator : w.accumulators acc.accumulator = some a
  loadedHead : w.heads acc.eventHead = some head
  loadedRevision : w.revisions acc.revision = some r
  seeds : acc.accumulator = .accumulator acc.series
  owner : a.series = acc.series
  phase : s.phase = .sealing
  pending : a.cursor < s.sealedEventCount
  index : head.index = a.cursor
  headSeries : head.series = acc.series
  revisionHead : r.eventHead = acc.eventHead
  latest : r.revision = head.latestRevision ∧ r.recordHash = head.latestRecordHash

/-- The product after one event: multiplied by its factor if it counts, unchanged otherwise. -/
def factorStep (a : Accumulator) (head : EventHead) (r : EventRevision) :
    Outcome (List UInt8 × List UInt8) :=
  if head.latestInYearQualified then multiplyRatio a.numerator a.denominator r.m0Bits r.m1Bits
  else pure (a.numerator, a.denominator)

/-- **One event of the product.** -/
theorem accumulateEvent_eq_ok {acc : AccumulateEventAccounts} :
    accumulateEvent w acc = .ok w' ↔ ∃ s a head r, AccumulatePasses w acc s a head r ∧
      ∃ numerator denominator, factorStep a head r = .ok (numerator, denominator) ∧
      ∃ (cursor : UInt8) (v : UInt64), cursor.toNat = a.cursor.toNat + 1 ∧
        v.toNat = s.stateVersion.toNat + 1 ∧
        w' = (w.putSeries acc.series { s with stateVersion := v }).putAccumulator acc.accumulator
          { a with cursor := cursor, numerator := numerator, denominator := denominator } := by
  simp only [accumulateEvent, Result.bind_eq_ok, Result.require_eq_ok, Result.exists_unit,
    Result.pure_eq_ok, Result.okOr_eq_ok, World.load_eq_ok, Checked.addU8_eq_some,
    bumpStateVersion_eq_ok, Prod.exists]
  refine ⟨?_, ?_⟩
  · rintro ⟨s, h1, a, h2, head, h3, r, h4, h5, h6, h7, h8, h9, h10, h11, h12, numerator,
      denominator, hstep, cursor, hcursor, _, ⟨v, hv, rfl⟩, rfl⟩
    exact ⟨s, a, head, r, ⟨h1, h2, h3, h4, h5, h6, h7, h8, h9, h10, h11, h12⟩, numerator,
      denominator, hstep, cursor, v, hcursor, hv, rfl⟩
  · rintro ⟨s, a, head, r, h, numerator, denominator, hstep, cursor, v, hcursor, hv, rfl⟩
    exact ⟨s, h.series, a, h.accumulator, head, h.loadedHead, r, h.loadedRevision, h.seeds, h.owner,
      h.phase, h.pending, h.index, h.headSeries, h.revisionHead, h.latest, numerator, denominator,
      hstep, cursor, hcursor, _, ⟨v, hv, rfl⟩, rfl⟩

/-- The checks of `complete_finalization`. -/
structure CompletePasses (host : Host) (w : World) (acc : CompleteFinalizationAccounts)
    (L : StageLoaded) : Prop where
  phase : L.series.phase = .sealing
  done : L.accumulator.cursor = L.series.sealedEventCount
  profile : ∃ profile, inspectMint host acc.collateralMint L.mint w.clock.unixTimestamp =
      .ok profile ∧ profile.extensionsMask = L.asset.extensionsMask ∧
    (profile.controlsFingerprint = L.series.sealedControlsFingerprint ∧
      profile.controlsFingerprint = L.asset.reviewedControlsFingerprint) ∧
    requireScaleEqualsSeal L.series profile.scale = .ok ()
  accounts : SeriesValid acc.series L.series acc.assetPolicy L.asset acc.collateralMint L.mint
    acc.vault L.vault acc.ptMint L.ptMint acc.drMint L.drMint
  covered : L.series.nominalBacking ≤ L.vault.amount
  ptMint : ClaimMintValid (some acc.series) L.ptMint L.series.decimals
  drMint : ClaimMintValid (some acc.series) L.drMint L.series.decimals

/-- The series `complete_finalization` writes, before the version goes up. -/
def Series.final (s : Series) (ptPool drPool slot : UInt64) : Series :=
  { s with
    finalSupply := s.nominalBacking
    ptPool := ptPool
    drPool := drPool
    finalizationSlot := slot
    phase := .finalized }

/-- **Completion**: the pools are split and the claim mints closed for good. -/
theorem completeFinalization_eq_ok {acc : CompleteFinalizationAccounts} :
    completeFinalization host w acc = .ok w' ↔ ∃ L : StageLoaded,
      L.From w acc.assetPolicy acc.series acc.accumulator acc.collateralMint acc.vault acc.ptMint
        acc.drMint ∧
      CompletePasses host w acc L ∧
      ∃ ptPool drPool, splitPools L.series.nominalBacking L.accumulator.numerator
          L.accumulator.denominator = .ok (ptPool, drPool) ∧
      ∃ b₁ b₂, host.invoke w.bank (.revokeMintAuthority acc.ptMint acc.series) = .ok b₁ ∧
        host.invoke b₁ (.revokeMintAuthority acc.drMint acc.series) = .ok b₂ ∧
        ∃ v : UInt64, v.toNat = L.series.stateVersion.toNat + 1 ∧
          w' = (w.setBank b₂).putSeries acc.series
            { L.series.final ptPool drPool w.clock.slot with stateVersion := v } := by
  simp only [completeFinalization, Result.bind_eq_ok, Result.require_eq_ok, Result.exists_unit,
    Result.pure_eq_ok, World.load_eq_ok, World.loadMint_eq_ok, World.loadToken_eq_ok,
    World.loadClaimMint_eq_ok, validateSeriesAccounts_eq_ok, requireClaimMintOpen,
    requireClaimMint_eq_ok, bumpStateVersion_eq_ok, Prod.exists]
  refine ⟨?_, ?_⟩
  · rintro ⟨asset, h1, series, h2, accumulator, h3, mint, h4, vault, h5, pt, h6, dr, h7, h8, h9,
      h10, c1, c2, profile, c3, c4, c5, c6, c7, c8, c9, c10, ptPool, drPool, hsplit, b₁, hb₁, b₂,
      hb₂, _, ⟨v, hv, rfl⟩, rfl⟩
    exact ⟨⟨asset, series, accumulator, mint, vault, pt, dr⟩,
      ⟨h1, h2, h3, h4, h5, h6, h7, h8, h9, h10⟩,
      ⟨c1, c2, ⟨profile, c3, c4, c5, c6⟩, c7, c8, c9, c10⟩, ptPool, drPool, hsplit, b₁, b₂, hb₁,
      hb₂, v, hv, rfl⟩
  · rintro ⟨L, h, c, ptPool, drPool, hsplit, b₁, b₂, hb₁, hb₂, v, hv, rfl⟩
    obtain ⟨profile, c3, c4, c5, c6⟩ := c.profile
    exact ⟨L.asset, h.asset, L.series, h.loadedSeries, L.accumulator, h.loadedAccumulator, L.mint,
      h.mint, L.vault, h.loadedVault, L.ptMint, h.pt, L.drMint, h.dr, h.hasOne, h.seeds,
      h.owner, c.phase, c.done, profile, c3, c4, c5, c6, c.accounts, c.covered, c.ptMint, c.drMint,
      ptPool, drPool, hsplit, b₁, hb₁, b₂, hb₂, _, ⟨v, hv, rfl⟩, rfl⟩

/-- The series `abort_finalization` writes, before the version goes up. -/
def Series.unsealed (s : Series) : Series :=
  { s with
    phase := .open
    sealedJournalVersion := 0
    sealedJournalHash := zero32
    sealedCoverageDigest := zero32
    sealedEventCount := 0
    sealedCurrentMultiplierBits := 0
    sealedNewMultiplierBits := 0
    sealedNewMultiplierEffectiveTimestamp := 0
    sealedActiveMultiplierBits := 0
    sealedControlsFingerprint := zero32 }

/-- **Abort**: back to the open phase, with an empty product. -/
theorem abortFinalization_ok {acc : AbortFinalizationAccounts} {reasonDigest : Bytes32}
    (h : abortFinalization w acc reasonDigest = .ok w') :
    ∃ s a, w.series acc.series = some s ∧ w.accumulators (.accumulator acc.series) = some a ∧
      a.series = acc.series ∧ s.phase = .sealing ∧
      ∃ v : UInt64, v.toNat = s.stateVersion.toNat + 1 ∧
        w' = (w.putSeries acc.series { s.unsealed with stateVersion := v }).putAccumulator
          (.accumulator acc.series) a.reset := by
  simp only [abortFinalization, Result.bind_eq_ok, Result.require_eq_ok, Result.exists_unit,
    Result.pure_eq_ok, World.load_eq_ok, bumpStateVersion_eq_ok] at h
  obtain ⟨asset, h1, s, h2, a, h3, -, h4, hkey, h6, -, h8, _, ⟨v, hv, rfl⟩, rfl⟩ := h
  rw [hkey] at h3
  refine ⟨s, a, h2, h3, h6, h8, v, hv, ?_⟩
  rw [hkey]
  rfl

/-! ## Redemption -/

/-- The accounts of `Redeem`, loaded. -/
structure RedeemLoaded where
  asset : AssetPolicy
  series : Series
  mint : Mint
  vault : TokenAccount
  holderCollateral : TokenAccount
  claimMint : Mint
  holderClaim : TokenAccount

/-- The records are the accounts at the supplied addresses. -/
structure RedeemLoaded.From (L : RedeemLoaded) (w : World) (acc : RedeemAccounts) : Prop where
  asset : w.policies acc.assetPolicy = some L.asset
  series : w.series acc.series = some L.series
  mint : w.bank.mints acc.collateralMint = some L.mint ∧ L.mint.isInitialized = true
  vault : w.bank.tokens acc.vault = some L.vault ∧ L.vault.state ≠ .uninitialized
  holderCollateral : w.bank.tokens acc.holderCollateral = some L.holderCollateral ∧
    L.holderCollateral.state ≠ .uninitialized
  claimMint : (w.bank.mints acc.claimMint = some L.claimMint ∧ L.claimMint.isInitialized = true) ∧
    L.claimMint.tokenProgram = .token
  holderClaim : (w.bank.tokens acc.holderClaim = some L.holderClaim ∧
    L.holderClaim.state ≠ .uninitialized) ∧ L.holderClaim.tokenProgram = .token
  hasOne : L.series.assetPolicy = acc.assetPolicy

/-- The checks of `redeem`. -/
structure RedeemPasses (host : Host) (w : World) (acc : RedeemAccounts) (side : RedeemSide)
    (amount : UInt64) (allowZero : Bool) (guard : Guard) (L : RedeemLoaded) (payout : UInt64) :
    Prop where
  positive : 0 < amount
  phase : L.series.phase = .finalized
  inspected : ∃ profile,
    inspectMintForExit host acc.collateralMint L.mint w.clock.unixTimestamp = .ok profile
  accounts : ExitValid acc.series L.series acc.assetPolicy L.asset acc.collateralMint L.mint
    acc.vault L.vault
  holderCollateral : HolderValid .token2022 L.holderCollateral
    (.wallet acc.holder) acc.collateralMint
  holderClaim : HolderValid .token L.holderClaim (.wallet acc.holder) acc.claimMint
  distinct : [acc.holderClaim, acc.holderCollateral, acc.vault].Nodup
  claimMint : acc.claimMint = L.series.claimMint side
  finalMint : ClaimMintValid none L.claimMint L.series.decimals
  priced : redemptionPayout (L.series.redeemedNominal side) amount (L.series.pool side)
    L.series.finalSupply = .ok payout
  guarded : checkGuard L.series guard w.clock payout = .ok ()
  consent : 0 < payout ∨ allowZero = true
  covered : ∃ obligations, remainingObligations L.series = .ok obligations ∧
    obligations ≤ L.vault.amount

/-- **Redemption**: claims of one side in, their share of the pool out. -/
theorem redeem_eq_ok {acc : RedeemAccounts} {side : RedeemSide} {amount : UInt64}
    {allowZero : Bool} {guard : Guard} :
    redeem host w acc side amount allowZero guard = .ok w' ↔
      ∃ (L : RedeemLoaded) (payout : UInt64), L.From w acc ∧
        RedeemPasses host w acc side amount allowZero guard L payout ∧
        ∃ b₁ b₂, host.invoke w.bank
            (.burn acc.claimMint acc.holderClaim (.wallet acc.holder) amount) = .ok b₁ ∧
          (if 0 < payout then host.invoke b₁ (.transferChecked acc.vault acc.collateralMint
            acc.holderCollateral acc.series payout L.series.decimals) else pure b₁) = .ok b₂ ∧
          ∃ redeemed paid v : UInt64,
            redeemed.toNat = (L.series.redeemedNominal side).toNat + amount.toNat ∧
            paid.toNat = (L.series.paid side).toNat + payout.toNat ∧
            v.toNat = L.series.stateVersion.toNat + 1 ∧
            w' = (w.setBank b₂).putSeries acc.series
              { L.series.setRedeemed side redeemed paid with stateVersion := v } := by
  have hversion : ∀ (s : Series) (r p : UInt64),
      (s.setRedeemed side r p).stateVersion = s.stateVersion := by
    intro s r p
    cases side <;> rfl
  simp only [redeem, Result.bind_eq_ok, Result.require_eq_ok, Result.exists_unit,
    Result.pure_eq_ok, Result.okOr_eq_ok, World.load_eq_ok, World.loadMint_eq_ok,
    World.loadToken_eq_ok, World.loadClaimMint_eq_ok, World.loadClaimToken_eq_ok,
    validateExitAccounts_eq_ok, validateHolderCollateral, validateHolderClaim,
    validateHolder_eq_ok, requireDistinct, requireClaimMintFinal, requireClaimMint_eq_ok,
    Checked.addU64_eq_some, bumpStateVersion_eq_ok, hversion]
  refine ⟨?_, ?_⟩
  · rintro ⟨asset, h1, series, h2, mint, h3, vault, h4, hc, h5, cm,
      h6, hcl, h7, h8, c1, c2, profile,
      c3, c4, c5, c6, c7, c8, c9, payout, c10, c11, c12, obligations, ho, hcov, b₁, hb₁, b₂, hb₂,
      redeemed, hr, paid, hp, _, ⟨v, hv, rfl⟩, rfl⟩
    exact ⟨⟨asset, series, mint, vault, hc, cm, hcl⟩, payout, ⟨h1, h2, h3, h4, h5, h6, h7, h8⟩,
      ⟨c1, c2, ⟨profile, c3⟩, c4, c5, c6, c7, c8, c9, c10, c11, c12, obligations, ho, hcov⟩,
      b₁, b₂, hb₁, hb₂, redeemed, paid, v, hr, hp, hv, rfl⟩
  · rintro ⟨L, payout, h, c, b₁, b₂, hb₁, hb₂, redeemed, paid, v, hr, hp, hv, rfl⟩
    obtain ⟨profile, hprofile⟩ := c.inspected
    obtain ⟨obligations, ho, hcov⟩ := c.covered
    exact ⟨L.asset, h.asset, L.series, h.series, L.mint, h.mint, L.vault, h.vault,
      L.holderCollateral, h.holderCollateral, L.claimMint, h.claimMint, L.holderClaim,
      h.holderClaim, h.hasOne, c.positive, c.phase, profile, hprofile, c.accounts,
      c.holderCollateral, c.holderClaim, c.distinct, c.claimMint, c.finalMint, payout, c.priced,
      c.guarded, c.consent, obligations, ho, hcov, b₁, hb₁, b₂, hb₂, redeemed, hr, paid, hp, _,
      ⟨v, hv, rfl⟩, rfl⟩

end DividendX
