import DividendX.Accepted
import DividendX.Ledger

/-!
# How the accounts hang together

`World.Linked`: every account of the program sits at the address derived from its own content and
the accounts it points to exist and point back. It holds at genesis and every accepted action
keeps it (`Linked.act`), whatever accounts callers supply.

Accounts are found through it: the vault, the claim mints and the accumulator of a series are
determined by its address, so that two series never share one.
-/

namespace DividendX

/-- What never changes about a series. -/
structure Identity where
  assetPolicy : Pubkey
  policyDigest : Bytes32
  year : UInt16
  startTimestamp : Int64
  maturityTimestamp : Int64
  collateralMint : Pubkey
  vault : Pubkey
  ptMint : Pubkey
  drMint : Pubkey
  decimals : UInt8

/-- The identity of a series. -/
def Series.identity (s : Series) : Identity :=
  ⟨s.assetPolicy, s.policyDigest, s.year, s.startTimestamp, s.maturityTimestamp, s.collateralMint,
    s.vault, s.ptMint, s.drMint, s.decimals⟩

/-- The claim mint of a side. -/
def Identity.claimMint (i : Identity) : RedeemSide → Pubkey
  | .pt => i.ptMint
  | .dr => i.drMint

theorem Series.claimMint_identity (s : Series) (side : RedeemSide) :
    s.claimMint side = s.identity.claimMint side := by
  cases side <;> rfl

/-- The claim mint a series address determines. -/
def claimMintOf (k : Pubkey) : RedeemSide → Pubkey
  | .pt => .pt k
  | .dr => .dr k

/-- The claim mints of a series are claim mints. -/
theorem isClaimMint_claimMintOf (k : Pubkey) (side : RedeemSide) :
    (claimMintOf k side).isClaimMint = true := by
  cases side <;> rfl

/-- Different series have different claim mints, and so have the two sides. -/
theorem claimMintOf_injective {k k' : Pubkey} {side side' : RedeemSide}
    (h : claimMintOf k side = claimMintOf k' side') : k = k' ∧ side = side' := by
  cases side <;> cases side' <;> simp_all [claimMintOf]

/-- No claim mint is a wallet. -/
theorem claimMintOf_ne_wallet {k key : Pubkey} (side : RedeemSide) (h : key.isWallet = true) :
    claimMintOf k side ≠ key := by
  rintro rfl
  cases side <;> cases h

/-! ## The links -/

/-- The vault of a series, as creation left it but for amount and freezing. -/
structure VaultLinked (v : TokenAccount) (k : Pubkey) (i : Identity) : Prop where
  tokenProgram : v.tokenProgram = .token2022
  mint : v.mint = i.collateralMint
  owner : v.owner = k
  authorities : v.delegate = none ∧ v.closeAuthority = none
  state : v.state ≠ .uninitialized

/-- A claim mint, as creation left it but for supply and mint authority. -/
structure ClaimMintLinked (m : Mint) (i : Identity) : Prop where
  tokenProgram : m.tokenProgram = .token
  decimals : m.decimals = i.decimals
  isInitialized : m.isInitialized = true
  freezeAuthority : m.freezeAuthority = none

/-- A vault is linked by what surrounds its amount. -/
theorem VaultLinked.of_frame {v v' : TokenAccount} {k : Pubkey} {i : Identity}
    (h : VaultLinked v k i)
    (hf : v'.frame = v.frame) : VaultLinked v' k i := by
  simp only [TokenAccount.frame, TokenAccount.mk.injEq] at hf
  obtain ⟨h1, h2, h3, -, h5, h6, h7⟩ := hf
  exact ⟨h1.trans h.tokenProgram, h2.trans h.mint, h3.trans h.owner,
    ⟨h5.trans h.authorities.1, h7.trans h.authorities.2⟩, by rw [h6]; exact h.state⟩

/-- A claim mint is linked by what surrounds its supply. -/
theorem ClaimMintLinked.of_frame {m m' : Mint} {i : Identity} (h : ClaimMintLinked m i)
    (hf : m'.frame = m.frame) : ClaimMintLinked m' i := by
  simp only [Mint.frame, Mint.mk.injEq] at hf
  obtain ⟨h1, -, -, h4, h5, h6, -⟩ := hf
  exact ⟨h1.trans h.tokenProgram, h4.trans h.decimals, h5.trans h.isInitialized,
    h6.trans h.freezeAuthority⟩

theorem Mint.frame_decimals {m m' : Mint} (hf : m'.frame = m.frame) :
    m'.tokenProgram = m.tokenProgram ∧ m'.decimals = m.decimals := by
  simp only [Mint.frame, Mint.mk.injEq] at hf
  exact ⟨hf.1, hf.2.2.2.1⟩

/-- What a series points to. -/
structure SeriesLinked (policies : Pubkey → Option AssetPolicy)
    (accumulators : Pubkey → Option Accumulator) (bank : Bank) (k : Pubkey) (i : Identity) :
    Prop where
  key : k = .series i.assetPolicy i.year
  vaultKey : i.vault = .ata k i.collateralMint
  claimKey : ∀ side, i.claimMint side = claimMintOf k side
  collateral : i.collateralMint.isWallet = true
  bounds : yearBounds i.year = .ok (i.startTimestamp, i.maturityTimestamp)
  policy : ∃ p, policies i.assetPolicy = some p ∧ p.policyDigest = i.policyDigest ∧
    p.collateralMint = i.collateralMint ∧ p.decimals = i.decimals
  accumulator : ∃ a, accumulators (.accumulator k) = some a ∧ a.series = k
  vault : ∃ v, bank.tokens i.vault = some v ∧ VaultLinked v k i
  claimMint : ∀ side, ∃ m, bank.mints (claimMintOf k side) = some m ∧ ClaimMintLinked m i

/-- What a policy points to. -/
structure PolicyLinked (bank : Bank) (key : Pubkey) (p : AssetPolicy) : Prop where
  key : key = .asset p.issuerId p.collateralMint
  collateral : p.collateralMint.isWallet = true
  mint : ∃ m, bank.mints p.collateralMint = some m ∧ m.tokenProgram = .token2022 ∧
    m.decimals = p.decimals

/-- Every account sits at its derived address and its links lead somewhere. -/
structure World.Linked (w : World) : Prop where
  series : ∀ {k s}, w.series k = some s →
    SeriesLinked w.policies w.accumulators w.bank k s.identity
  policies : ∀ {key p}, w.policies key = some p → PolicyLinked w.bank key p
  heads : ∀ {key h}, w.heads key = some h →
    key = .event h.series h.eventId ∧ ∃ s, w.series h.series = some s
  revisions : ∀ {key r}, w.revisions key = some r → key = .revision r.eventHead r.revision ∧
    r.revision ≠ 0 ∧ ∃ h, w.heads r.eventHead = some h ∧ h.eventId = r.eventId
  mints : ∀ {key m}, w.bank.mints key = some m → key.isWallet = true ∨
    (m.tokenProgram = .token ∧ ∃ k side s, key = claimMintOf k side ∧ w.series k = some s)
  balanced : w.bank.Balanced

namespace World

variable {host : Host} {w w' : World} {k : Pubkey} {s s' : Series}

/-- Before the program was configured there is nothing to link. -/
theorem Genesis.linked (h : w.Genesis) : w.Linked := by
  refine ⟨fun hs => ?_, fun hp => ?_, fun hh => ?_, fun hr => ?_,
    fun hm => .inl (h.mints _ _ hm), ?_⟩
  · cases (h.series _).symm.trans hs
  · cases (h.policies _).symm.trans hp
  · cases (h.heads _).symm.trans hh
  · cases (h.revisions _).symm.trans hr
  · intro mint hclaim
    have hnone : w.bank.mints mint = none := by
      cases hm : w.bank.mints mint with
      | none => rfl
      | some m =>
        have hwallet := h.mints mint m hm
        cases mint <;> simp_all [Pubkey.isClaimMint, Pubkey.isWallet]
    rw [Bank.supply, hnone]
    refine HasTotal.zero.congr fun key => ?_
    cases ht : w.bank.tokens key with
    | none => simp [Bank.holding, ht]
    | some t =>
      have hforeign := h.tokens key t ht
      have hne : t.mint ≠ mint := by
        rintro rfl
        simp [TokenAccount.isForeign, hclaim] at hforeign
      simp [Bank.holding, ht, hne]

/-! ## Writes that keep the links -/

theorem putSeries_series (w : World) (k : Pubkey) (s : Series) :
    (w.putSeries k s).series k = some s := Function.update_self ..

theorem putSeries_series_of_ne {k' : Pubkey} (h : k' ≠ k) :
    (w.putSeries k s).series k' = w.series k' := Function.update_of_ne h ..

/-- Rewriting a series without touching its identity. -/
theorem Linked.putSeries (h : w.Linked) (hs : w.series k = some s)
    (hid : s'.identity = s.identity) : (w.putSeries k s').Linked := by
  have hkeep : ∀ {k' t}, w.series k' = some t → ∃ t', (w.putSeries k s').series k' = some t' := by
    intro k' t ht
    by_cases hk : k' = k
    · exact ⟨s', by rw [hk]; exact putSeries_series w k s'⟩
    · exact ⟨t, by rw [putSeries_series_of_ne hk]; exact ht⟩
  refine ⟨fun {k' t} ht => ?_, h.policies, fun {key head} hh => ?_,
    h.revisions, fun {key m} hm => ?_, h.balanced⟩
  · by_cases hk : k' = k
    · subst hk
      rw [putSeries_series] at ht
      cases ht
      rw [hid]
      exact h.series hs
    · rw [putSeries_series_of_ne hk] at ht
      exact h.series ht
  · obtain ⟨hkey, t, ht⟩ := h.heads hh
    exact ⟨hkey, hkeep ht⟩
  · rcases h.mints hm with hwallet | ⟨htoken, k', side, t, hkey, ht⟩
    · exact .inl hwallet
    · obtain ⟨t', ht'⟩ := hkeep ht
      exact .inr ⟨htoken, k', side, t', hkey, ht'⟩

/-- Rewriting an accumulator of the same series. -/
theorem Linked.putAccumulator (h : w.Linked) {key : Pubkey} {a a' : Accumulator}
    (ha : w.accumulators key = some a) (hsame : a'.series = a.series) :
    (w.putAccumulator key a').Linked := by
  refine ⟨fun {k s} hs => ?_, h.policies, h.heads, h.revisions, h.mints, h.balanced⟩
  have hl := h.series hs
  refine { hl with accumulator := ?_ }
  obtain ⟨b, hb, hbs⟩ := hl.accumulator
  by_cases hk : Pubkey.accumulator k = key
  · rw [hk, ha] at hb
    cases hb
    refine ⟨a', ?_, hsame.trans hbs⟩
    rw [hk]
    exact Function.update_self ..
  · refine ⟨b, ?_, hbs⟩
    exact (Function.update_of_ne hk ..).trans hb

/-- Rewriting a policy without touching what was registered. -/
theorem Linked.putPolicy (h : w.Linked) {key : Pubkey} {p p' : AssetPolicy}
    (hp : w.policies key = some p) (hsame : SamePolicy p p') : (w.putPolicy key p').Linked := by
  refine ⟨fun {k s} hs => ?_, fun {key' q} hq => ?_, h.heads, h.revisions, h.mints, h.balanced⟩
  · have hl := h.series hs
    refine { hl with policy := ?_ }
    obtain ⟨q, hq, hd, hm, hdec⟩ := hl.policy
    by_cases hk : s.assetPolicy = key
    · rw [← hk] at hp
      cases hp.symm.trans hq
      refine ⟨p', ?_, hsame.policyDigest.trans hd, hsame.collateralMint.trans hm,
        hsame.decimals.trans hdec⟩
      rw [← hk]
      exact Function.update_self ..
    · exact ⟨q, (Function.update_of_ne hk ..).trans hq, hd, hm, hdec⟩
  · by_cases hk : key' = key
    · subst hk
      cases (Function.update_self ..).symm.trans hq
      have hl := h.policies hp
      refine ⟨?_, ?_, ?_⟩
      · rw [hsame.issuerId, hsame.collateralMint]
        exact hl.key
      · rw [hsame.collateralMint]
        exact hl.collateral
      · rw [hsame.collateralMint, hsame.decimals]
        exact hl.mint
    · exact h.policies ((Function.update_of_ne hk ..).symm.trans hq)

/-- Registering a policy at its address. -/
theorem Linked.putNewPolicy (h : w.Linked) {key : Pubkey} {p : AssetPolicy}
    (hnone : w.policies key = none) (hp : PolicyLinked w.bank key p) :
    (w.putPolicy key p).Linked := by
  refine ⟨fun {k s} hs => ?_, fun {key' q} hq => ?_, h.heads, h.revisions, h.mints, h.balanced⟩
  · have hl := h.series hs
    refine { hl with policy := ?_ }
    obtain ⟨q, hq, hrest⟩ := hl.policy
    have hk : s.identity.assetPolicy ≠ key := by
      rintro hk
      rw [hk, hnone] at hq
      cases hq
    exact ⟨q, (Function.update_of_ne hk ..).trans hq, hrest⟩
  · by_cases hk : key' = key
    · subst hk
      cases (Function.update_self ..).symm.trans hq
      exact hp
    · exact h.policies ((Function.update_of_ne hk ..).symm.trans hq)

/-- Another bank with the same vaults, claim mints and collateral mints. -/
theorem Linked.setBank (h : w.Linked) {b : Bank}
    (hvault : ∀ {k s}, w.series k = some s → ∃ v, b.tokens s.vault = some v ∧
      VaultLinked v k s.identity)
    (hclaim : ∀ {k s}, w.series k = some s → ∀ side, ∃ m, b.mints (claimMintOf k side) = some m ∧
      ClaimMintLinked m s.identity)
    (hcollateral : ∀ {key p}, w.policies key = some p → ∃ m, b.mints p.collateralMint = some m ∧
      m.tokenProgram = .token2022 ∧ m.decimals = p.decimals)
    (hmints : ∀ {key m}, b.mints key = some m → key.isWallet = true ∨
      (m.tokenProgram = .token ∧ ∃ k side s, key = claimMintOf k side ∧ w.series k = some s))
    (hbal : b.Balanced) : (w.setBank b).Linked :=
  ⟨fun hs => { h.series hs with vault := hvault hs, claimMint := hclaim hs },
    fun hp => { h.policies hp with mint := hcollateral hp }, h.heads, h.revisions, hmints, hbal⟩

/-- What token instructions do to a bank. -/
theorem Linked.setBank_alike (h : w.Linked) {b : Bank} (ha : w.bank.Alike b) (hbal : b.Balanced) :
    (w.setBank b).Linked := by
  refine h.setBank (fun hs => ?_) (fun hs side => ?_) (fun hp => ?_) (fun {key m} hm => ?_) hbal
  · obtain ⟨v, hv, hl⟩ := (h.series hs).vault
    obtain ⟨v', hv', hf⟩ := ha.token hv
    exact ⟨v', hv', hl.of_frame hf⟩
  · obtain ⟨m, hm, hl⟩ := (h.series hs).claimMint side
    obtain ⟨m', hm', hf⟩ := ha.mint hm
    exact ⟨m', hm', hl.of_frame hf⟩
  · obtain ⟨m, hm, hprogram, hdecimals⟩ := (h.policies hp).mint
    obtain ⟨m', hm', hf⟩ := ha.mint hm
    obtain ⟨h1, h2⟩ := Mint.frame_decimals hf
    exact ⟨m', hm', h1.trans hprogram, h2.trans hdecimals⟩
  · obtain ⟨m', hm', hf⟩ := ha.symm.mint hm
    rcases h.mints hm' with hwallet | ⟨htoken, hclaim⟩
    · exact .inl hwallet
    · exact .inr ⟨(Mint.frame_decimals hf).1.symm.trans htoken, hclaim⟩

/-- A head of an event of a series. -/
theorem Linked.putHead (h : w.Linked) {key : Pubkey} {head : EventHead}
    (hkey : key = .event head.series head.eventId) (hs : ∃ s, w.series head.series = some s) :
    (w.putHead key head).Linked := by
  refine ⟨h.series, h.policies, fun {key' head'} hh => ?_, fun {key' r} hr => ?_, h.mints,
    h.balanced⟩
  · by_cases hk : key' = key
    · subst hk
      cases (Function.update_self ..).symm.trans hh
      exact ⟨hkey, hs⟩
    · exact h.heads ((Function.update_of_ne hk ..).symm.trans hh)
  · obtain ⟨hrk, hne, old, hold, hid⟩ := h.revisions hr
    refine ⟨hrk, hne, ?_⟩
    by_cases hk : r.eventHead = key
    · -- the old head sat at the same address, so it had the same event id
      refine ⟨head, by rw [hk]; exact Function.update_self .., ?_⟩
      have hold' := (h.heads hold).1
      rw [hk, hkey] at hold'
      injection hold' with _ hid'
      exact hid'.trans hid
    · exact ⟨old, (Function.update_of_ne hk ..).trans hold, hid⟩

/-- A revision of such an event. -/
theorem Linked.putRevision (h : w.Linked) {key : Pubkey} {r : EventRevision}
    (hkey : key = .revision r.eventHead r.revision) (hne : r.revision ≠ 0)
    (hh : ∃ head, w.heads r.eventHead = some head ∧ head.eventId = r.eventId) :
    (w.putRevision key r).Linked := by
  refine ⟨h.series, h.policies, h.heads, fun {key' r'} hr => ?_, h.mints, h.balanced⟩
  by_cases hk : key' = key
  · subst hk
    cases (Function.update_self ..).symm.trans hr
    exact ⟨hkey, hne, hh⟩
  · exact h.revisions ((Function.update_of_ne hk ..).symm.trans hr)

/-! ## Instructions -/

/-- Counting leaves the identity of a series. -/
theorem identity_of_updateCounters {head : EventHead} {isNew resolved inYear : Bool}
    (h : updateCounters s head isNew resolved inYear = .ok s') : s'.identity = s.identity := by
  obtain ⟨_, _, _, _, _, -, -, -, -, -, rfl⟩ := updateCounters_eq_ok.mp h
  rfl

/-- So does recording. -/
theorem identity_of_recorded {input : EventInput} {resolved inYear isNew : Bool} {head : EventHead}
    (h : Recorded host w k s input resolved inYear head isNew s' w') :
    s'.identity = s.identity := by
  obtain ⟨s₁, hs₁, jv, v, -, -, rfl⟩ := h.series
  have hid := identity_of_updateCounters hs₁
  exact hid

/-- **A record** is linked to its event and series. -/
theorem Linked.recorded (h : w.Linked) {input : EventInput} {resolved inYear isNew : Bool}
    {head : EventHead} (hs : w.series k = some s) (hrev : 0 < input.revision)
    (hr : Recorded host w k s input resolved inYear head isNew s' w') : w'.Linked := by
  rw [hr.written]
  refine Linked.putSeries ?_ hs (identity_of_recorded hr)
  have hne : input.revision ≠ 0 := by
    intro h0
    rw [h0] at hrev
    cases hrev
  have hhead : (w.putHead (.event k input.eventId)
      (recordedHead host k s head isNew input resolved inYear)).Linked := h.putHead rfl ⟨s, hs⟩
  exact hhead.putRevision rfl hne ⟨_, Function.update_self .., rfl⟩

/-- The mints after a series was created: two fresh claim mints. -/
def createdMints (mints : Pubkey → Option Mint) (k : Pubkey) (decimals : UInt8) :
    Pubkey → Option Mint :=
  Function.update (Function.update mints (.pt k) (some (freshClaimMint k decimals))) (.dr k)
    (some (freshClaimMint k decimals))

/-- A new series comes with two claim mints. -/
theorem createdMints_claim (mints : Pubkey → Option Mint) (k : Pubkey) (decimals : UInt8)
    (side : RedeemSide) :
    createdMints mints k decimals (claimMintOf k side) = some (freshClaimMint k decimals) := by
  cases side with
  | pt =>
    rw [createdMints, Function.update_of_ne (by rintro ⟨⟩)]
    exact Function.update_self ..
  | dr => exact Function.update_self ..

/-- And no others. -/
theorem createdMints_other {mints : Pubkey → Option Mint} {k key : Pubkey} {decimals : UInt8}
    (h : ∀ side, key ≠ claimMintOf k side) : createdMints mints k decimals key = mints key :=
  (Function.update_of_ne (h .dr) ..).trans (Function.update_of_ne (h .pt) ..)

/-- **A new series** is linked. -/
theorem Linked.created (h : w.Linked) {acc : CreateSeriesAccounts} {year : UInt16}
    {p : AssetPolicy} (hc : SeriesCreated host w acc year p s w') : w'.Linked := by
  have hp := h.policies hc.policy
  obtain ⟨start, maturity, profile, hbounds, -, hdecimals, rfl⟩ := hc.fresh
  rw [hc.written]
  generalize hk : Pubkey.series acc.assetPolicy year = k
  have hnone : w.series k = none := by
    rw [← hk]
    exact hc.noSeries
  have hwallet : acc.collateralMint.isWallet = true := by
    rw [← hc.policyMint]
    exact hp.collateral
  refine ⟨fun {k' s'} hs => ?_, fun {key q} hq => ?_, fun {key head} hh => ?_, h.revisions,
    fun {key m} hm => ?_, ?_⟩
  · by_cases hk' : k' = k
    · subst hk'
      cases (Function.update_self ..).symm.trans hs
      refine ⟨hk.symm, rfl, fun side => by cases side <;> rfl, hwallet, hbounds,
        ⟨p, hc.policy, rfl, hc.policyMint, hdecimals.symm⟩, ⟨_, Function.update_self .., rfl⟩,
        ⟨_, Function.update_self .., ⟨rfl, rfl, rfl, ⟨rfl, rfl⟩, by simp [freshVault]⟩⟩,
        fun side => ⟨_, createdMints_claim .., ⟨rfl, hdecimals.symm, rfl, rfl⟩⟩⟩
    · have hs' : w.series k' = some s' := (Function.update_of_ne hk' ..).symm.trans hs
      have hl := h.series hs'
      obtain ⟨v, hv, hvl⟩ := hl.vault
      obtain ⟨a, ha, has⟩ := hl.accumulator
      -- What another series points to is at other addresses than what is created.
      refine { hl with accumulator := ⟨a, ?_, has⟩, vault := ⟨v, ?_, hvl⟩, claimMint := ?_ }
      · exact (Function.update_of_ne (fun heq => hk' (by injection heq)) ..).trans ha
      · refine (Function.update_of_ne ?_ ..).trans hv
        rw [hl.vaultKey]
        exact fun heq => hk' (by injection heq)
      · intro side
        obtain ⟨m, hm, hml⟩ := hl.claimMint side
        refine ⟨m, (createdMints_other fun side' heq => ?_).trans hm, hml⟩
        exact hk' (claimMintOf_injective heq).1
  · have hl := h.policies hq
    obtain ⟨m, hm, hrest⟩ := hl.mint
    refine { hl with mint := ⟨m, (createdMints_other fun side heq => ?_).trans hm, hrest⟩ }
    exact claimMintOf_ne_wallet side hl.collateral heq.symm
  · obtain ⟨hkey, t, ht⟩ := h.heads hh
    refine ⟨hkey, t, (Function.update_of_ne ?_ ..).trans ht⟩
    rintro heq
    rw [heq, hnone] at ht
    cases ht
  · by_cases hside : ∃ side, key = claimMintOf k side
    · obtain ⟨side, rfl⟩ := hside
      cases (createdMints_claim ..).symm.trans hm
      exact .inr ⟨rfl, k, side, _, rfl, Function.update_self ..⟩
    · rw [not_exists] at hside
      rcases h.mints ((createdMints_other hside).symm.trans hm) with
        hwallet' | ⟨htoken, k', side, t, hkey, ht⟩
      · exact .inl hwallet'
      · refine .inr ⟨htoken, k', side, t, hkey, (Function.update_of_ne ?_ ..).trans ht⟩
        rintro rfl
        exact hside side hkey
  · -- the new mints have no supply, and nobody can hold them yet
    intro mint hclaim
    have hhold : ∀ key, Bank.holding ⟨Function.update w.bank.tokens (.ata k acc.collateralMint)
        (some (freshVault k acc.collateralMint)), w.bank.mints⟩ mint key =
        w.bank.holding mint key := by
      intro key
      by_cases hkey : key = .ata k acc.collateralMint
      · have hv : w.bank.tokens (.ata k acc.collateralMint) = none := by
          rw [← hk]
          exact hc.noVault
        subst hkey
        simp [Bank.holding, hv, freshVault]
      · simp [Bank.holding, Function.update_of_ne hkey]
    have hsupply : Bank.supply ⟨w.bank.tokens, createdMints w.bank.mints k p.decimals⟩ mint =
        w.bank.supply mint := by
      by_cases hside : ∃ side, mint = claimMintOf k side
      · obtain ⟨side, rfl⟩ := hside
        have hnone' : w.bank.mints (claimMintOf k side) = none := by
          rw [← hk]
          cases side
          · exact hc.noPt
          · exact hc.noDr
        simp only [Bank.supply, createdMints_claim, hnone']
        rfl
      · rw [not_exists] at hside
        simp only [Bank.supply, createdMints_other hside]
    exact (congrArg (HasTotal _) hsupply).mpr ((h.balanced mint hclaim).congr hhold)

/-- A redemption leaves the identity of a series. -/
theorem identity_setRedeemed (s : Series) (side : RedeemSide) (redeemed paid v : UInt64) :
    Series.identity { s.setRedeemed side redeemed paid with stateVersion := v } = s.identity := by
  cases side <;> rfl

/-- Every accepted instruction keeps the links. -/
theorem Linked.execute (h : w.Linked) {ix : Instruction} (hx : w.execute host ix = .ok w') :
    w'.Linked := by
  cases ix with
  | initializeConfig upgradeAuthority domain =>
    obtain ⟨config, rfl⟩ := initializeConfig_ok hx
    exact ⟨h.series, h.policies, h.heads, h.revisions, h.mints, h.balanced⟩
  | registerAsset acc issuerId symbol attestor policyDigest =>
    obtain ⟨p, m, hm, hprogram, hnone, hissuer, hmint, hdecimals, rfl⟩ := registerAsset_ok hx
    refine h.putNewPolicy hnone ⟨by rw [hissuer, hmint], ?_, m, by rw [hmint]; exact hm, hprogram,
      hdecimals.symm⟩
    rw [hmint]
    rcases h.mints hm with hwallet | ⟨htoken, -⟩
    · exact hwallet
    · rw [hprogram] at htoken
      cases htoken
  | setAssetAdmission acc enabled =>
    obtain ⟨p, p', hp, hsame, rfl⟩ := setAssetAdmission_ok hx
    exact h.putPolicy hp hsame
  | refreshObservation acc evidence validUntil =>
    obtain ⟨p, p', hp, hsame, rfl⟩ := refreshObservation_ok hx
    exact h.putPolicy hp hsame
  | createSeries acc year =>
    obtain ⟨p, s, hc⟩ := createSeries_ok hx
    exact h.created hc
  | deposit acc amount guard =>
    obtain ⟨L, hL, -, b₁, b₂, b₃, h₁, h₂, h₃, nominal, v, -, -, rfl⟩ := deposit_eq_ok.mp hx
    have m₁ := Host.invoke_transfer h₁
    have m₂ := Host.invoke_mintTo h₂
    have m₃ := Host.invoke_mintTo h₃
    exact (h.setBank_alike ((m₁.alike.trans m₂.alike).trans m₃.alike)
      (m₃.balanced (m₂.balanced (m₁.balanced h.balanced)))).putSeries hL.series rfl
  | recombine acc amount guard =>
    obtain ⟨L, hL, -, b₁, b₂, b₃, h₁, h₂, h₃, nominal, v, -, -, rfl⟩ := recombine_eq_ok.mp hx
    have m₁ := Host.invoke_burn h₁
    have m₂ := Host.invoke_burn h₂
    have m₃ := Host.invoke_transfer h₃
    exact (h.setBank_alike ((m₁.alike.trans m₂.alike).trans m₃.alike)
      (m₃.balanced (m₂.balanced (m₁.balanced h.balanced)))).putSeries hL.series rfl
  | upsertEvent acc input =>
    obtain ⟨p, s, resolved, inYear, hpass, ⟨-, rfl⟩ | ⟨head, isNew, s', hr⟩⟩ := upsertEvent_ok hx
    · exact h
    · exact h.recorded hpass.series hpass.revision hr
  | beginFinalization acc version hash coverage =>
    obtain ⟨L, profile, hL, -, v, -, rfl⟩ := beginFinalization_eq_ok.mp hx
    refine Linked.putAccumulator (h.putSeries hL.loadedSeries ?_) hL.loadedAccumulator ?_ <;> rfl
  | accumulateEvent acc =>
    obtain ⟨s, a, head, r, hpass, numerator, denominator, -, cursor, v, -, -, rfl⟩ :=
      accumulateEvent_eq_ok.mp hx
    refine Linked.putAccumulator (h.putSeries hpass.series ?_) hpass.accumulator ?_ <;> rfl
  | completeFinalization acc =>
    obtain ⟨L, hL, -, ptPool, drPool, -, b₁, b₂, h₁, h₂, v, -, rfl⟩ :=
      completeFinalization_eq_ok.mp hx
    have m₁ := Host.invoke_revoke h₁
    have m₂ := Host.invoke_revoke h₂
    exact (h.setBank_alike (m₁.alike.trans m₂.alike)
      (m₂.balanced (m₁.balanced h.balanced))).putSeries hL.loadedSeries rfl
  | abortFinalization acc reason =>
    obtain ⟨s, a, hs, ha, -, -, v, -, rfl⟩ := abortFinalization_ok hx
    refine Linked.putAccumulator (h.putSeries hs ?_) ha ?_ <;> rfl
  | redeem acc side amount allowZero guard =>
    obtain ⟨L, payout, hL, -, b₁, b₂, h₁, h₂, redeemed, paid, v, -, -, -, rfl⟩ :=
      redeem_eq_ok.mp hx
    have m₁ := Host.invoke_burn h₁
    have hbank : b₁.Alike b₂ ∧ (b₁.Balanced → b₂.Balanced) := by
      split at h₂
      · have m₂ := Host.invoke_transfer h₂
        exact ⟨m₂.alike, m₂.balanced⟩
      · rw [Result.pure_eq_ok] at h₂
        subst h₂
        exact ⟨Bank.Alike.refl _, id⟩
    exact (h.setBank_alike (m₁.alike.trans hbank.1)
      (hbank.2 (m₁.balanced h.balanced))).putSeries hL.series (identity_setRedeemed ..)

/-! ## Everything else -/

/-- The vaults of a linked world are those of its series. -/
theorem isVault_iff (h : w.Linked) {key : Pubkey} :
    w.isVault key = true ↔ ∃ k s, w.series k = some s ∧ s.vault = key := by
  refine ⟨fun hv => ?_, ?_⟩
  · cases key with
    | ata k mint =>
      simp only [isVault] at hv
      split at hv
      · rename_i s hs
        exact ⟨k, s, hs, by simpa using hv⟩
      · cases hv
    | _ => cases hv
  · rintro ⟨k, s, hs, rfl⟩
    have hkey : s.vault = .ata k s.collateralMint := (h.series hs).vaultKey
    rw [hkey]
    simp only [isVault, hs, hkey, beq_self_eq_true]

theorem isVault_vault (h : w.Linked) (hs : w.series k = some s) : w.isVault s.vault = true :=
  (isVault_iff h).mpr ⟨k, s, hs, rfl⟩

/-- Two series never share a vault. -/
theorem Linked.vault_injective (h : w.Linked) {k' : Pubkey} (hs : w.series k = some s)
    (hs' : w.series k' = some s') (heq : s.vault = s'.vault) : k = k' := by
  have h₁ : s.vault = .ata k _ := (h.series hs).vaultKey
  have h₂ : s'.vault = .ata k' _ := (h.series hs').vaultKey
  rw [h₁, h₂] at heq
  injection heq

/-- A vault holds no claims. -/
theorem Linked.holding_vault (h : w.Linked) (hs : w.series k = some s) {v : TokenAccount}
    (hv : w.bank.tokens s.vault = some v) {mint : Pubkey} (hclaim : mint.isClaimMint = true) :
    v.mint ≠ mint := by
  obtain ⟨v', hv', hl⟩ := (h.series hs).vault
  cases hv.symm.trans hv'
  rw [hl.mint]
  have hwallet := (h.series hs).collateral
  rintro heq
  rw [heq] at hwallet
  cases mint <;> simp_all [Pubkey.isClaimMint, Pubkey.isWallet]

/-- Changing a vault's amount outside the program. -/
theorem Linked.setVaultAmount (h : w.Linked) {key : Pubkey} {v : TokenAccount}
    (hvault : w.isVault key = true) (hv : w.bank.tokens key = some v) (f : UInt64 → UInt64) :
    (w.setBank (w.bank.modifyToken key fun t => { t with amount := f t.amount })).Linked := by
  obtain ⟨k, s, hs, rfl⟩ := (isVault_iff h).mp hvault
  refine h.setBank_alike (Bank.modifyToken_alike _ _ fun _ => rfl) fun mint hclaim => ?_
  refine (h.balanced mint hclaim).congr fun key' => ?_
  exact Bank.holding_modifyToken_of_mint_ne hv (h.holding_vault hs hv hclaim) rfl

/-- Replacing a token account that holds no claims and is no vault by another such. -/
theorem Linked.setToken (h : w.Linked) {key : Pubkey} {account : Option TokenAccount}
    (hvault : w.isVault key = false)
    (hhold : ∀ mint, mint.isClaimMint = true →
      (account.elim 0 fun t => if t.mint = mint then t.amount.toNat else 0) =
        w.bank.holding mint key) :
    (w.setBank { w.bank with tokens := Function.update w.bank.tokens key account }).Linked := by
  refine h.setBank (fun {k s} hs => ?_) (fun hs => (h.series hs).claimMint)
    (fun hp => (h.policies hp).mint) h.mints fun mint hclaim => ?_
  · obtain ⟨v, hv, hl⟩ := (h.series hs).vault
    refine ⟨v, (Function.update_of_ne ?_ ..).trans hv, hl⟩
    rintro rfl
    rw [isVault_vault h hs] at hvault
    cases hvault
  · refine (h.balanced mint hclaim).congr fun key' => ?_
    by_cases hk : key' = key
    · subst hk
      rw [← hhold mint hclaim]
      simp [Bank.holding]
    · simp [Bank.holding, Function.update_of_ne hk]

/-- The token programs may change a collateral mint. -/
theorem Linked.setMint (h : w.Linked) {key : Pubkey} {m : Mint} (hwallet : key.isWallet = true)
    (hkeep : mintMayBecome (w.bank.mints key) m = true) :
    (w.setBank { w.bank with mints := Function.update w.bank.mints key (some m) }).Linked := by
  refine h.setBank (fun hs => (h.series hs).vault) (fun {k s} hs side => ?_) (fun {key' p} hp => ?_)
    (fun {key' m'} hm => ?_) fun mint hclaim => ?_
  · obtain ⟨m', hm', hl⟩ := (h.series hs).claimMint side
    exact ⟨m', (Function.update_of_ne (claimMintOf_ne_wallet side hwallet) ..).trans hm', hl⟩
  · obtain ⟨m', hm', hprogram, hdecimals⟩ := (h.policies hp).mint
    by_cases hk : p.collateralMint = key
    · rw [hk] at hm' ⊢
      rw [hm'] at hkeep
      simp only [mintMayBecome, Bool.and_eq_true, beq_iff_eq] at hkeep
      exact ⟨m, Function.update_self .., hkeep.2.trans hprogram, hkeep.1.trans hdecimals⟩
    · exact ⟨m', (Function.update_of_ne hk ..).trans hm', hprogram, hdecimals⟩
  · by_cases hk : key' = key
    · rw [hk]
      exact .inl hwallet
    · exact h.mints ((Function.update_of_ne hk ..).symm.trans hm)
  · have hne : mint ≠ key := by
      rintro rfl
      cases mint <;> simp_all [Pubkey.isClaimMint, Pubkey.isWallet]
    have hsupply : Bank.supply { w.bank with mints := Function.update w.bank.mints key (some m) }
        mint = w.bank.supply mint := by
      simp [Bank.supply, Function.update_of_ne hne]
    rw [hsupply]
    exact h.balanced mint hclaim

/-- And freeze a vault. -/
theorem Linked.setFrozen (h : w.Linked) {key : Pubkey} (hvault : w.isVault key = true)
    (frozen : Bool) :
    (w.setBank (w.bank.modifyToken key fun v =>
      { v with state := if frozen then .frozen else .initialized })).Linked := by
  refine h.setBank (fun {k s} hs => ?_) (fun hs => (h.series hs).claimMint)
    (fun hp => (h.policies hp).mint) h.mints fun mint hclaim => ?_
  · obtain ⟨v, hv, hl⟩ := (h.series hs).vault
    by_cases hk : s.vault = key
    · refine ⟨{ v with state := if frozen then .frozen else .initialized }, ?_,
        { hl with state := ?_ }⟩
      · rw [← hk]
        exact Bank.modifyToken_self hv
      · cases frozen <;> simp
    · exact ⟨v, (Bank.modifyToken_of_ne hk).trans hv, hl⟩
  · refine (h.balanced mint hclaim).congr fun key' => ?_
    obtain ⟨k, s, hs, rfl⟩ := (isVault_iff h).mp hvault
    obtain ⟨v, hv, -⟩ := (h.series hs).vault
    exact Bank.holding_modifyToken_of_mint_ne hv (h.holding_vault hs hv hclaim) rfl

/-- **Every accepted action keeps the links.** -/
theorem Linked.act (h : w.Linked) {a : Action} (ha : w.act host a = some w') : w'.Linked := by
  cases a with
  | instruction ix =>
    simp only [World.act, Result.toOption_eq_some] at ha
    exact h.execute ha
  | transfer mint source destination authority amount decimals =>
    simp only [World.act, Option.ite_none_right_eq_some, Option.map_eq_some_iff] at ha
    obtain ⟨-, b, hb, rfl⟩ := ha
    have m := Host.invoke_transfer (Result.toOption_eq_some.mp hb)
    exact h.setBank_alike m.alike (m.balanced h.balanced)
  | burn mint source authority amount =>
    simp only [World.act, Option.ite_none_right_eq_some, Option.map_eq_some_iff] at ha
    obtain ⟨-, b, hb, rfl⟩ := ha
    have m := Host.invoke_burn (Result.toOption_eq_some.mp hb)
    exact h.setBank_alike m.alike (m.balanced h.balanced)
  | «open» key mint owner =>
    simp only [World.act, Option.ite_none_right_eq_some, Bool.and_eq_true,
      Option.isNone_iff_eq_none, Option.some.injEq] at ha
    obtain ⟨⟨⟨hclaim, hnone⟩, -⟩, rfl⟩ := ha
    refine h.setToken ?_ fun mint' _ => ?_
    · rw [Bool.eq_false_iff]
      intro hvault
      obtain ⟨k, s, hs, rfl⟩ := (isVault_iff h).mp hvault
      obtain ⟨v, hv, -⟩ := (h.series hs).vault
      cases hnone.symm.trans hv
    · simp [Bank.holding, hnone, emptyClaimAccount]
  | donate vault amount =>
    simp only [World.act] at ha
    split at ha
    · rename_i v hv
      simp only [Option.ite_none_right_eq_some, Bool.and_eq_true, Option.some.injEq] at ha
      obtain ⟨⟨hvault, -⟩, rfl⟩ := ha
      exact h.setVaultAmount hvault hv (· + amount)
    · cases ha
  | seize vault amount =>
    simp only [World.act] at ha
    split at ha
    · rename_i v hv
      simp only [Option.ite_none_right_eq_some, Bool.and_eq_true, Option.some.injEq] at ha
      obtain ⟨⟨hvault, -⟩, rfl⟩ := ha
      exact h.setVaultAmount hvault hv (· - amount)
    · cases ha
  | setFrozen vault frozen =>
    simp only [World.act, Option.ite_none_right_eq_some, Option.some.injEq] at ha
    obtain ⟨hvault, rfl⟩ := ha
    exact h.setFrozen hvault frozen
  | foreignToken key account =>
    simp only [World.act, Option.ite_none_right_eq_some, Bool.and_eq_true, Bool.not_eq_true',
      Option.some.injEq] at ha
    obtain ⟨⟨⟨hvault, hold⟩, hnew⟩, rfl⟩ := ha
    refine h.setToken hvault fun mint hclaim => ?_
    have hzero : ∀ o : Option TokenAccount, o.all TokenAccount.isForeign = true →
        (o.elim 0 fun t => if t.mint = mint then t.amount.toNat else 0) = 0 := by
      intro o ho
      cases o with
      | none => rfl
      | some t =>
        have hne : t.mint ≠ mint := by
          rintro rfl
          simp [TokenAccount.isForeign, hclaim] at ho
        simp [hne]
    rw [hzero account hnew]
    exact (hzero _ hold).symm
  | foreignMint key mint =>
    simp only [World.act, Option.ite_none_right_eq_some, Bool.and_eq_true, Option.some.injEq] at ha
    obtain ⟨⟨hwallet, hkeep⟩, rfl⟩ := ha
    exact h.setMint hwallet hkeep
  | tick clock =>
    simp only [World.act, Option.ite_none_right_eq_some, Option.some.injEq] at ha
    obtain ⟨-, rfl⟩ := ha
    exact ⟨h.series, h.policies, h.heads, h.revisions, h.mints, h.balanced⟩

/-- The links hold after every history. -/
theorem History.linked {w₀ : World} {tr : List Action} (h : History host w₀ tr w) : w.Linked :=
  h.2.invariant h.1.linked fun _ _ _ hl ha => hl.act ha

end World

end DividendX
