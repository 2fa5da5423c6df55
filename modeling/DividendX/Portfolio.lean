import DividendX.Simulation

/-!
# Who holds the claims

The token programs keep claims by account, a holder may have many. Here they are added up by owner
(`Bank.Owns`), and every accepted action is shown to change what an owner holds by exactly what
can be read off the action and the owners of the accounts it names (`Action.flow`, `act_owns`). A
claim account keeps mint and owner for life, from the action that opened it (`History.opened`).
-/

namespace DividendX

namespace Bank

variable {b b' : Bank} {mint owner key : Pubkey} {t : TokenAccount} {n : Nat}

/-- What a token account holds of one mint for one owner. -/
def owned (b : Bank) (mint owner key : Pubkey) : Nat :=
  (b.tokens key).elim 0 fun t => if t.mint = mint ∧ t.owner = owner then t.amount.toNat else 0

/-- The accounts of an owner together hold so much of a mint. -/
def Owns (b : Bank) (mint owner : Pubkey) (n : Nat) : Prop := HasTotal (b.owned mint owner) n

/-- The owner of a token account. -/
def ownerOf (b : Bank) (key : Pubkey) : Option Pubkey := (b.tokens key).map TokenAccount.owner

/-- An amount that concerns the owner of an account, as an integer. -/
def share (b : Bank) (key owner : Pubkey) (amount : UInt64) : Int :=
  if b.ownerOf key = some owner then amount.toNat else 0

theorem owned_eq (ht : b.tokens key = some t) :
    b.owned mint owner key = if t.mint = mint ∧ t.owner = owner then b.balance key else 0 := by
  rw [owned, ht, Option.elim_some, balance_eq ht]

theorem share_eq (ht : b.tokens key = some t) (amount : UInt64) :
    b.share key owner amount = if t.owner = owner then (amount.toNat : Int) else 0 := by
  simp only [share, ownerOf, ht, Option.map_some, Option.some.injEq]

theorem owned_le_holding (b : Bank) (mint owner key : Pubkey) :
    b.owned mint owner key ≤ b.holding mint key := by
  cases ht : b.tokens key with
  | none => simp [owned, holding, ht]
  | some t =>
    simp only [owned, holding, ht, Option.elim_some]
    split_ifs <;> simp_all

namespace Alike

/-- An account of two alike banks has the same mint and owner. -/
theorem owned_eq (h : b.Alike b') (ht : b.tokens key = some t) :
    b'.owned mint owner key = if t.mint = mint ∧ t.owner = owner then b'.balance key else 0 := by
  obtain ⟨t', ht', hframe⟩ := h.token ht
  have hmint : t'.frame.mint = t.frame.mint := by rw [hframe]
  have howner : t'.frame.owner = t.frame.owner := by rw [hframe]
  change t'.mint = t.mint at hmint
  change t'.owner = t.owner at howner
  rw [Bank.owned_eq ht', hmint, howner]

/-- An account whose balance stays. -/
theorem owned_congr (h : b.Alike b') (hbalance : b'.balance key = b.balance key) :
    b'.owned mint owner key = b.owned mint owner key := by
  cases ht : b.tokens key with
  | none =>
    have hk := h.tokens key
    rw [ht, Option.map_none, Option.map_eq_none_iff] at hk
    rw [owned, owned, ht, hk]
  | some t => rw [h.owned_eq ht, Bank.owned_eq ht, hbalance]

theorem owns (h : b.Alike b') (hbalance : ∀ key, b'.balance key = b.balance key)
    (hn : b.Owns mint owner n) : b'.Owns mint owner n :=
  HasTotal.congr hn fun key => h.owned_congr (hbalance key)

/-- The owner of an account never changes. -/
theorem ownerOf (h : b.Alike b') (key : Pubkey) : b'.ownerOf key = b.ownerOf key := by
  have hk := congrArg (Option.map TokenAccount.owner) (h.tokens key)
  rw [Option.map_map, Option.map_map] at hk
  exact hk

theorem share (h : b.Alike b') (key owner : Pubkey) (amount : UInt64) :
    b'.share key owner amount = b.share key owner amount := by
  rw [Bank.share, Bank.share, h.ownerOf]

end Alike

end Bank

namespace Host

variable {b b' : Bank} {mint' owner : Pubkey} {n : Nat}

/-- A transfer moves the amount between the owners of the two accounts. -/
theorem Moved.owns {src mint dst : Pubkey} {amount : UInt64} (m : Moved b b' src mint dst amount)
    (hn : b.Owns mint' owner n) : ∃ n', b'.Owns mint' owner n' ∧ (n' : Int) = n +
      if mint = mint' then b.share dst owner amount - b.share src owner amount else 0 := by
  by_cases hsame : src = dst
  · subst hsame
    refine ⟨n, m.alike.owns (fun key => ?_) hn, ?_⟩
    · by_cases hkey : key = src
      · rw [hkey, m.self rfl]
      · exact m.others key hkey hkey
    · split <;> omega
  · obtain ⟨t, ht, hmint, hle⟩ := m.source
    obtain ⟨u, hu, hmint'⟩ := m.destination
    obtain ⟨n', hn', hsum⟩ := HasTotal.shift₂ hn hsame fun key hsrc hdst =>
      m.alike.owned_congr (m.others key hsrc hdst)
    refine ⟨n', hn', hsum.trans ?_⟩
    have hdebit := m.debited hsame
    have hcredit := m.credited hsame
    rw [m.alike.owned_eq ht, m.alike.owned_eq hu, Bank.owned_eq ht, Bank.owned_eq hu,
      Bank.share_eq ht, Bank.share_eq hu, hmint, hmint']
    split_ifs <;> simp_all
    all_goals omega

/-- An issue gives the amount to the owner of the account. -/
theorem Issued.owns {mint dst authority : Pubkey} {amount : UInt64}
    (m : Issued b b' mint dst authority amount) (hn : b.Owns mint' owner n) :
    ∃ n', b'.Owns mint' owner n' ∧
      (n' : Int) = n + if mint = mint' then b.share dst owner amount else 0 := by
  obtain ⟨t, ht, hmint⟩ := m.destination
  obtain ⟨n', hn', hsum⟩ := HasTotal.shift hn fun key hkey =>
    m.alike.owned_congr (m.others key hkey)
  refine ⟨n', hn', hsum.trans ?_⟩
  have hcredit := m.credited
  rw [m.alike.owned_eq ht, Bank.owned_eq ht, Bank.share_eq ht, hmint]
  split_ifs <;> simp_all

/-- A burn takes the amount from the owner of the account. -/
theorem Burned.owns {mint src : Pubkey} {amount : UInt64} (m : Burned b b' mint src amount)
    (hn : b.Owns mint' owner n) : ∃ n', b'.Owns mint' owner n' ∧
      (n' : Int) = n - if mint = mint' then b.share src owner amount else 0 := by
  obtain ⟨t, ht, hmint, hle⟩ := m.source
  obtain ⟨n', hn', hsum⟩ := HasTotal.shift hn fun key hkey =>
    m.alike.owned_congr (m.others key hkey)
  refine ⟨n', hn', hsum.trans ?_⟩
  have hdebit := m.debited
  rw [m.alike.owned_eq ht, Bank.owned_eq ht, Bank.share_eq ht, hmint]
  split_ifs <;> simp_all
  omega

end Host

/-! ## What an action moves -/

theorem claimMintOf_eq_iff {k k' : Pubkey} {side side' : RedeemSide} :
    claimMintOf k side = claimMintOf k' side' ↔ k = k' ∧ side = side' := by
  refine ⟨claimMintOf_injective, ?_⟩
  rintro ⟨rfl, rfl⟩
  rfl

/-- What an action changes in the claims of one side an owner holds. -/
def Action.flow (w : World) (k owner : Pubkey) (side : RedeemSide) : Action → Int
  | .instruction (.deposit acc amount _) =>
    if acc.series = k ∧ owner = .wallet acc.holder then amount.toNat else 0
  | .instruction (.recombine acc amount _) =>
    if acc.series = k ∧ owner = .wallet acc.holder then -amount.toNat else 0
  | .instruction (.redeem acc side' amount _ _) =>
    if acc.series = k ∧ side' = side ∧ owner = .wallet acc.holder then -amount.toNat else 0
  | .transfer mint source destination _ amount _ =>
    if mint = claimMintOf k side then
      w.bank.share destination owner amount - w.bank.share source owner amount
    else 0
  | .burn mint source _ amount =>
    if mint = claimMintOf k side then -w.bank.share source owner amount else 0
  | _ => 0

namespace World

variable {host : Host} {w w' : World} {k owner : Pubkey} {side : RedeemSide} {n : Nat}

/-- Nothing changes in the claims of an owner. -/
theorem owns_same {mint : Pubkey} (hn : w.bank.Owns mint owner n)
    (heq : ∀ key, w'.bank.owned mint owner key = w.bank.owned mint owner key) :
    ∃ n', w'.bank.Owns mint owner n' ∧ (n' : Int) = n + 0 :=
  ⟨n, HasTotal.congr hn heq, (Int.add_zero _).symm⟩

/-- A token account that is written and holds no claims before and after. -/
theorem owned_update {mint key : Pubkey} {t : Option TokenAccount} (w : World)
    (hold : (w.bank.tokens key).elim 0 (fun t => if t.mint = mint ∧ t.owner = owner then
      t.amount.toNat else 0) = 0)
    (hnew : t.elim 0 (fun t => if t.mint = mint ∧ t.owner = owner then t.amount.toNat else 0) = 0)
    (mints : Pubkey → Option Mint) (key' : Pubkey) :
    Bank.owned ⟨Function.update w.bank.tokens key t, mints⟩ mint owner key' =
      w.bank.owned mint owner key' := by
  by_cases hkey : key' = key
  · subst hkey
    simp only [Bank.owned, Function.update_self, hnew, hold]
  · simp only [Bank.owned, Function.update_of_ne hkey]

/-- Claims are no collateral. -/
theorem Linked.collateral_ne (h : w.Linked) {k' : Pubkey} {s : Series} (hs : w.series k' = some s)
    (k : Pubkey) (side : RedeemSide) : s.collateralMint ≠ claimMintOf k side :=
  (claimMintOf_ne_wallet side (h.series hs).collateral).symm

theorem deposit_owns (h : w.Linked) {acc : PairAccounts} {amount : UInt64} {guard : Guard}
    (hx : deposit host w acc amount guard = .ok w')
    (hn : w.bank.Owns (claimMintOf k side) owner n) :
    ∃ n', w'.bank.Owns (claimMintOf k side) owner n' ∧
      (n' : Int) = n + (Action.instruction (.deposit acc amount guard)).flow w k owner side := by
  obtain ⟨L, hL, hp, b₁, b₂, b₃, h₁, h₂, h₃, nominal, v, -, -, rfl⟩ := deposit_eq_ok.mp hx
  have m₁ := Host.invoke_transfer h₁
  have m₂ := Host.invoke_mintTo h₂
  have m₃ := Host.invoke_mintTo h₃
  obtain ⟨n₁, hn₁, hs₁⟩ := m₁.owns hn
  obtain ⟨n₂, hn₂, hs₂⟩ := m₂.owns hn₁
  obtain ⟨n₃, hn₃, hs₃⟩ := m₃.owns hn₂
  refine ⟨n₃, hn₃, ?_⟩
  rw [if_neg (hp.accounts.exit.collateralMint ▸ h.collateral_ne hL.series k side)] at hs₁
  -- the owner of both claim accounts is the holder
  rw [m₁.alike.share, Bank.share_eq hL.holderPt.1.1, hp.holderPt.owner,
    hp.accounts.ptMint.trans (h.claimMint_eq hL.series .pt)] at hs₂
  rw [m₂.alike.share, m₁.alike.share, Bank.share_eq hL.holderDr.1.1, hp.holderDr.owner,
    hp.accounts.drMint.trans (h.claimMint_eq hL.series .dr)] at hs₃
  simp only [claimMintOf_eq_iff, eq_comm (b := owner)] at hs₂ hs₃
  simp only [Action.flow]
  cases side <;> split_ifs at hs₂ hs₃ ⊢ <;> simp_all

theorem recombine_owns (h : w.Linked) {acc : PairAccounts} {amount : UInt64} {guard : Guard}
    (hx : recombine host w acc amount guard = .ok w')
    (hn : w.bank.Owns (claimMintOf k side) owner n) :
    ∃ n', w'.bank.Owns (claimMintOf k side) owner n' ∧
      (n' : Int) = n + (Action.instruction (.recombine acc amount guard)).flow w k owner side := by
  obtain ⟨L, hL, hp, b₁, b₂, b₃, h₁, h₂, h₃, nominal, v, -, -, rfl⟩ := recombine_eq_ok.mp hx
  have m₁ := Host.invoke_burn h₁
  have m₂ := Host.invoke_burn h₂
  have m₃ := Host.invoke_transfer h₃
  obtain ⟨n₁, hn₁, hs₁⟩ := m₁.owns hn
  obtain ⟨n₂, hn₂, hs₂⟩ := m₂.owns hn₁
  obtain ⟨n₃, hn₃, hs₃⟩ := m₃.owns hn₂
  refine ⟨n₃, hn₃, ?_⟩
  rw [if_neg (hp.accounts.exit.collateralMint ▸ h.collateral_ne hL.series k side)] at hs₃
  rw [Bank.share_eq hL.holderPt.1.1, hp.holderPt.owner,
    hp.accounts.ptMint.trans (h.claimMint_eq hL.series .pt)] at hs₁
  rw [m₁.alike.share, Bank.share_eq hL.holderDr.1.1, hp.holderDr.owner,
    hp.accounts.drMint.trans (h.claimMint_eq hL.series .dr)] at hs₂
  simp only [claimMintOf_eq_iff, eq_comm (b := owner)] at hs₁ hs₂
  simp only [Action.flow]
  cases side <;> split_ifs at hs₁ hs₂ ⊢ <;> simp_all <;> omega

theorem redeem_owns (h : w.Linked) {acc : RedeemAccounts} {side' : RedeemSide} {amount : UInt64}
    {allowZero : Bool} {guard : Guard}
    (hx : redeem host w acc side' amount allowZero guard = .ok w')
    (hn : w.bank.Owns (claimMintOf k side) owner n) :
    ∃ n', w'.bank.Owns (claimMintOf k side) owner n' ∧ (n' : Int) = n +
      (Action.instruction (.redeem acc side' amount allowZero guard)).flow w k owner side := by
  obtain ⟨L, payout, hL, hp, b₁, b₂, h₁, h₂, redeemed, paid, v, -, -, -, rfl⟩ := redeem_eq_ok.mp hx
  have m₁ := Host.invoke_burn h₁
  obtain ⟨n₁, hn₁, hs₁⟩ := m₁.owns hn
  have hrest : ∃ n₂, b₂.Owns (claimMintOf k side) owner n₂ ∧ (n₂ : Int) = n₁ := by
    split at h₂
    · obtain ⟨n₂, hn₂, hs₂⟩ := (Host.invoke_transfer h₂).owns hn₁
      rw [if_neg (hp.accounts.collateralMint ▸ h.collateral_ne hL.series k side)] at hs₂
      exact ⟨n₂, hn₂, hs₂.trans (Int.add_zero _)⟩
    · rw [Result.pure_eq_ok] at h₂
      subst h₂
      exact ⟨n₁, hn₁, rfl⟩
  obtain ⟨n₂, hn₂, hs₂⟩ := hrest
  refine ⟨n₂, hn₂, hs₂.trans ?_⟩
  rw [Bank.share_eq hL.holderClaim.1.1, hp.holderClaim.owner,
    hp.claimMint.trans (h.claimMint_eq hL.series side')] at hs₁
  simp only [claimMintOf_eq_iff, eq_comm (b := owner)] at hs₁
  simp only [Action.flow]
  cases side <;> split_ifs at hs₁ ⊢ <;> simp_all <;> omega

theorem execute_owns (h : w.Linked) {ix : Instruction} (hx : w.execute host ix = .ok w')
    (hn : w.bank.Owns (claimMintOf k side) owner n) :
    ∃ n', w'.bank.Owns (claimMintOf k side) owner n' ∧
      (n' : Int) = n + (Action.instruction ix).flow w k owner side := by
  cases ix with
  | initializeConfig upgradeAuthority domain =>
    obtain ⟨config, rfl⟩ := initializeConfig_ok hx
    exact owns_same hn fun _ => rfl
  | registerAsset acc issuerId symbol attestor policyDigest =>
    obtain ⟨p, m, -, -, -, -, -, -, rfl⟩ := registerAsset_ok hx
    exact owns_same hn fun _ => rfl
  | setAssetAdmission acc enabled =>
    obtain ⟨p, p', -, -, rfl⟩ := setAssetAdmission_ok hx
    exact owns_same hn fun _ => rfl
  | refreshObservation acc evidence validUntil =>
    obtain ⟨p, p', -, -, rfl⟩ := refreshObservation_ok hx
    exact owns_same hn fun _ => rfl
  | createSeries acc year =>
    obtain ⟨p, s, hc⟩ := createSeries_ok hx
    have hne : acc.collateralMint ≠ claimMintOf k side := by
      rw [← hc.policyMint]
      exact (claimMintOf_ne_wallet side (h.policies hc.policy).collateral).symm
    rw [hc.written]
    refine owns_same hn fun key => owned_update w ?_ ?_ _ key
    · rw [hc.noVault]
      rfl
    · exact if_neg fun heq => hne heq.1
  | deposit acc amount guard => exact deposit_owns h hx hn
  | recombine acc amount guard => exact recombine_owns h hx hn
  | upsertEvent acc input =>
    obtain ⟨p, s, resolved, inYear, -, ⟨-, rfl⟩ | ⟨head, isNew, s', hr⟩⟩ := upsertEvent_ok hx
    · exact owns_same hn fun _ => rfl
    · rw [hr.written]
      exact owns_same hn fun _ => rfl
  | beginFinalization acc version hash coverage =>
    obtain ⟨L, profile, -, -, v, -, rfl⟩ := beginFinalization_eq_ok.mp hx
    exact owns_same hn fun _ => rfl
  | accumulateEvent acc =>
    obtain ⟨s, a, head, r, -, numerator, denominator, -, cursor, v, -, -, rfl⟩ :=
      accumulateEvent_eq_ok.mp hx
    exact owns_same hn fun _ => rfl
  | completeFinalization acc =>
    obtain ⟨L, -, -, ptPool, drPool, -, b₁, b₂, h₁, h₂, v, -, rfl⟩ :=
      completeFinalization_eq_ok.mp hx
    have m₁ := Host.invoke_revoke h₁
    have m₂ := Host.invoke_revoke h₂
    exact owns_same hn fun key => (m₁.alike.trans m₂.alike).owned_congr
      ((m₂.balance key).trans (m₁.balance key))
  | abortFinalization acc reason =>
    obtain ⟨s, a, -, -, -, -, v, -, rfl⟩ := abortFinalization_ok hx
    exact owns_same hn fun _ => rfl
  | redeem acc side amount allowZero guard => exact redeem_owns h hx hn

/-- An account that holds no claims is written. -/
theorem owns_modifyVault (h : w.Linked) {vault : Pubkey} (hvault : w.isVault vault = true)
    {f : TokenAccount → TokenAccount} (hf : ∀ t, (f t).mint = t.mint)
    (hn : w.bank.Owns (claimMintOf k side) owner n) :
    ∃ n', (w.bank.modifyToken vault f).Owns (claimMintOf k side) owner n' ∧ (n' : Int) = n + 0 := by
  obtain ⟨k', s, hs, rfl⟩ := (isVault_iff h).mp hvault
  obtain ⟨v, hv, hl⟩ := (h.series hs).vault
  change w.bank.tokens s.vault = some v at hv
  have hne : v.mint ≠ claimMintOf k side := by
    rw [hl.mint]
    exact h.collateral_ne hs k side
  refine ⟨n, HasTotal.congr hn fun key => ?_, (Int.add_zero _).symm⟩
  refine owned_update w ?_ ?_ w.bank.mints key
  · rw [hv]
    exact if_neg fun heq => hne heq.1
  · rw [hv]
    exact if_neg fun heq => hne ((hf v).symm.trans heq.1)

/-- **Every accepted action** changes what an owner holds by its flow. -/
theorem act_owns (h : w.Linked) {a : Action} (ha : w.act host a = some w')
    (hn : w.bank.Owns (claimMintOf k side) owner n) :
    ∃ n', w'.bank.Owns (claimMintOf k side) owner n' ∧ (n' : Int) = n + a.flow w k owner side := by
  cases a with
  | instruction ix =>
    simp only [World.act, Result.toOption_eq_some] at ha
    exact execute_owns h ha hn
  | transfer mint source destination authority amount decimals =>
    simp only [World.act, Option.ite_none_right_eq_some, Option.map_eq_some_iff] at ha
    obtain ⟨-, bank, hbank, rfl⟩ := ha
    exact (Host.invoke_transfer (Result.toOption_eq_some.mp hbank)).owns hn
  | burn mint source authority amount =>
    simp only [World.act, Option.ite_none_right_eq_some, Option.map_eq_some_iff] at ha
    obtain ⟨-, bank, hbank, rfl⟩ := ha
    obtain ⟨n', hn', hsum⟩ := (Host.invoke_burn (Result.toOption_eq_some.mp hbank)).owns hn
    refine ⟨n', hn', hsum.trans ?_⟩
    simp only [Action.flow]
    split <;> omega
  | «open» key mint holder =>
    simp only [World.act, Option.ite_none_right_eq_some, Bool.and_eq_true,
      Option.isNone_iff_eq_none, Option.some.injEq] at ha
    obtain ⟨⟨⟨-, hnone⟩, -⟩, rfl⟩ := ha
    refine owns_same hn fun key' => owned_update w ?_ ?_ _ key'
    · rw [hnone]
      rfl
    · exact ite_self _
  | donate vault amount =>
    simp only [World.act] at ha
    split at ha
    · simp only [Option.ite_none_right_eq_some, Bool.and_eq_true, Option.some.injEq] at ha
      obtain ⟨⟨hvault, -⟩, rfl⟩ := ha
      exact owns_modifyVault h hvault (fun _ => rfl) hn
    · cases ha
  | seize vault amount =>
    simp only [World.act] at ha
    split at ha
    · simp only [Option.ite_none_right_eq_some, Bool.and_eq_true, Option.some.injEq] at ha
      obtain ⟨⟨hvault, -⟩, rfl⟩ := ha
      exact owns_modifyVault h hvault (fun _ => rfl) hn
    · cases ha
  | setFrozen vault frozen =>
    simp only [World.act, Option.ite_none_right_eq_some, Option.some.injEq] at ha
    obtain ⟨hvault, rfl⟩ := ha
    exact owns_modifyVault h hvault (fun _ => rfl) hn
  | foreignToken key account =>
    simp only [World.act, Option.ite_none_right_eq_some, Bool.and_eq_true, Bool.not_eq_true',
      Option.some.injEq] at ha
    obtain ⟨⟨⟨-, hold⟩, hnew⟩, rfl⟩ := ha
    have hzero : ∀ o : Option TokenAccount, o.all TokenAccount.isForeign = true →
        (o.elim 0 fun t => if t.mint = claimMintOf k side ∧ t.owner = owner then t.amount.toNat
          else 0) = 0 := by
      intro o ho
      cases o with
      | none => rfl
      | some t =>
        refine if_neg fun heq => ?_
        rw [Option.all_some, TokenAccount.isForeign, heq.1, isClaimMint_claimMintOf] at ho
        cases ho
    exact owns_same hn fun key' => owned_update w (hzero _ hold) (hzero _ hnew) _ key'
  | foreignMint key mint =>
    simp only [World.act, Option.ite_none_right_eq_some, Bool.and_eq_true, Option.some.injEq] at ha
    obtain ⟨-, rfl⟩ := ha
    exact owns_same hn fun _ => rfl
  | tick clock =>
    simp only [World.act, Option.ite_none_right_eq_some, Option.some.injEq] at ha
    obtain ⟨-, rfl⟩ := ha
    exact owns_same hn fun _ => rfl

/-! ## Where claim accounts come from -/

/-- The account was there before, for the same mint and owner. -/
def WasThere (w : World) (key : Pubkey) (t' : TokenAccount) : Prop :=
  ∃ t, w.bank.tokens key = some t ∧ t.mint = t'.mint ∧ t.owner = t'.owner

theorem wasThere_of_alike {key : Pubkey} {t' : TokenAccount} (h : w.bank.Alike w'.bank)
    (ht' : w'.bank.tokens key = some t') : w.WasThere key t' := by
  obtain ⟨t, ht, hframe⟩ := h.symm.token ht'
  have hmint : t.frame.mint = t'.frame.mint := by rw [hframe]
  have howner : t.frame.owner = t'.frame.owner := by rw [hframe]
  exact ⟨t, ht, hmint, howner⟩

/-- A handler leaves token accounts what they are, and may create a vault. -/
theorem execute_opened (h : w.Linked) {ix : Instruction} (hx : w.execute host ix = .ok w')
    {key : Pubkey} {t' : TokenAccount} (ht' : w'.bank.tokens key = some t')
    (hclaim : t'.mint.isClaimMint = true) : w.WasThere key t' := by
  cases ix with
  | initializeConfig upgradeAuthority domain =>
    obtain ⟨config, rfl⟩ := initializeConfig_ok hx
    exact ⟨t', ht', rfl, rfl⟩
  | registerAsset acc issuerId symbol attestor policyDigest =>
    obtain ⟨p, m, -, -, -, -, -, -, rfl⟩ := registerAsset_ok hx
    exact ⟨t', ht', rfl, rfl⟩
  | setAssetAdmission acc enabled =>
    obtain ⟨p, p', -, -, rfl⟩ := setAssetAdmission_ok hx
    exact ⟨t', ht', rfl, rfl⟩
  | refreshObservation acc evidence validUntil =>
    obtain ⟨p, p', -, -, rfl⟩ := refreshObservation_ok hx
    exact ⟨t', ht', rfl, rfl⟩
  | createSeries acc year =>
    obtain ⟨p, s, hc⟩ := createSeries_ok hx
    rw [hc.written] at ht'
    change Function.update w.bank.tokens (.ata (.series acc.assetPolicy year) acc.collateralMint) _
      key = some t' at ht'
    by_cases hkey : key = .ata (.series acc.assetPolicy year) acc.collateralMint
    · rw [hkey, Function.update_self] at ht'
      cases ht'
      -- A vault holds collateral, whose mint is a wallet's and so no claim mint.
      have hwallet := (h.policies hc.policy).collateral
      rw [hc.policyMint] at hwallet
      change acc.collateralMint.isClaimMint = true at hclaim
      cases hmint : acc.collateralMint with
      | wallet bytes =>
        rw [hmint] at hclaim
        cases hclaim
      | _ =>
        rw [hmint] at hwallet
        cases hwallet
    · rw [Function.update_of_ne hkey] at ht'
      exact ⟨t', ht', rfl, rfl⟩
  | deposit acc amount guard =>
    obtain ⟨L, hL, -, b₁, b₂, b₃, h₁, h₂, h₃, nominal, v, -, -, rfl⟩ := deposit_eq_ok.mp hx
    exact wasThere_of_alike ((Host.invoke_transfer h₁).alike.trans
      ((Host.invoke_mintTo h₂).alike.trans (Host.invoke_mintTo h₃).alike)) ht'
  | recombine acc amount guard =>
    obtain ⟨L, hL, -, b₁, b₂, b₃, h₁, h₂, h₃, nominal, v, -, -, rfl⟩ := recombine_eq_ok.mp hx
    exact wasThere_of_alike ((Host.invoke_burn h₁).alike.trans
      ((Host.invoke_burn h₂).alike.trans (Host.invoke_transfer h₃).alike)) ht'
  | upsertEvent acc input =>
    obtain ⟨p, s, resolved, inYear, -, ⟨-, rfl⟩ | ⟨head, isNew, s', hr⟩⟩ := upsertEvent_ok hx
    · exact ⟨t', ht', rfl, rfl⟩
    · rw [hr.written] at ht'
      exact ⟨t', ht', rfl, rfl⟩
  | beginFinalization acc version hash coverage =>
    obtain ⟨L, profile, -, -, v, -, rfl⟩ := beginFinalization_eq_ok.mp hx
    exact ⟨t', ht', rfl, rfl⟩
  | accumulateEvent acc =>
    obtain ⟨s, a, head, r, -, n, d, -, cursor, v, -, -, rfl⟩ := accumulateEvent_eq_ok.mp hx
    exact ⟨t', ht', rfl, rfl⟩
  | completeFinalization acc =>
    obtain ⟨L, -, -, pt, dr, -, b₁, b₂, h₁, h₂, v, -, rfl⟩ := completeFinalization_eq_ok.mp hx
    exact wasThere_of_alike ((Host.invoke_revoke h₁).alike.trans (Host.invoke_revoke h₂).alike) ht'
  | abortFinalization acc reason =>
    obtain ⟨s, a, -, -, -, -, v, -, rfl⟩ := abortFinalization_ok hx
    exact ⟨t', ht', rfl, rfl⟩
  | redeem acc side amount allowZero guard =>
    obtain ⟨L, payout, -, -, b₁, b₂, h₁, h₂, r, p, v, -, -, -, rfl⟩ := redeem_eq_ok.mp hx
    have hrest : b₁.Alike b₂ := by
      split at h₂
      · exact (Host.invoke_transfer h₂).alike
      · rw [Result.pure_eq_ok] at h₂
        rw [h₂]
        exact .refl _
    exact wasThere_of_alike ((Host.invoke_burn h₁).alike.trans hrest) ht'

/-- A vault is written, mint and owner apart. -/
theorem wasThere_of_modify {vault key : Pubkey} {f : TokenAccount → TokenAccount}
    {t' : TokenAccount} (ht' : (w.bank.modifyToken vault f).tokens key = some t')
    (hf : ∀ t, (f t).mint = t.mint ∧ (f t).owner = t.owner) : w.WasThere key t' := by
  by_cases hkey : key = vault
  · subst hkey
    simp only [Bank.modifyToken, Function.update_self, Option.map_eq_some_iff] at ht'
    obtain ⟨t, ht, rfl⟩ := ht'
    exact ⟨t, ht, (hf t).1.symm, (hf t).2.symm⟩
  · rw [Bank.modifyToken_of_ne hkey] at ht'
    exact ⟨t', ht', rfl, rfl⟩

/-- **Every accepted action** keeps claim accounts what they are, or opens one. -/
theorem act_opened (h : w.Linked) {a : Action} (ha : w.act host a = some w') {key : Pubkey}
    {t' : TokenAccount} (ht' : w'.bank.tokens key = some t') (hclaim : t'.mint.isClaimMint = true) :
    w.WasThere key t' ∨ a = .open key t'.mint t'.owner := by
  cases a with
  | instruction ix =>
    simp only [World.act, Result.toOption_eq_some] at ha
    exact .inl (execute_opened h ha ht' hclaim)
  | transfer mint source destination authority amount decimals =>
    simp only [World.act, Option.ite_none_right_eq_some, Option.map_eq_some_iff] at ha
    obtain ⟨-, bank, hbank, rfl⟩ := ha
    exact .inl
      (wasThere_of_alike (Host.invoke_transfer (Result.toOption_eq_some.mp hbank)).alike ht')
  | burn mint source authority amount =>
    simp only [World.act, Option.ite_none_right_eq_some, Option.map_eq_some_iff] at ha
    obtain ⟨-, bank, hbank, rfl⟩ := ha
    exact .inl (wasThere_of_alike (Host.invoke_burn (Result.toOption_eq_some.mp hbank)).alike ht')
  | «open» key' mint holder =>
    simp only [World.act, Option.ite_none_right_eq_some, Option.some.injEq] at ha
    obtain ⟨-, rfl⟩ := ha
    change Function.update w.bank.tokens key' _ key = some t' at ht'
    by_cases hkey : key = key'
    · subst hkey
      rw [Function.update_self, Option.some.injEq] at ht'
      subst ht'
      exact .inr rfl
    · rw [Function.update_of_ne hkey] at ht'
      exact .inl ⟨t', ht', rfl, rfl⟩
  | donate vault amount =>
    simp only [World.act] at ha
    split at ha
    · obtain ⟨-, ⟨⟩⟩ := Option.ite_none_right_eq_some.mp ha
      exact .inl (wasThere_of_modify ht' fun _ => ⟨rfl, rfl⟩)
    · cases ha
  | seize vault amount =>
    simp only [World.act] at ha
    split at ha
    · obtain ⟨-, ⟨⟩⟩ := Option.ite_none_right_eq_some.mp ha
      exact .inl (wasThere_of_modify ht' fun _ => ⟨rfl, rfl⟩)
    · cases ha
  | setFrozen vault frozen =>
    obtain ⟨-, ⟨⟩⟩ := Option.ite_none_right_eq_some.mp ha
    exact .inl (wasThere_of_modify ht' fun _ => ⟨rfl, rfl⟩)
  | foreignToken key' account =>
    simp only [World.act, Option.ite_none_right_eq_some, Bool.and_eq_true, Option.some.injEq] at ha
    obtain ⟨⟨-, hnew⟩, rfl⟩ := ha
    change Function.update w.bank.tokens key' account key = some t' at ht'
    by_cases hkey : key = key'
    · rw [hkey, Function.update_self] at ht'
      rw [ht', Option.all_some, TokenAccount.isForeign, hclaim] at hnew
      cases hnew
    · rw [Function.update_of_ne hkey] at ht'
      exact .inl ⟨t', ht', rfl, rfl⟩
  | foreignMint key' mint =>
    obtain ⟨-, ⟨⟩⟩ := Option.ite_none_right_eq_some.mp ha
    exact .inl ⟨t', ht', rfl, rfl⟩
  | tick clock =>
    obtain ⟨-, ⟨⟩⟩ := Option.ite_none_right_eq_some.mp ha
    exact .inl ⟨t', ht', rfl, rfl⟩

/-- **Along a history** every claim account was opened, by an action that named its mint and
owner. -/
theorem History.opened {w₀ : World} {tr : List Action} (h : History host w₀ tr w) {key : Pubkey}
    {t : TokenAccount} (ht : w.bank.tokens key = some t) (hclaim : t.mint.isClaimMint = true) :
    Action.open key t.mint t.owner ∈ tr := by
  have hmain := h.2.rec_on_history
    (P := fun tr w => ∀ t, w.bank.tokens key = some t → t.mint.isClaimMint = true →
      Action.open key t.mint t.owner ∈ tr) ?_ ?_
  · exact hmain t ht hclaim
  · intro t ht hclaim
    have hforeign := h.1.tokens key t ht
    rw [TokenAccount.isForeign, hclaim] at hforeign
    cases hforeign
  · intro tr w a w' hrun ih ha t ht hclaim
    have hist : History host w₀ tr w := ⟨h.1, hrun⟩
    rcases act_opened hist.linked ha ht hclaim with ⟨t₁, ht₁, hmint, howner⟩ | rfl
    · rw [← hmint] at hclaim
      have hbefore := ih t₁ ht₁ hclaim
      rw [hmint, howner] at hbefore
      exact List.mem_append_left _ hbefore
    · exact List.mem_append_right _ (List.mem_singleton_self _)

/-- Nobody holds claims of a series with fresh books. -/
theorem owns_fresh (h : w.Linked) {b : Books} (hb : w.books k = some b) (hfresh : b.Fresh host k)
    (side : RedeemSide) (owner : Pubkey) : w.bank.Owns (claimMintOf k side) owner 0 := by
  have hsupply : w.bank.supply (claimMintOf k side) = 0 := by
    rw [← books_supply hb side]
    exact hfresh.supply side
  have htotal := h.balanced (claimMintOf k side) (isClaimMint_claimMintOf ..)
  rw [hsupply] at htotal
  refine HasTotal.zero.congr fun key => ?_
  exact Nat.le_zero.mp ((w.bank.owned_le_holding _ owner key).trans (htotal.le key))

end World

end DividendX
