import DividendX.Supply

/-!
# When a holder's instruction goes through

The converse of `Accepted`: on an exact host the checks of an instruction, balances that suffice
and counters with room left are enough for it to succeed. Together with the laws of `Supply` this
says exactly which requests of a holder a reachable world grants, and what they pay.
-/

namespace DividendX

variable {host : Host}

/-! ## Token instructions on an exact host -/

namespace Host.Exact

variable {b : Bank} {amount : UInt64}

/-- A transfer goes through, and touches no mint and no third account. -/
theorem transfer (h : host.Exact) {source mint destination authority : Pubkey} {decimals : UInt8}
    (hr : TokenInstruction.Requires b
      (.transferChecked source mint destination authority amount decimals))
    (hs : ∃ src, b.tokens source = some src ∧ src.owner = authority) :
    ∃ b', host.invoke b (.transferChecked source mint destination authority amount decimals) =
      .ok b' ∧ b'.mints = b.mints ∧
      ∀ key, key ≠ source → key ≠ destination → b'.tokens key = b.tokens key := by
  refine ⟨_, invoke_eq_ok.mpr ⟨h b _ hr hs, rfl⟩, rfl, fun key hsrc hdst => ?_⟩
  rw [TokenInstruction.effect, Bank.credit, Bank.modifyToken_of_ne hdst, Bank.debit,
    Bank.modifyToken_of_ne hsrc]

/-- An issue goes through, and touches no other mint and no other account. -/
theorem mintTo (h : host.Exact) {mint destination authority : Pubkey}
    (hr : TokenInstruction.Requires b (.mintTo mint destination authority amount)) :
    ∃ b', host.invoke b (.mintTo mint destination authority amount) = .ok b' ∧
      (∀ mint', mint' ≠ mint → b'.mints mint' = b.mints mint') ∧
      ∀ key, key ≠ destination → b'.tokens key = b.tokens key := by
  refine ⟨_, invoke_eq_ok.mpr ⟨h b _ hr trivial, rfl⟩, fun mint' hm => ?_, fun key hdst => ?_⟩
  · exact Bank.modifyMint_of_ne hm
  · exact Bank.modifyToken_of_ne hdst

/-- A burn goes through, and touches no other mint and no other account. -/
theorem burn (h : host.Exact) {mint source authority : Pubkey}
    (hr : TokenInstruction.Requires b (.burn mint source authority amount))
    (hs : ∃ src, b.tokens source = some src ∧ src.owner = authority) :
    ∃ b', host.invoke b (.burn mint source authority amount) = .ok b' ∧
      (∀ mint', mint' ≠ mint → b'.mints mint' = b.mints mint') ∧
      ∀ key, key ≠ source → b'.tokens key = b.tokens key := by
  refine ⟨_, invoke_eq_ok.mpr ⟨h b _ hr hs, rfl⟩, fun mint' hm => ?_, fun key hsrc => ?_⟩
  · exact Bank.modifyMint_of_ne hm
  · exact Bank.modifyToken_of_ne hsrc

end Host.Exact

theorem exists_word {n : Nat} (h : n < 2 ^ 64) : ∃ x : UInt64, x.toNat = n :=
  ⟨UInt64.ofNat n, UInt64.toNat_ofNat_of_lt h⟩

/-! ## Deposit and recombination -/

section Pair

variable {w w' : World} {acc : PairAccounts} {amount : UInt64} {guard : Guard} {L : PairLoaded}

/-- The addresses determine the records. -/
theorem PairLoaded.From.unique {L L' : PairLoaded} {w : World} {acc : PairAccounts}
    (h : L.From w acc) (h' : L'.From w acc) : L = L' := by
  obtain ⟨h1, h2, ⟨h3, -⟩, ⟨h4, -⟩, ⟨h5, -⟩, ⟨⟨h6, -⟩, -⟩, ⟨⟨h7, -⟩, -⟩,
    ⟨⟨h8, -⟩, -⟩, ⟨⟨h9, -⟩, -⟩, -⟩ := h
  obtain ⟨g1, g2, ⟨g3, -⟩, ⟨g4, -⟩, ⟨g5, -⟩, ⟨⟨g6, -⟩, -⟩, ⟨⟨g7, -⟩, -⟩,
    ⟨⟨g8, -⟩, -⟩, ⟨⟨g9, -⟩, -⟩, -⟩ := h'
  simp only [h1, h2, h3, h4, h5, h6, h7, h8, h9, Option.some.injEq] at g1 g2 g3 g4 g5 g6 g7 g8 g9
  cases L
  cases L'
  simp_all only

/-- **A deposit is granted** when its checks pass, the holder owns the amount, the mint moves and no
balance leaves the word. -/
theorem exists_deposit (hexact : host.Exact) (hL : L.From w acc)
    (hp : DepositPasses host w acc amount guard L) (howned : amount ≤ L.holderCollateral.amount)
    (hpaused : L.mint.isPaused = false) (hdecimals : L.mint.decimals = L.series.decimals)
    (hvault : L.vault.amount.toNat + amount.toNat < 2 ^ 64)
    (hpt : L.ptMint.supply.toNat + amount.toNat < 2 ^ 64 ∧
      L.holderPt.amount.toNat + amount.toNat < 2 ^ 64)
    (hdr : L.drMint.supply.toNat + amount.toNat < 2 ^ 64 ∧
      L.holderDr.amount.toNat + amount.toNat < 2 ^ 64)
    (hversion : L.series.stateVersion.toNat + 1 < 2 ^ 64) :
    ∃ w', deposit host w acc amount guard = .ok w' := by
  have hdistinct := hp.distinct
  simp only [List.nodup_cons, List.mem_cons, List.not_mem_nil, or_false, not_or] at hdistinct
  obtain ⟨⟨hcv, hcp, hcd⟩, ⟨hvp, hvd⟩, hpd, -⟩ := hdistinct
  have hcovered := UInt64.le_iff_toNat_le.mp hp.covered
  obtain ⟨nominal, hnominal⟩ :=
    @exists_word (L.series.nominalBacking.toNat + amount.toNat) (by omega)
  obtain ⟨v, hv⟩ := exists_word hversion
  have r₁ : TokenInstruction.Requires w.bank (.transferChecked acc.holderCollateral
      acc.collateralMint acc.vault (.wallet acc.holder) amount L.series.decimals) :=
    ⟨L.holderCollateral, L.vault, L.mint, hL.holderCollateral.1, hL.vault.1, hL.mint.1,
      hp.holderCollateral.mint,
      hp.accounts.exit.vaultMint.trans hp.accounts.exit.collateralMint.symm,
      hp.holderCollateral.state, hp.accounts.exit.vaultState, hpaused, hdecimals,
      UInt64.le_iff_toNat_le.mp howned, fun _ => hvault⟩
  obtain ⟨b₁, h₁, hm₁, ht₁⟩ := hexact.transfer r₁
    ⟨L.holderCollateral, hL.holderCollateral.1, hp.holderCollateral.owner⟩
  -- The calls write different accounts, so each finds what the instruction has loaded.
  have r₂ : TokenInstruction.Requires b₁ (.mintTo acc.ptMint acc.holderPt acc.series amount) := by
    refine ⟨L.holderPt, L.ptMint, ?_, ?_, hp.holderPt.mint, hp.holderPt.state,
      hp.ptMint.mintAuthority, hpt⟩
    · rw [ht₁ _ (Ne.symm hcp) (Ne.symm hvp)]
      exact hL.holderPt.1.1
    · rw [hm₁]
      exact hL.ptMint.1.1
  obtain ⟨b₂, h₂, hm₂, ht₂⟩ := hexact.mintTo r₂
  have r₃ : TokenInstruction.Requires b₂ (.mintTo acc.drMint acc.holderDr acc.series amount) := by
    refine ⟨L.holderDr, L.drMint, ?_, ?_, hp.holderDr.mint, hp.holderDr.state,
      hp.drMint.mintAuthority, hdr⟩
    · rw [ht₂ _ (Ne.symm hpd), ht₁ _ (Ne.symm hcd) (Ne.symm hvd)]
      exact hL.holderDr.1.1
    · rw [hm₂ _ hp.accounts.distinct.symm, hm₁]
      exact hL.drMint.1.1
  obtain ⟨b₃, h₃, -, -⟩ := hexact.mintTo r₃
  exact ⟨_, deposit_eq_ok.mpr ⟨L, hL, hp, b₁, b₂, b₃, h₁, h₂, h₃, nominal, v, hnominal, hv, rfl⟩⟩

/-- The gates of `deposit` that depend on the state alone are passed: its checks pass whenever those
on the amount and the guard do. -/
def DepositGates (host : Host) (w : World) (acc : PairAccounts) : Prop :=
  ∃ L : PairLoaded, L.From w acc ∧ ∀ amount guard, 0 < amount →
    checkGuard L.series guard w.clock amount = .ok () → DepositPasses host w acc amount guard L

/-- **A recombination is granted** when its checks pass, the holder owns the amount of both claims,
the mint moves and no balance leaves the word. -/
theorem exists_recombine (hexact : host.Exact) (hL : L.From w acc)
    (hp : RecombinePasses host w acc amount guard L)
    (hpaused : L.mint.isPaused = false) (hdecimals : L.mint.decimals = L.series.decimals)
    (hcollateral : L.holderCollateral.amount.toNat + amount.toNat < 2 ^ 64)
    (hpt : amount.toNat ≤ L.holderPt.amount.toNat ∧ amount.toNat ≤ L.ptMint.supply.toNat)
    (hdr : amount.toNat ≤ L.holderDr.amount.toNat ∧ amount.toNat ≤ L.drMint.supply.toNat)
    (hmints : acc.collateralMint ≠ acc.ptMint ∧ acc.collateralMint ≠ acc.drMint)
    (hversion : L.series.stateVersion.toNat + 1 < 2 ^ 64) :
    ∃ w', recombine host w acc amount guard = .ok w' := by
  have hdistinct := hp.distinct
  simp only [List.nodup_cons, List.mem_cons, List.not_mem_nil, or_false, not_or] at hdistinct
  obtain ⟨⟨hpd, hpc, hpv⟩, ⟨hdc, hdv⟩, hcv, -⟩ := hdistinct
  have hcovered := UInt64.le_iff_toNat_le.mp hp.covered
  have hbacked := UInt64.le_iff_toNat_le.mp hp.backed
  have hword := L.series.nominalBacking.toNat_lt
  obtain ⟨nominal, hnominal⟩ :=
    @exists_word (L.series.nominalBacking.toNat - amount.toNat) (by omega)
  obtain ⟨v, hv⟩ := exists_word hversion
  have r₁ : TokenInstruction.Requires w.bank
      (.burn acc.ptMint acc.holderPt (.wallet acc.holder) amount) :=
    ⟨L.holderPt, L.ptMint, hL.holderPt.1.1, hL.ptMint.1.1, hp.holderPt.mint, hp.holderPt.state, hpt⟩
  obtain ⟨b₁, h₁, hm₁, ht₁⟩ := hexact.burn r₁ ⟨L.holderPt, hL.holderPt.1.1, hp.holderPt.owner⟩
  -- The calls write different accounts, so each finds what the instruction has loaded.
  have hdr₁ : b₁.tokens acc.holderDr = some L.holderDr := by
    rw [ht₁ _ (Ne.symm hpd)]
    exact hL.holderDr.1.1
  have r₂ : TokenInstruction.Requires b₁
      (.burn acc.drMint acc.holderDr (.wallet acc.holder) amount) := by
    refine ⟨L.holderDr, L.drMint, hdr₁, ?_, hp.holderDr.mint, hp.holderDr.state, hdr⟩
    rw [hm₁ _ hp.accounts.distinct.symm]
    exact hL.drMint.1.1
  obtain ⟨b₂, h₂, hm₂, ht₂⟩ := hexact.burn r₂ ⟨L.holderDr, hdr₁, hp.holderDr.owner⟩
  have hvault₂ : b₂.tokens acc.vault = some L.vault := by
    rw [ht₂ _ (Ne.symm hdv), ht₁ _ (Ne.symm hpv)]
    exact hL.vault.1
  have r₃ : TokenInstruction.Requires b₂ (.transferChecked acc.vault acc.collateralMint
      acc.holderCollateral acc.series amount L.series.decimals) := by
    refine ⟨L.vault, L.holderCollateral, L.mint, hvault₂, ?_, ?_,
      hp.accounts.exit.vaultMint.trans hp.accounts.exit.collateralMint.symm,
      hp.holderCollateral.mint, hp.accounts.exit.vaultState, hp.holderCollateral.state, hpaused,
      hdecimals, by omega, fun _ => hcollateral⟩
    · rw [ht₂ _ (Ne.symm hdc), ht₁ _ (Ne.symm hpc)]
      exact hL.holderCollateral.1
    · rw [hm₂ _ hmints.2, hm₁ _ hmints.1]
      exact hL.mint.1
  obtain ⟨b₃, h₃, -, -⟩ := hexact.transfer r₃ ⟨L.vault, hvault₂, hp.accounts.exit.vaultOwner⟩
  exact ⟨_, recombine_eq_ok.mpr
    ⟨L, hL, hp, b₁, b₂, b₃, h₁, h₂, h₃, nominal, v, by omega, hv, rfl⟩⟩

/-- A deposit gives the holder the amount of both claims, and needs the holder to own it. -/
theorem deposit_pays (hx : deposit host w acc amount guard = .ok w') :
    amount.toNat ≤ w.bank.balance acc.holderCollateral ∧
      w'.bank.balance acc.holderPt = w.bank.balance acc.holderPt + amount.toNat ∧
      w'.bank.balance acc.holderDr = w.bank.balance acc.holderDr + amount.toNat := by
  obtain ⟨L, hL, hp, b₁, b₂, b₃, h₁, h₂, h₃, _, _, -, -, rfl⟩ := deposit_eq_ok.mp hx
  have hdistinct := hp.distinct
  simp only [List.nodup_cons, List.mem_cons, List.not_mem_nil, or_false, not_or] at hdistinct
  obtain ⟨⟨hcv, hcp, hcd⟩, ⟨hvp, hvd⟩, hpd, -⟩ := hdistinct
  have m₁ := Host.invoke_transfer h₁
  have m₂ := Host.invoke_mintTo h₂
  have m₃ := Host.invoke_mintTo h₃
  obtain ⟨t, ht, -, hle⟩ := m₁.source
  refine ⟨?_, ?_, ?_⟩
  · rw [Bank.balance_eq ht]
    exact hle
  · change b₃.balance _ = _
    rw [m₃.others _ hpd, m₂.credited, m₁.others _ (Ne.symm hcp) (Ne.symm hvp)]
  · change b₃.balance _ = _
    rw [m₃.credited, m₂.others _ (Ne.symm hpd), m₁.others _ (Ne.symm hcd) (Ne.symm hvd)]

/-- A recombination gives the holder the amount of collateral, and needs the holder to own both
claims. -/
theorem recombine_pays (hx : recombine host w acc amount guard = .ok w') :
    amount.toNat ≤ w.bank.balance acc.holderPt ∧ amount.toNat ≤ w.bank.balance acc.holderDr ∧
      w'.bank.balance acc.holderCollateral =
        w.bank.balance acc.holderCollateral + amount.toNat := by
  obtain ⟨L, hL, hp, b₁, b₂, b₃, h₁, h₂, h₃, _, _, -, -, rfl⟩ := recombine_eq_ok.mp hx
  have hdistinct := hp.distinct
  simp only [List.nodup_cons, List.mem_cons, List.not_mem_nil, or_false, not_or] at hdistinct
  obtain ⟨⟨hpd, hpc, hpv⟩, ⟨hdc, hdv⟩, hcv, -⟩ := hdistinct
  have m₁ := Host.invoke_burn h₁
  have m₂ := Host.invoke_burn h₂
  have m₃ := Host.invoke_transfer h₃
  refine ⟨?_, ?_, ?_⟩
  · rw [← m₁.debited]
    exact Nat.le_add_left _ _
  · rw [← m₁.others _ (Ne.symm hpd), ← m₂.debited]
    exact Nat.le_add_left _ _
  · change b₃.balance _ = _
    rw [m₃.credited (Ne.symm hcv), m₂.others _ (Ne.symm hdc), m₁.others _ (Ne.symm hpc)]

end Pair

/-! ## Redemption -/

section Redeem

variable {w w' : World} {acc : RedeemAccounts} {side : RedeemSide} {amount payout : UInt64}
  {allowZero : Bool} {guard : Guard} {L : RedeemLoaded}

theorem RedeemLoaded.From.unique {L L' : RedeemLoaded} {w : World} {acc : RedeemAccounts}
    (h : L.From w acc) (h' : L'.From w acc) : L = L' := by
  obtain ⟨h1, h2, ⟨h3, -⟩, ⟨h4, -⟩, ⟨h5, -⟩, ⟨⟨h6, -⟩, -⟩, ⟨⟨h7, -⟩, -⟩, -⟩ := h
  obtain ⟨g1, g2, ⟨g3, -⟩, ⟨g4, -⟩, ⟨g5, -⟩, ⟨⟨g6, -⟩, -⟩, ⟨⟨g7, -⟩, -⟩, -⟩ := h'
  simp only [h1, h2, h3, h4, h5, h6, h7, Option.some.injEq] at g1 g2 g3 g4 g5 g6 g7
  cases L
  cases L'
  simp_all only

/-- **A redemption is granted** when its checks pass, the holder owns the claims, the mint moves and
no balance or counter leaves the word. -/
theorem exists_redeem (hexact : host.Exact) (hL : L.From w acc)
    (hp : RedeemPasses host w acc side amount allowZero guard L payout)
    (hpaused : L.mint.isPaused = false) (hdecimals : L.mint.decimals = L.series.decimals)
    (hcollateral : L.holderCollateral.amount.toNat + payout.toNat < 2 ^ 64)
    (hclaim : amount.toNat ≤ L.holderClaim.amount.toNat ∧ amount.toNat ≤ L.claimMint.supply.toNat)
    (hvault : payout.toNat ≤ L.vault.amount.toNat) (hmint : acc.collateralMint ≠ acc.claimMint)
    (hcounters : (L.series.redeemedNominal side).toNat + amount.toNat < 2 ^ 64 ∧
      (L.series.paid side).toNat + payout.toNat < 2 ^ 64 ∧
      L.series.stateVersion.toNat + 1 < 2 ^ 64) :
    ∃ w', redeem host w acc side amount allowZero guard = .ok w' := by
  have hdistinct := hp.distinct
  simp only [List.nodup_cons, List.mem_cons, List.not_mem_nil, or_false, not_or] at hdistinct
  obtain ⟨⟨hxc, hxv⟩, hcv, -⟩ := hdistinct
  obtain ⟨redeemed, hredeemed⟩ := exists_word hcounters.1
  obtain ⟨paid, hpaid⟩ := exists_word hcounters.2.1
  obtain ⟨v, hv⟩ := exists_word hcounters.2.2
  have r₁ : TokenInstruction.Requires w.bank
      (.burn acc.claimMint acc.holderClaim (.wallet acc.holder) amount) :=
    ⟨L.holderClaim, L.claimMint, hL.holderClaim.1.1, hL.claimMint.1.1, hp.holderClaim.mint,
      hp.holderClaim.state, hclaim⟩
  obtain ⟨b₁, h₁, hm₁, ht₁⟩ := hexact.burn r₁
    ⟨L.holderClaim, hL.holderClaim.1.1, hp.holderClaim.owner⟩
  have hvault₁ : b₁.tokens acc.vault = some L.vault := by
    rw [ht₁ _ (Ne.symm hxv)]
    exact hL.vault.1
  have r₂ : TokenInstruction.Requires b₁ (.transferChecked acc.vault acc.collateralMint
      acc.holderCollateral acc.series payout L.series.decimals) := by
    refine ⟨L.vault, L.holderCollateral, L.mint, hvault₁, ?_, ?_,
      hp.accounts.vaultMint.trans hp.accounts.collateralMint.symm, hp.holderCollateral.mint,
      hp.accounts.vaultState, hp.holderCollateral.state, hpaused, hdecimals, hvault,
      fun _ => hcollateral⟩
    · rw [ht₁ _ (Ne.symm hxc)]
      exact hL.holderCollateral.1
    · rw [hm₁ _ hmint]
      exact hL.mint.1
  obtain ⟨b₂, h₂, -, -⟩ := hexact.transfer r₂ ⟨L.vault, hvault₁, hp.accounts.vaultOwner⟩
  -- nothing is sent when nothing is owed
  obtain ⟨b, hb⟩ : ∃ b, (if 0 < payout then host.invoke b₁ (.transferChecked acc.vault
      acc.collateralMint acc.holderCollateral acc.series payout L.series.decimals) else pure b₁) =
      .ok b := by
    by_cases hpos : 0 < payout
    · exact ⟨b₂, by rw [if_pos hpos]; exact h₂⟩
    · exact ⟨b₁, by rw [if_neg hpos]; rfl⟩
  exact ⟨_, redeem_eq_ok.mpr ⟨L, payout, hL, hp, b₁, b, h₁, hb, redeemed, paid, v, hredeemed, hpaid,
    hv, rfl⟩⟩

/-- A redemption needs the holder to own the claims. -/
theorem redeem_owned (hx : redeem host w acc side amount allowZero guard = .ok w') :
    amount.toNat ≤ w.bank.balance acc.holderClaim := by
  obtain ⟨L, payout, hL, hp, b₁, b₂, h₁, -⟩ := redeem_eq_ok.mp hx
  rw [← (Host.invoke_burn h₁).debited]
  exact Nat.le_add_left _ _

end Redeem

end DividendX
