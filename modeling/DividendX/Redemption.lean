import DividendX.Standard

/-!
# Redemption telescopes

A payout is a difference of two cumulative floors, so what a side has paid depends on how much of
it was redeemed and on nothing else: not on who redeemed, in which order, in how many pieces, or
what happened on the other side.

The invariant is `Redeemable`: after finalization the paid counter of a side is the cumulative
floor of its redeemed counter, and before it both are zero.
-/

namespace DividendX

/-! ## Cumulative floors -/

section Cumulative

variable {a b pool supply : Nat}

theorem cumulative_zero (pool supply : Nat) : cumulative 0 pool supply = 0 := by
  simp [cumulative]

/-- The whole pool is paid exactly when the whole supply is redeemed. -/
theorem cumulative_eq_pool_iff (hs : 0 < supply) (hp : 0 < pool) (hb : b ≤ supply) :
    cumulative b pool supply = pool ↔ b = supply := by
  refine ⟨fun h => ?_, fun h => ?_⟩
  · rcases Nat.lt_or_eq_of_le hb with hlt | heq
    · have hlow : supply * cumulative b pool supply ≤ b * pool := Nat.mul_div_le _ _
      rw [h] at hlow
      exact absurd hlow (Nat.not_le.mpr (Nat.mul_lt_mul_of_pos_right hlt hp))
    · exact heq
  · rw [h]
    exact Nat.mul_div_cancel_left pool hs

/-- A difference of two cumulative floors is less than one away from the exact share. -/
theorem cumulative_sub_near (hs : 0 < supply) (b a pool : Nat) :
    |((cumulative (b + a) pool supply - cumulative b pool supply : Nat) : ℚ) -
      (a : ℚ) * pool / supply| < 1 := by
  have hs' : (0 : ℚ) < supply := by exact_mod_cast hs
  have hmono := cumulative_mono (Nat.le_add_right b a) pool supply
  have hfloor : ∀ n : Nat, (cumulative n pool supply : ℚ) ≤ (n : ℚ) * pool / supply ∧
      (n : ℚ) * pool / supply < cumulative n pool supply + 1 := by
    intro n
    have hlow : cumulative n pool supply * supply ≤ n * pool := Nat.div_mul_le_self _ _
    have hhigh : n * pool < (cumulative n pool supply + 1) * supply := by
      rw [Nat.mul_comm _ supply]
      exact Nat.lt_mul_div_succ _ hs
    rw [le_div_iff₀ hs', div_lt_iff₀ hs']
    exact ⟨by exact_mod_cast hlow, by exact_mod_cast hhigh⟩
  have hsplit : ((b + a : Nat) : ℚ) * pool / supply = (b : ℚ) * pool / supply
      + a * pool / supply := by
    push_cast
    ring
  obtain ⟨hb₁, hb₂⟩ := hfloor b
  obtain ⟨ha₁, ha₂⟩ := hfloor (b + a)
  rw [hsplit] at ha₁ ha₂
  rw [Nat.cast_sub hmono, abs_lt]
  refine ⟨by linarith, by linarith⟩

end Cumulative

/-! ## Grouping -/

/-- Redeem a list of amounts one after the other on one side, and add up what they pay. -/
def redeemInOrder (pool supply before : UInt64) : List UInt64 → Outcome Nat
  | [] => pure 0
  | amount :: rest => do
    let payout ← redemptionPayout before amount pool supply
    let others ← redeemInOrder pool supply (before + amount) rest
    return payout.toNat + others

/-- A sequence is accepted exactly when its sum stays inside the supply, and pays the difference of
the cumulative floors at its two ends. -/
theorem redeemInOrder_eq_ok {pool supply before : UInt64} {amounts : List UInt64} {total : Nat}
    (hs : supply ≠ 0) (hbefore : before.toNat ≤ supply.toNat) :
    redeemInOrder pool supply before amounts = .ok total ↔
      before.toNat + (amounts.map UInt64.toNat).sum ≤ supply.toNat ∧
      total = cumulative (before.toNat + (amounts.map UInt64.toNat).sum) pool.toNat supply.toNat -
        cumulative before.toNat pool.toNat supply.toNat := by
  induction amounts generalizing before total with
  | nil =>
    simp only [redeemInOrder, Result.pure_eq_ok, List.map_nil, List.sum_nil, Nat.add_zero,
      Nat.sub_self]
    exact ⟨fun h => ⟨hbefore, h.symm⟩, fun h => h.2.symm⟩
  | cons amount rest ih =>
    simp only [redeemInOrder, Result.bind_eq_ok, Result.pure_eq_ok, List.map_cons, List.sum_cons,
      redemptionPayout_eq_ok hs]
    have hsup := supply.toNat_lt
    have hassoc : before.toNat + (amount.toNat + (rest.map UInt64.toNat).sum) =
        before.toNat + amount.toNat + (rest.map UInt64.toNat).sum := by omega
    have hm₁ := cumulative_mono (Nat.le_add_right before.toNat amount.toNat) pool.toNat supply.toNat
    have hm₂ := cumulative_mono (Nat.le_add_right (before.toNat + amount.toNat)
      (rest.map UInt64.toNat).sum) pool.toNat supply.toNat
    rw [hassoc]
    refine ⟨?_, ?_⟩
    · rintro ⟨payout, ⟨hle, hpay⟩, others, hothers, rfl⟩
      have hadd : (before + amount).toNat = before.toNat + amount.toNat :=
        Checked.toNat_add_of_lt (by omega)
      rw [ih (by rw [hadd]; exact hle), hadd] at hothers
      obtain ⟨hle', rfl⟩ := hothers
      exact ⟨hle', by rw [hpay]; omega⟩
    · rintro ⟨hle, rfl⟩
      have hadd : (before + amount).toNat = before.toNat + amount.toNat :=
        Checked.toNat_add_of_lt (by omega)
      have hfit : cumulative (before.toNat + amount.toNat) pool.toNat supply.toNat -
          cumulative before.toNat pool.toNat supply.toNat < 2 ^ 64 :=
        lt_of_le_of_lt (Nat.sub_le _ _)
          (lt_of_le_of_lt (cumulative_le (by omega) pool.toNat) pool.toNat_lt)
      obtain ⟨payout, hpayout⟩ : ∃ payout : UInt64, payout.toNat = _ :=
        ⟨UInt64.ofNat _, UInt64.toNat_ofNat_of_lt hfit⟩
      refine ⟨payout, ⟨by omega, hpayout⟩, _, (ih (by rw [hadd]; omega)).mpr
        ⟨by rw [hadd]; exact hle, rfl⟩, ?_⟩
      rw [hpayout, hadd]
      omega

/-! ## The sides of a series -/

section Sides

variable (s : Series) (side side' : RedeemSide) (redeemed paid v : UInt64)

@[simp] theorem Series.redeemedNominal_setRedeemed :
    Series.redeemedNominal { s.setRedeemed side redeemed paid with stateVersion := v } side' =
      if side' = side then redeemed else s.redeemedNominal side' := by
  cases side <;> cases side' <;> rfl

@[simp] theorem Series.paid_setRedeemed :
    Series.paid { s.setRedeemed side redeemed paid with stateVersion := v } side' =
      if side' = side then paid else s.paid side' := by
  cases side <;> cases side' <;> rfl

@[simp] theorem Series.pool_setRedeemed :
    Series.pool { s.setRedeemed side redeemed paid with stateVersion := v } side' =
      s.pool side' := by
  cases side <;> cases side' <;> rfl

@[simp] theorem Series.finalSupply_setRedeemed :
    Series.finalSupply { s.setRedeemed side redeemed paid with stateVersion := v } =
      s.finalSupply := by
  cases side <;> rfl

@[simp] theorem Series.phase_setRedeemed :
    Series.phase { s.setRedeemed side redeemed paid with stateVersion := v } = s.phase := by
  cases side <;> rfl

@[simp] theorem Series.redeemedNominal_final (ptPool drPool slot : UInt64) :
    Series.redeemedNominal { s.final ptPool drPool slot with stateVersion := v } side =
      s.redeemedNominal side := by
  cases side <;> rfl

@[simp] theorem Series.paid_final (ptPool drPool slot : UInt64) :
    Series.paid { s.final ptPool drPool slot with stateVersion := v } side = s.paid side := by
  cases side <;> rfl

end Sides

/-- The counters of redemption are in order. -/
structure Redeemable (s : Series) : Prop where
  unpaid : s.phase ≠ .finalized → ∀ side, s.redeemedNominal side = 0 ∧ s.paid side = 0
  within : ∀ side, s.phase = .finalized → (s.redeemedNominal side).toNat ≤ s.finalSupply.toNat
  telescoped : ∀ side, s.phase = .finalized → (s.paid side).toNat =
    cumulative (s.redeemedNominal side).toNat (s.pool side).toNat s.finalSupply.toNat
  pools : s.phase = .finalized → s.ptPool.toNat + s.drPool.toNat = s.finalSupply.toNat

namespace Redeemable

variable {host : Host} {k : Pubkey} {b b' : Books} {c : Change} {s s' : Series}

/-- Before finalization all there is to say is that nothing was redeemed. -/
theorem of_open (hp : s.phase ≠ .finalized)
    (hz : ∀ side, s.redeemedNominal side = 0 ∧ s.paid side = 0) : Redeemable s :=
  ⟨fun _ => hz, fun _ h => absurd h hp, fun _ h => absurd h hp, fun h => absurd h hp⟩

theorem fresh (h : b.Fresh host k) : Redeemable b.series := by
  obtain ⟨assetKey, asset, year, start, maturity, mintKey, profile, hs⟩ := h.series
  rw [hs]
  refine of_open (by simp [freshSeries]) fun side => ?_
  cases side <;> exact ⟨rfl, rfl⟩

/-- **One step** keeps the counters of redemption in order. -/
theorem step (h : Redeemable b.series) (hstep : b.Step host k c b') : Redeemable b'.series := by
  -- Before finalization nothing is redeemed or paid, and such a step changes neither.
  have hopen : ∀ {s' : Series}, b.series.phase ≠ .finalized → s'.phase ≠ .finalized →
      (∀ side, s'.redeemedNominal side = b.series.redeemedNominal side ∧
        s'.paid side = b.series.paid side) → Redeemable s' := by
    intro s' hp hp' hsame
    refine of_open hp' fun side => ?_
    rw [(hsame side).1, (hsame side).2]
    exact h.unpaid hp side
  cases hstep with
  | idle => exact h
  | deposit _ phase _ _ _ _ _ _ _ =>
    refine hopen (by simp [phase]) (by simp [phase]) fun side => ?_
    cases side <;> exact ⟨rfl, rfl⟩
  | recombine _ phase _ _ _ _ _ =>
    refine hopen phase phase fun side => ?_
    cases side <;> exact ⟨rfl, rfl⟩
  | record phase _ _ _ _ _ counted _ _ =>
    obtain ⟨_, _, _, _, _, -, -, -, -, -, rfl⟩ := updateCounters_eq_ok.mp counted
    refine hopen (by simp [phase]) (by simp [phase]) fun side => ?_
    cases side <;> exact ⟨rfl, rfl⟩
  | begin phase _ _ _ =>
    refine hopen (by simp [phase]) (by simp [Series.sealed]) fun side => ?_
    cases side <;> exact ⟨rfl, rfl⟩
  | accumulate phase _ _ _ _ _ _ _ =>
    refine hopen (by simp [phase]) (by simp [phase]) fun side => ?_
    cases side <;> exact ⟨rfl, rfl⟩
  | @complete ptPool drPool slot v phase _ _ _ pools _ =>
    obtain ⟨-, -, -, -, -, hsum⟩ := splitPools_eq_ok.mp pools
    have hz : ∀ side, b.series.redeemedNominal side = 0 ∧ b.series.paid side = 0 :=
      h.unpaid (by simp [phase])
    refine ⟨fun hp => absurd rfl hp, fun side _ => ?_, fun side _ => ?_, fun _ => hsum.symm⟩
    · rw [Series.redeemedNominal_final, (hz side).1]
      exact Nat.zero_le _
    · rw [Series.redeemedNominal_final, Series.paid_final, (hz side).1, (hz side).2]
      exact (cumulative_zero _ _).symm
  | abort phase _ =>
    refine hopen (by simp [phase]) (by simp [Series.unsealed]) fun side => ?_
    cases side <;> exact ⟨rfl, rfl⟩
  | @redeem side amount payout redeemed paid v supply vault positive phase priced _ hr hp _ _ _ =>
    -- Out of an empty supply only nothing could be redeemed, and that is refused.
    have hs : b.series.finalSupply ≠ 0 := by
      intro h0
      rw [h0, redemptionPayout_zero_supply] at priced
      rw [priced.1] at positive
      cases positive
    obtain ⟨hle, hpay⟩ := (redemptionPayout_eq_ok hs).mp priced
    -- The payout is a difference of two floors, so what is paid telescopes to the later one.
    have hbefore := h.telescoped side phase
    have hmono := cumulative_mono (Nat.le_add_right (b.series.redeemedNominal side).toNat
      amount.toNat) (b.series.pool side).toNat b.series.finalSupply.toNat
    refine ⟨fun hp => absurd ?_ hp, fun side' _ => ?_, fun side' _ => ?_, fun _ => ?_⟩
    · rw [Series.phase_setRedeemed]
      exact phase
    · rw [Series.redeemedNominal_setRedeemed, Series.finalSupply_setRedeemed]
      split
      · rw [hr]
        exact hle
      · exact h.within side' phase
    · rw [Series.redeemedNominal_setRedeemed, Series.paid_setRedeemed, Series.pool_setRedeemed,
        Series.finalSupply_setRedeemed]
      split
      · rename_i heq
        rw [heq, hp, hr, hpay, hbefore]
        omega
      · exact h.telescoped side' phase
    · have hpools := h.pools phase
      cases side <;> exact hpools
  | burn _ => exact h
  | donate _ => exact h
  | seize _ => exact h

/-- Once final, always final, with the same pools and the same supply. -/
theorem step_final (hfinal : b.series.phase = .finalized) (hstep : b.Step host k c b') :
    b'.series.phase = .finalized ∧ b'.series.finalSupply = b.series.finalSupply ∧
      ∀ side, b'.series.pool side = b.series.pool side := by
  cases hstep with
  | idle => exact ⟨hfinal, rfl, fun _ => rfl⟩
  | burn _ => exact ⟨hfinal, rfl, fun _ => rfl⟩
  | donate _ => exact ⟨hfinal, rfl, fun _ => rfl⟩
  | seize _ => exact ⟨hfinal, rfl, fun _ => rfl⟩
  | redeem _ _ _ _ _ _ _ _ _ =>
    refine ⟨?_, Series.finalSupply_setRedeemed .., fun _ => Series.pool_setRedeemed ..⟩
    rw [Series.phase_setRedeemed]
    exact hfinal
  | recombine _ phase _ _ _ _ _ => exact absurd hfinal phase
  | deposit _ phase _ _ _ _ _ _ _ => cases hfinal.symm.trans phase
  | record phase _ _ _ _ _ _ _ _ => cases hfinal.symm.trans phase
  | begin phase _ _ _ => cases hfinal.symm.trans phase
  | accumulate phase _ _ _ _ _ _ _ => cases hfinal.symm.trans phase
  | complete phase _ _ _ _ _ => cases hfinal.symm.trans phase
  | abort phase _ => cases hfinal.symm.trans phase

end Redeemable

/-- The redeemed counter of a side counts the redemptions of that side. -/
theorem Books.Step.redeemedNominal {host : Host} {k : Pubkey} {b b' : Books} {c : Change}
    (hstep : b.Step host k c b') (side : RedeemSide) :
    (b'.series.redeemedNominal side).toNat =
      (b.series.redeemedNominal side).toNat + c.redeemed side := by
  cases hstep with
  | @redeem side' amount payout redeemed paid v supply vault _ _ _ _ hr _ _ _ _ =>
    rw [Series.redeemedNominal_setRedeemed, Change.redeemed]
    by_cases hside : side = side'
    · rw [if_pos hside, if_pos hside.symm, hr, hside]
    · rw [if_neg hside, if_neg (Ne.symm hside), Nat.add_zero]
  | record _ _ _ _ _ _ counted _ _ =>
    obtain ⟨_, _, _, _, _, -, -, -, -, -, rfl⟩ := updateCounters_eq_ok.mp counted
    cases side <;> rfl
  | _ => cases side <;> rfl

/-! ## Whole histories -/

namespace World

variable {host : Host} {w₀ w w' : World} {k : Pubkey} {s : Series} {b : Books}
  {tr tr' : List Action}

/-- After every history the counters of redemption are in order and count the redemptions. -/
theorem History.redeemable (h : History host w₀ tr w) (hb : w.books k = some b) :
    Redeemable b.series ∧
      ∀ side, (b.series.redeemedNominal side).toNat = redeemedInTotal k side tr := by
  refine h.rec_books hb (P := fun tr _ b => Redeemable b.series ∧
    ∀ side, (b.series.redeemedNominal side).toNat = redeemedInTotal k side tr) ?_ ?_
  · intro tr a w w' b _ _ _ hfresh hsilent _
    refine ⟨Redeemable.fresh hfresh, fun side => ?_⟩
    have hzero : redeemedInTotal k side (tr ++ [a]) = 0 := by
      refine List.sum_eq_zero fun n hn => ?_
      obtain ⟨a', ha', rfl⟩ := List.mem_map.mp hn
      exact (hsilent a' ha').redeemed side
    obtain ⟨assetKey, asset, year, start, maturity, mintKey, profile, hs⟩ := hfresh.series
    rw [hzero, hs]
    cases side <;> rfl
  · rintro tr w a w' b c b' _ _ ⟨hred, htotal⟩ _ _ hstep hlabels
    refine ⟨hred.step hstep, fun side => ?_⟩
    rw [hstep.redeemedNominal side, htotal side, redeemedInTotal_snoc, hlabels.redeemed side]

/-- A run from a finalized series leaves pools and supply alone. -/
theorem final_of_run (hl : w.Linked) (hb : w.books k = some b)
    (hfinal : b.series.phase = .finalized)
    (hrun : Run (act host) w tr' w') {b' : Books} (hb' : w'.books k = some b') :
    b'.series.phase = .finalized ∧ b'.series.finalSupply = b.series.finalSupply ∧
      ∀ side, b'.series.pool side = b.series.pool side := by
  refine rec_books_from hl hb hrun hb' (P := fun _ b' => b'.series.phase = .finalized ∧
    b'.series.finalSupply = b.series.finalSupply ∧
      ∀ side, b'.series.pool side = b.series.pool side) ⟨hfinal, rfl, fun _ => rfl⟩ ?_
  rintro tr a b₁ c b₂ ⟨hf, hsupply, hpool⟩ hstep _
  obtain ⟨hf', hsupply', hpool'⟩ := Redeemable.step_final hf hstep
  exact ⟨hf', hsupply'.trans hsupply, fun side => (hpool' side).trans (hpool side)⟩

/-- **A redemption pays** what `redemption_payout` says, out of the vault and to the holder. -/
theorem redeem_pays {acc : RedeemAccounts} {side : RedeemSide} {amount : UInt64} {allowZero : Bool}
    {guard : Guard} (hx : redeem host w acc side amount allowZero guard = .ok w') :
    ∃ s payout, w.series acc.series = some s ∧ s.phase = .finalized ∧ 0 < amount ∧
      redemptionPayout (s.redeemedNominal side) amount (s.pool side) s.finalSupply = .ok payout ∧
      w'.bank.balance s.vault + payout.toNat = w.bank.balance s.vault ∧
      w'.bank.balance acc.holderCollateral = w.bank.balance acc.holderCollateral
        + payout.toNat := by
  obtain ⟨L, payout, hL, hp, b₁, b₂, h₁, h₂, redeemed, paid, v, -, -, -, rfl⟩ := redeem_eq_ok.mp hx
  have m₁ := Host.invoke_burn h₁
  have hdistinct := hp.distinct
  simp only [List.nodup_cons, List.mem_cons, List.not_mem_nil, or_false, not_or] at hdistinct
  obtain ⟨⟨hclaim, hclaimVault⟩, hcollateral, -⟩ := hdistinct
  refine ⟨L.series, payout, hL.series, hp.phase, hp.positive, hp.priced, ?_⟩
  rw [← hp.accounts.vault]
  change b₂.balance _ + _ = _ ∧ b₂.balance _ = _
  rw [← m₁.others acc.vault (Ne.symm hclaimVault),
    ← m₁.others acc.holderCollateral (Ne.symm hclaim)]
  split at h₂
  · have m₂ := Host.invoke_transfer h₂
    exact ⟨m₂.debited (Ne.symm hcollateral), m₂.credited (Ne.symm hcollateral)⟩
  · rename_i hzero
    rw [Result.pure_eq_ok] at h₂
    subst h₂
    have h0 : payout.toNat = 0 := by
      rw [UInt64.lt_iff_toNat_lt] at hzero
      exact Nat.eq_zero_of_not_pos hzero
    rw [h0]
    exact ⟨rfl, rfl⟩

/-- A sequence of redemptions pays what one redemption of the sum pays. -/
theorem redeemInOrder_eq_sum {pool supply before : UInt64} {amounts : List UInt64} {total : Nat}
    (hs : supply ≠ 0) (hbefore : before.toNat ≤ supply.toNat) :
    redeemInOrder pool supply before amounts = .ok total ↔
      ∃ sum payout : UInt64, sum.toNat = (amounts.map UInt64.toNat).sum ∧
        redemptionPayout before sum pool supply = .ok payout ∧ payout.toNat = total := by
  rw [redeemInOrder_eq_ok hs hbefore]
  refine ⟨?_, ?_⟩
  · rintro ⟨hle, rfl⟩
    have hfit : (amounts.map UInt64.toNat).sum < 2 ^ 64 := by
      have := supply.toNat_lt
      omega
    obtain ⟨sum, hsum⟩ : ∃ sum : UInt64, sum.toNat = (amounts.map UInt64.toNat).sum :=
      ⟨UInt64.ofNat _, UInt64.toNat_ofNat_of_lt hfit⟩
    rw [← hsum] at hle
    obtain ⟨payout, hpayout⟩ := @exists_redemptionPayout before sum pool supply hle
    refine ⟨sum, payout, hsum, hpayout, ?_⟩
    rw [((redemptionPayout_eq_ok hs).mp hpayout).2, hsum]
  · rintro ⟨sum, payout, hsum, hpayout, rfl⟩
    rw [← hsum]
    exact (redemptionPayout_eq_ok hs).mp hpayout

/-- **Redemption telescopes.** After any history with a finalized series, on each side: the paid
counter is the floor of the redeemed share of the pool, at most the pool, and all of it exactly when
all claims are in; a single redemption pays within one unit of its exact share; a sequence pays what
its sum pays; whatever happens next, paid counter and later payouts depend on this side's redeemed
total alone; and the payout function has no failure of its own. -/
theorem redemption_telescopes (h : History host w₀ tr w) (hs : w.series k = some s)
    (hfinal : s.phase = .finalized) (hsupply : 0 < s.finalSupply) (side : RedeemSide) :
    (s.paid side).toNat =
      redeemedInTotal k side tr * (s.pool side).toNat / s.finalSupply.toNat ∧
    s.paid side ≤ s.pool side ∧
    (0 < s.pool side →
      (s.paid side = s.pool side ↔ redeemedInTotal k side tr = s.finalSupply.toNat)) ∧
    (∀ acc amount allowZero guard w', acc.series = k →
      redeem host w acc side amount allowZero guard = .ok w' → ∃ payout : UInt64,
        w'.bank.balance s.vault + payout.toNat = w.bank.balance s.vault ∧
        w'.bank.balance acc.holderCollateral =
          w.bank.balance acc.holderCollateral + payout.toNat ∧
        |(payout.toNat : ℚ) -
          (amount.toNat : ℚ) * (s.pool side).toNat / s.finalSupply.toNat| < 1) ∧
    (∀ amounts total, redeemInOrder (s.pool side) s.finalSupply (s.redeemedNominal side) amounts =
      .ok total ↔ ∃ sum payout : UInt64, sum.toNat = (amounts.map UInt64.toNat).sum ∧
        redemptionPayout (s.redeemedNominal side) sum (s.pool side) s.finalSupply = .ok payout ∧
        payout.toNat = total) ∧
    (∀ tr' w', Run (act host) w tr' w' → ∃ s', w'.series k = some s' ∧
      (s'.paid side).toNat = (redeemedInTotal k side tr + redeemedInTotal k side tr') *
        (s.pool side).toNat / s.finalSupply.toNat ∧
      ∀ before amount : UInt64,
        before.toNat = redeemedInTotal k side tr + redeemedInTotal k side tr' →
        redemptionPayout (s'.redeemedNominal side) amount (s'.pool side) s'.finalSupply =
          redemptionPayout before amount (s.pool side) s.finalSupply) ∧
    ∀ before amount pool supply : UInt64,
      redemptionPayout before amount pool supply ≠ .error .panic ∧
      (before.toNat + amount.toNat ≤ supply.toNat →
        ∃ payout, redemptionPayout before amount pool supply = .ok payout) := by
  have hl := h.linked
  obtain ⟨b, hb, rfl⟩ := hl.exists_books hs
  obtain ⟨hred, htotal⟩ := h.redeemable hb
  have hne : b.series.finalSupply ≠ 0 := fun h0 => by
    rw [h0] at hsupply; exact absurd hsupply (by decide)
  have hpos : 0 < b.series.finalSupply.toNat := UInt64.lt_iff_toNat_lt.mp hsupply
  have hwithin := hred.within side hfinal
  have hpaid := hred.telescoped side hfinal
  have hle := cumulative_le hwithin (b.series.pool side).toNat
  refine ⟨by rw [hpaid, htotal side]; rfl, ?_, ?_, ?_, ?_, ?_, ?_⟩
  · rw [UInt64.le_iff_toNat_le, hpaid]
    exact hle
  · intro hpool
    rw [← UInt64.toNat_inj, hpaid, cumulative_eq_pool_iff hpos (UInt64.lt_iff_toNat_lt.mp hpool)
      hwithin, htotal side]
  · rintro acc amount allowZero guard w' rfl hx
    obtain ⟨s, payout, hs', -, -, hpayout, hvault, hholder⟩ := redeem_pays hx
    cases hs.symm.trans hs'
    refine ⟨payout, hvault, hholder, ?_⟩
    rw [((redemptionPayout_eq_ok hne).mp hpayout).2]
    exact cumulative_sub_near hpos _ _ _
  · intro amounts total
    exact redeemInOrder_eq_sum hne hwithin
  · intro tr' w' hrun
    -- Pool and supply are fixed by now, so what follows depends on the redeemed total alone.
    have h' := h.append hrun
    obtain ⟨b', hb'⟩ := books_of_run hl hb hrun
    obtain ⟨hred', htotal'⟩ := h'.redeemable hb'
    obtain ⟨hfinal', hsupply', hpool'⟩ := final_of_run hl hb hfinal hrun hb'
    have hsum : (b'.series.redeemedNominal side).toNat =
        redeemedInTotal k side tr + redeemedInTotal k side tr' := by
      rw [htotal' side, redeemedInTotal, List.map_append, List.sum_append]
      rfl
    refine ⟨_, books_series hb', ?_, fun before amount hbefore => ?_⟩
    · rw [hred'.telescoped side hfinal', hsum, hsupply', hpool' side]
      rfl
    · rw [hpool' side, hsupply', UInt64.toNat_inj.mp (hsum.trans hbefore.symm)]
  · intro before amount pool supply
    refine ⟨fun he => ?_, exists_redemptionPayout⟩
    rcases (redemptionPayout_eq_error he).2 with hpanic | hpanic <;> cases hpanic

/-- In the sample seven principal claims were redeemed from a pool of 79200 for 99000 claims. -/
theorem redemption_telescopes_sample : ∃ s, (Sample.world 18).series Sample.seriesKey = some s ∧
    s.phase = .finalized ∧ s.finalSupply = 99000 ∧ s.ptPool = 79200 ∧
    s.ptPaid.toNat = 7 * 79200 / 99000 := by
  obtain ⟨s, hs, hfacts⟩ := @Sample.series_of_any 18
    (fun s => decide (s.phase = .finalized ∧ s.finalSupply = 99000 ∧ s.ptPool = 79200))
    (by decide +kernel)
  obtain ⟨hfinal, hsupply, hpool⟩ := of_decide_eq_true hfacts
  refine ⟨s, hs, hfinal, hsupply, hpool, ?_⟩
  have hpaid := (redemption_telescopes (Sample.history 18) hs hfinal
    (by rw [hsupply]; decide) .pt).1
  have htotal : redeemedInTotal Sample.seriesKey .pt (Sample.actions.take 18) = 7 := by
    decide +kernel
  rw [htotal, hsupply] at hpaid
  change s.ptPaid.toNat = 7 * s.ptPool.toNat / _ at hpaid
  rw [hpool] at hpaid
  exact hpaid

end World

end DividendX
