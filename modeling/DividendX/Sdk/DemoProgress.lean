import DividendX.Sdk.DemoSessions
import Mathlib.Logic.Relation
import Mathlib.Tactic.Linarith

/-!
# Progress of redemptions

A redemption whose floor difference is zero is refused. Which full balances of a settled side can be
redeemed then depends on two things only: how much is left in its pool, and whether one wallet holds
all its claims. Two raw units always pay the larger holder, one pays only who holds everything. A
principal side has one holder, so it can always be emptied.
-/

namespace DividendX

namespace Demo

open Method

variable {catalog : Catalog} {initial s s' : DemoState} {c c' : Client} {id seriesId : String}
  {series : DemoSeries} {side : ClaimSide}

/-! ## What a redemption is due -/

namespace DemoSeries

/-- What the burn of `x` more claims of a side pays. -/
def due (series : DemoSeries) (side : ClaimSide) (x : Int) : Int :=
  (series.cumulativeBurned side + x) * series.originalPool side / series.originalSupplyRaw
    - series.cumulativeBurned side * series.originalPool side / series.originalSupplyRaw

namespace Frozen

/-- What is due together with what is left is the share of all burned claims. -/
theorem pool_add_due (h : series.Frozen) (side : ClaimSide) (x : Int) : series.due side x =
    series.pool side - (series.originalPool side
      - (series.cumulativeBurned side + x)
        * series.originalPool side / series.originalSupplyRaw) := by
  have hpool := h.pool side
  rw [due]
  omega

/-- The last claims take the whole pool. -/
theorem due_supply (h : series.Frozen) (side : ClaimSide) :
    series.due side (series.supply side) = series.pool side := by
  rw [h.pool_add_due, h.claims, Int.mul_ediv_cancel_left _ h.pos.ne']
  omega

/-- A pool outlasts its claims. -/
theorem pool_pos (h : series.Frozen) (hpool : 0 < series.originalPool side)
    (hsupply : 0 < series.supply side) : 0 < series.pool side := by
  have hclaims := h.claims side
  have hshare : series.cumulativeBurned side * series.originalPool side / series.originalSupplyRaw
      < series.originalPool side := by
    refine Int.ediv_lt_of_lt_mul h.pos ?_
    rw [mul_comm]
    exact mul_lt_mul_of_pos_left (by omega) hpool
  rw [h.pool]
  omega

/-- No more is due than the pool has. -/
theorem due_le_pool (h : series.Frozen) {x : Int} (hx : x ≤ series.supply side) :
    series.due side x ≤ series.pool side := by
  have hclaims := h.claims side
  have hshare : (series.cumulativeBurned side + x) * series.originalPool side
      / series.originalSupplyRaw ≤ series.originalPool side := by
    refine Int.ediv_le_of_le_mul h.pos ?_
    rw [mul_comm]
    exact mul_le_mul_of_nonneg_left (by omega) (h.nonneg side)
  rw [h.pool_add_due]
  omega

theorem due_nonneg (h : series.Frozen) (side : ClaimSide) {x : Int}
    (hx : 0 ≤ x) : 0 ≤ series.due side x := by
  have hgrows : series.cumulativeBurned side * series.originalPool side / series.originalSupplyRaw ≤
      (series.cumulativeBurned side + x) * series.originalPool side / series.originalSupplyRaw := by
    refine Int.ediv_le_ediv h.pos ?_
    exact mul_le_mul_of_nonneg_right (by omega) (h.nonneg side)
  rw [due]
  omega

/-- **Two units pay the larger half.** -/
theorem due_pos (h : series.Frozen) (htwo : 2 ≤ series.pool side) {x : Int}
    (hx : series.supply side ≤ 2 * x) : 0 < series.due side x := by
  have hclaims := h.claims side
  have hpool := h.pool side
  have hpos := h.pos
  have hnonneg := h.nonneg side
  rw [due]
  set burned := series.cumulativeBurned side
  set original := series.originalPool side
  set all := series.originalSupplyRaw
  -- at least half of what was not paid yet is the share of `x`
  have hfloor : burned * original / all * all ≤ burned * original := Int.ediv_mul_le _ hpos.ne'
  have hhalf : (burned + all) * original ≤ 2 * (burned + x) * original :=
    mul_le_mul_of_nonneg_right (by omega) hnonneg
  have hleft : (2 + burned * original / all) * all ≤ original * all :=
    mul_le_mul_of_nonneg_right (by omega) hpos.le
  have hnext : burned * original / all + 1 ≤ (burned + x) * original / all := by
    refine Int.le_ediv_of_mul_le hpos ?_
    linarith
  omega

/-- **One unit pays nobody** who does not hold all claims. -/
theorem due_eq_zero (h : series.Frozen) (hone : series.pool side ≤ 1) {x : Int}
    (hpool : 0 < series.originalPool side) (hnonneg : 0 ≤ x) (hx : x < series.supply side) :
    series.due side x = 0 := by
  have hclaims := h.claims side
  have hshare : (series.cumulativeBurned side + x) * series.originalPool side
      / series.originalSupplyRaw < series.originalPool side := by
    refine Int.ediv_lt_of_lt_mul h.pos ?_
    rw [mul_comm]
    exact mul_lt_mul_of_pos_left (by omega) hpool
  have hdue := h.due_nonneg side hnonneg
  rw [h.pool_add_due] at hdue ⊢
  omega

end Frozen

end DemoSeries

/-! ## What more holds in every session -/

/-- What its phase says about the pools of a series and what is left to redeem. -/
def DemoSeries.Solvent (series : DemoSeries) : Prop :=
  match series.phase with
  | .open | .closed => True
  | .settled => series.originalSupplyRaw ≤ U64_MAX ∧ (∀ side, 0 < series.originalPool side)
    ∧ ∃ side, 0 < series.supply side
  | .complete => ∀ side, series.supply side = 0
  | .cancelled => series.accountedCollateralRaw = 0

/-- The seller holds all principal claims, nobody owes collateral, and every series is solvent. -/
structure Standing (s : DemoState) : Prop where
  buyerPt : ∀ id, s.balance (.claims .buyer id .pt) = 0
  collateral : ∀ walletId assetId, 0 ≤ s.balance (.collateral walletId assetId)
  series : ∀ {id series}, s.series.get? id = some series → series.Solvent

/-- It is about wallets and series only. -/
theorem Standing.congr (h : Standing s) (hwallets : s'.wallets = s.wallets)
    (hseries : s'.series = s.series) : Standing s' := by
  have hbalance := DemoState.balance_congr hwallets hseries
  refine ⟨?_, ?_, fun hget => ?_⟩
  · rw [hbalance]
    exact h.buyerPt
  · rw [hbalance]
    exact h.collateral
  · rw [hseries] at hget
    exact h.series hget

/-- **One series changes**, with some balances. -/
theorem Standing.change (h : Standing s) (hsolvent : series.Solvent)
    (hseries : s'.series = s.series.set id series)
    (hbuyerPt : ∀ j, s'.balance (.claims .buyer j .pt) = 0)
    (hcollateral : ∀ walletId assetId, 0 ≤ s'.balance (.collateral walletId assetId)) :
    Standing s' := by
  refine ⟨hbuyerPt, hcollateral, fun {j series'} hget => ?_⟩
  rw [hseries, Record.get?_set] at hget
  split at hget
  · cases hget
    exact hsolvent
  · exact h.series hget

/-- The end of a call moves no balance. -/
theorem Standing.settles {s₀ c : Client} (h : Standing c.state) (action : DemoAction)
    (seriesId summary : String) (changes : List AmountChange) (now : Int) :
    Settles s₀
      (assign Client.nextVersion >>= fun _ => receipt action seriesId summary changes now) c
      fun _ c' => Standing c'.state :=
  .assign (.assign (.this (.assign (.pure (h.congr rfl rfl)))))

/-- A supply is what the wallets hold of it. -/
theorem Books.supply_nonneg (h : Books catalog initial s) (hget : s.series.get? id = some series)
    (side : ClaimSide) : 0 ≤ series.supply side := by
  have hseller := h.nonneg .seller id side
  have hle := h.claims_le hget .seller side
  omega

theorem Books.pool_nonneg (h : Books catalog initial s) (hget : s.series.get? id = some series)
    (hfrozen : series.Frozen) (side : ClaimSide) : 0 ≤ series.pool side := by
  rw [← hfrozen.due_supply]
  exact hfrozen.due_nonneg side (h.supply_nonneg hget side)

/-- No series accounts for less than nothing. -/
theorem Standing.accounted_nonneg (h : Standing s) (hbooks : Books catalog initial s)
    (hget : s.series.get? id = some series) : 0 ≤ series.accountedCollateralRaw := by
  have hsolvent := h.series hget
  obtain ⟨-, -, ⟨asset, event, -, -, -, hstands⟩, -⟩ := hbooks.series hget
  have hfrozen : series.Frozen → 0 ≤ series.accountedCollateralRaw := by
    intro hfrozen
    have hpt := hbooks.pool_nonneg hget hfrozen .pt
    have hdr := hbooks.pool_nonneg hget hfrozen .dr
    have haccounted := hfrozen.accounted
    omega
  cases hphase : series.phase with
  | «open» => exact (hstands.paired (.inl hphase)).pos.le
  | closed => exact (hstands.paired (.inr hphase)).pos.le
  | settled => exact hfrozen (hstands.frozen (.inl hphase))
  | complete => exact hfrozen (hstands.frozen (.inr hphase))
  | cancelled =>
    simp only [DemoSeries.Solvent, hphase] at hsolvent
    exact hsolvent.ge

/-- **All collateral of an asset** covers what a wallet has and a series accounts for. -/
theorem Standing.covered (h : Standing s) (hbooks : Books catalog initial s)
    (hget : s.series.get? id = some series) (walletId : WalletId) :
    s.balance (.collateral walletId series.assetId) + series.accountedCollateralRaw ≤
      initial.totalOf series.assetId := by
  have hlocked : series.accountedCollateralRaw ≤ s.locked series.assetId := by
    have hle := Record.le_sum (f := fun _ (other : DemoSeries) =>
      if other.assetId = series.assetId then other.accountedCollateralRaw else 0)
      (fun j other hother => ?_) hget
    · simpa [DemoState.locked] using hle
    · split
      · exact h.accounted_nonneg hbooks hother
      · exact le_rfl
  have htotal := hbooks.collateral series.assetId
  have hseller := h.collateral .seller series.assetId
  have hbuyer := h.collateral .buyer series.assetId
  rw [DemoState.totalOf] at htotal
  cases walletId <;> omega

/-! ## Every call keeps it -/

theorem toRawAmount_le {display multiplier : String} {decimals raw : Int}
    (h : toRawAmount display decimals multiplier = .ok raw) : raw ≤ U64_MAX := by
  simp only [toRawAmount, Result.bind_eq_ok, Result.exists_unit, Result.pure_eq_ok,
    assertRaw_eq_ok] at h
  obtain ⟨-, -, _, -, _, -, _, -, _, -, ⟨-, hraw⟩, rfl⟩ := h
  exact hraw

/-- The factors of an event leave something to the principal. -/
theorem allocate_pt_pos {raw : Int} {m0 m1 : String} {pools : Pools}
    (h : allocate raw m0 m1 = .ok pools) (hraw : 0 < raw) : 0 < pools.ptPoolRaw
    ∧ raw ≤ U64_MAX := by
  simp only [allocate, Result.bind_eq_ok, Result.exists_unit, Result.pure_eq_ok, demand_eq_ok,
    assertRaw_eq_ok, quotient_eq_ok] at h
  obtain ⟨⟨-, hle⟩, before, hbefore, after, hafter, hrise, dr, ⟨hne, hdr⟩, rfl⟩ := h
  obtain ⟨hbn, hbd⟩ := factor_pos hbefore
  obtain ⟨han, had⟩ := factor_pos hafter
  have hunit : 0 < after.numerator * before.denominator := mul_pos han hbd
  have hfall : 0 < before.numerator * after.denominator := mul_pos hbn had
  rw [Int.tdiv_eq_ediv_of_nonneg (mul_nonneg hraw.le (not_lt.mp hrise))] at hdr
  have hlt : dr < raw := by
    rw [← hdr]
    refine Int.ediv_lt_of_lt_mul hunit ?_
    exact mul_lt_mul_of_pos_left (by omega) hraw
  exact ⟨by dsimp only; omega, hle⟩

/-- A deposit keeps what stands. -/
theorem deposit_standing (h : Standing c.state) {assetId stockAmount : String}
    {now : Int} : Settles c (deposit catalog assetId stockAmount now) c fun _ c' =>
    Standing c'.state := by
  refine .this (.check fun _ _ => .check fun allocation hallocation => .check fun _ _ =>
    .check fun _ henough => .check fun existing hexisting => .check fun _ _ =>
      .check fun found hfound =>
    .check fun pools hpools => .check fun _ hdividend => .check fun _ hnextPt =>
      .check fun _ hnextDr =>
    .assign (.assign (.assign (Standing.settles ?_ _ _ _ _ _))))
  rw [demand_eq_ok, not_lt] at henough
  obtain ⟨-, hphase⟩ := depositSeries_eq_ok hexisting
  have hopen : (existing.getD (.fresh allocation.eventId assetId)).phase = .open := by
    cases existing with
    | none => rfl
    | some series => exact hphase series rfl
  refine h.change ?_ rfl (fun j => ?_) (fun walletId other => ?_)
  · simp [DemoSeries.Solvent, hopen]
  · have hbuyer := h.buyerPt j
    simpa [Client.update] using hbuyer
  · have hold := h.collateral walletId other
    simp only [Client.update, DemoState.balance_setSeries, DemoState.balance_setClaims,
      DemoState.balance_setCollateral, reduceCtorEq, if_false]
    split
    · exact sub_nonneg.mpr henough
    · exact hold

/-- So does a sale. -/
theorem acceptSale_standing (h : Standing c.state) {quoteId : String} {now stamp : Int} :
    Settles c (acceptSale quoteId false now stamp) c fun _ c' => Standing c'.state := by
  refine .this (.check fun _ _ => .check fun quote _ => .check fun _ _ => .check fun _ _ =>
    .check fun _ _ => .check fun found _ => .check fun _ _ => .check fun _ _ => .check fun _ _ =>
    .check fun _ _ => .check fun _ _ =>
    .assign (.assign (.assign (.assign (.assign (Standing.settles ?_ _ _ _ _ _))))))
  refine ⟨fun j => ?_, fun walletId assetId => ?_, fun hget => h.series hget⟩
  · have hbuyer := h.buyerPt
    by_cases hj : j = quote.seriesId
    · subst hj
      simp [Client.update, Client.dropQuote, hbuyer]
    · simp [Client.update, Client.dropQuote, hbuyer, hj]
  · have hold := h.collateral walletId assetId
    simpa [Client.update, Client.dropQuote] using hold

/-- A series moves on, with the balances there were. -/
theorem Standing.setSeries (h : Standing s) (hsolvent : series.Solvent) (id : String) :
    Standing (s.setSeries id series) := by
  refine h.change hsolvent rfl (fun j => ?_) (fun walletId assetId => ?_)
  · simpa using h.buyerPt j
  · simpa using h.collateral walletId assetId

/-- The close of the deposits keeps what stands. -/
theorem closeDeposits_standing (h : Standing c.state) {now : Int} :
    Settles c (closeDeposits seriesId now) c fun _ c' => Standing c'.state := by
  refine .this (.check fun found _ => .check fun series _ =>
    .assign (Standing.settles ?_ _ _ _ _ _))
  refine h.setSeries ?_ _
  exact trivial

/-- So does a settlement. -/
theorem settle_standing (hbooks : Books catalog initial c.state) (h : Standing c.state)
    {now : Int} :
    Settles c (settle catalog seriesId now) c fun _ c' => Standing c'.state := by
  refine .this (.check fun _ _ => .check fun found hfound => .check fun _ _ =>
    .check fun series hphase => .check fun event hevent => .check fun asset hasset =>
    .check fun _ _ => .check fun pools hpools => .check fun _ hdividend => .check fun _ hsupply =>
    .assign (Standing.settles ?_ _ _ _ _ _))
  obtain ⟨rfl, hclosed⟩ := inPhase_eq_ok hphase
  have hget := requireSeries_eq_ok hfound
  obtain ⟨-, -, ⟨asset', event', -, -, -, hstands⟩, -⟩ := hbooks.series hget
  have hpos := (hstands.paired (.inr (List.mem_singleton.mp hclosed))).pos
  obtain ⟨hpt, hle⟩ := allocate_pt_pos hpools hpos
  obtain ⟨-, hdr, -⟩ := allocate_splits hpools
  rw [demand_eq_ok] at hdividend hsupply
  refine h.setSeries ?_ _
  refine ⟨hle, fun side => ?_, .pt, ?_⟩
  · cases side with
    | pt => exact hpt
    | dr => exact lt_of_le_of_ne hdr (Ne.symm hdividend)
  · exact hsupply.1 ▸ hpos

/-- So does a recombination. -/
theorem recombine_standing (h : Standing c.state) {walletId : WalletId} {claimRaw now : Int} :
    Settles c (recombine catalog seriesId walletId claimRaw now) c fun _ c' =>
      Standing c'.state := by
  refine .this (.check fun _ _ => .check fun _ hclaim => .check fun found hfound =>
    .check fun series hphase => .check fun _ henough => .check fun _ hnext => .check fun _ _ =>
    .assign (.assign (.assign (Standing.settles ?_ _ _ _ _ _))))
  obtain ⟨-, hphase⟩ := inPhase_eq_ok hphase
  rw [assertRaw_pos] at hclaim
  rw [assertRaw_eq_ok] at hnext
  rw [demand_eq_ok, not_or, not_lt, not_lt] at henough
  refine h.change ?_ rfl (fun j => ?_) (fun other assetId => ?_)
  · by_cases hzero : series.accountedCollateralRaw - claimRaw = 0
    · simp [DemoSeries.Solvent, hzero]
    · simp only [List.mem_cons, List.not_mem_nil, or_false] at hphase
      rcases hphase with hphase | hphase
      · simp [DemoSeries.Solvent, hzero, hphase]
      · simp [DemoSeries.Solvent, hzero, hphase]
  · -- the buyer has no principal claims to recombine
    have hbuyer := h.buyerPt
    have hnot : walletId = .seller := by
      cases walletId with
      | seller => rfl
      | buyer =>
        have hpt := henough.1
        rw [DemoState.claimsFor_pt, hbuyer] at hpt
        omega
    subst hnot
    simp [Client.update, hbuyer]
  · have hold := h.collateral other assetId
    simp only [Client.update, DemoState.balance_setSeries, DemoState.balance_setClaims,
      DemoState.balance_setCollateral, reduceCtorEq, if_false]
    split
    · exact hnext.1
    · exact hold

/-! ## Redemptions -/

/-- A redemption has returned: it has paid what was due. -/
structure Redeemed (c : Client) (id : String) (walletId : WalletId) (side : ClaimSide) (x : Int)
    (series : DemoSeries) (c' : Client) : Prop where
  get : c.state.series.get? id = some series
  phase : series.phase = .settled
  pos : 0 < x
  enough : x ≤ c.state.balance (.claims walletId id side)
  pays : series.due side x ≠ 0
  balance : c'.state.balance =
    (c.state.redeemed id walletId series side x (series.due side x)).balance
  series : c'.state.series = c.state.series.set id
    (series.redeemed side x (series.due side x)).completed
  condition : c'.state.condition = c.state.condition

/-- A redemption that would pay nothing is refused. -/
theorem previewRedemption_ne_zero {walletId : WalletId} {claimRaw payout : Int}
    (h : previewRedemption s seriesId walletId side claimRaw = .ok payout) : payout ≠ 0 := by
  simp only [previewRedemption, Result.bind_eq_ok, Result.exists_unit, Result.pure_eq_ok,
    demand_eq_ok] at h
  obtain ⟨-, _, -, _, -, -, _, -, _, -, hpays, rfl⟩ := h
  exact hpays

/-- The quotients of a redemption are floors. -/
theorem DemoSeries.Frozen.due_eq (h : series.Frozen) {x : Int} (hx : 0 ≤ x) : series.due side x =
    ((series.cumulativeBurned side + x) * series.originalPool side).tdiv series.originalSupplyRaw
      - (series.cumulativeBurned side * series.originalPool side).tdiv
        series.originalSupplyRaw := by
  have hburned := h.burned side
  have hpool := h.nonneg side
  rw [Int.tdiv_eq_ediv_of_nonneg (mul_nonneg (by omega) hpool),
    Int.tdiv_eq_ediv_of_nonneg (mul_nonneg hburned hpool), due]

/-- A settled series is frozen. -/
theorem Books.frozen (h : Books catalog initial s) (hget : s.series.get? id = some series)
    (hphase : series.phase = .settled ∨ series.phase = .complete) : series.Frozen := by
  obtain ⟨-, -, ⟨_, _, -, -, -, hstands⟩, -⟩ := h.series hget
  exact hstands.frozen hphase

/-- A redemption that goes through pays what was due. -/
theorem redeem_pays (h : Books catalog initial c.state) {walletId : WalletId} {claimRaw now : Int} :
    Settles c (redeem id walletId side claimRaw now) c fun _ c' =>
      ∃ series, Redeemed c id walletId side claimRaw series c' := by
  refine .this (.check fun _ _ => .check fun payout hpreview => .check fun found hfound =>
    .check fun series hseries => .check fun _ _ => .check fun _ _ =>
    .assign (.assign (.assign (.assign (.assign (.this (.assign (.pure ⟨series, ?_⟩))))))))
  rw [Result.okOr_eq_ok] at hseries
  subst hseries
  have hget := requireSeries_eq_ok hfound
  have hpays := previewRedemption_ne_zero hpreview
  obtain ⟨hpos, series', hget', hphase, henough, hpayout⟩ := previewRedemption_eq_ok hpreview
  rw [hget] at hget'
  cases hget'
  rw [← (h.frozen hget (.inl hphase)).due_eq hpos.le] at hpayout
  subst hpayout
  exact ⟨hget, hphase, hpos, henough, hpays, DemoState.balance_congr rfl rfl, rfl, rfl⟩

/-- **A redemption that is due something** goes through, unless collateral is paused. -/
theorem redeem_returns (hbooks : Books catalog initial c.state) (h : Standing c.state)
    (hcapital : ∀ assetId, initial.totalOf assetId ≤ U64_MAX)
    (hget : c.state.series.get? id = some series) (hphase : series.phase = .settled)
    (hpaused : c.state.condition ≠ .paused) {walletId : WalletId} {x : Int} (hpos : 0 < x)
    (henough : x ≤ c.state.balance (.claims walletId id side)) (hdue : series.due side x ≠ 0)
    (now : Int) : ∃ r c', redeem id walletId side x now c = (.ok r, c') := by
  have hfrozen := hbooks.frozen hget (.inl hphase)
  have hsolvent := h.series hget
  simp only [DemoSeries.Solvent, hphase] at hsolvent
  have hsupply := henough.trans (hbooks.claims_le hget walletId side)
  have hclaims := hfrozen.claims side
  have hburned := hfrozen.burned side
  have hpool := hfrozen.due_le_pool hsupply
  have hnonneg := hfrozen.due_nonneg side hpos.le
  -- The two pools are all the series accounts for.
  have haccounted : series.pool side ≤ series.accountedCollateralRaw := by
    have hpt := hbooks.pool_nonneg hget hfrozen .pt
    have hdr := hbooks.pool_nonneg hget hfrozen .dr
    have hsum := hfrozen.accounted
    cases side <;> omega
  have hcovered := h.covered hbooks hget walletId
  have htotal := hcapital series.assetId
  have hcollateral := h.collateral walletId series.assetId
  have hpreview : previewRedemption c.state id walletId side x = .ok (series.due side x) := by
    simp only [previewRedemption, Result.bind_eq_ok, Result.exists_unit, Result.pure_eq_ok,
      demand_eq_ok, assertRaw_pos, quotient_eq_ok]
    refine ⟨⟨hpos, by omega⟩, some series, ?_, series, ?_, not_lt.mpr henough, _,
      ⟨hfrozen.pos.ne', rfl⟩, _, ⟨hfrozen.pos.ne', rfl⟩, ?_, ?_⟩
    · simp [requireSeries, hget]
    · simp [inPhase, hphase]
    · rw [← hfrozen.due_eq hpos.le]
      exact hdue
    · rw [← hfrozen.due_eq hpos.le]
  have hreturns : Returns (redeem id walletId side x now) c fun _ _ => True := by
    refine .this (.pass (b := ()) (demand_eq_ok.mpr hpaused) (.pass hpreview
      (.pass (b := some series) ?_ (.pass (b := series) rfl (.pass (b := ()) ?_
        (.pass (b := ()) ?_ (.assign (.assign (.assign (.assign (.assign (.this
          (.assign (.pure trivial))))))))))))))
    · simp [requireSeries, hget]
    · exact demand_eq_ok.mpr (not_lt.mpr hpool)
    · rw [assertRaw_eq_ok, DemoState.collateralOf_eq]
      omega
  obtain ⟨r, c', hcall, -⟩ := hreturns
  exact ⟨r, c', hcall⟩

/-! ## Runs -/

namespace Redeemed

variable {walletId : WalletId} {x : Int}

/-- It takes the claims that were redeemed. -/
theorem claims (h : Redeemed c id walletId side x series c') (other : WalletId) (j : String)
    (side' : ClaimSide) : c'.state.balance (.claims other j side') =
      c.state.balance (.claims other j side')
        - if other = walletId ∧ j = id ∧ side' = side then x else 0 := by
  rw [h.balance, DemoState.claims_redeemed]

/-- And leaves the series with less. -/
theorem get_redeemed (h : Redeemed c id walletId side x series c') : c'.state.series.get? id =
    some (series.redeemed side x (series.due side x)).completed := by
  rw [h.series, Record.get?_set, if_pos rfl]

/-- The fields of a redeemed series that its completion leaves alone. -/
theorem completed_pool (series : DemoSeries) : series.completed.pool = series.pool
    ∧ series.completed.supply = series.supply := by
  simp only [DemoSeries.completed]
  split
  · constructor
    · funext side
      cases side <;> rfl
    · funext side
      cases side <;> rfl
  · exact ⟨rfl, rfl⟩

/-- A redemption leaves a series that has claims left settled, and completes one that has none. -/
theorem solvent (h : Redeemed c id walletId side x series c')
    (hbooks : Books catalog initial c'.state)
    (hsolvent : series.Solvent) :
    (series.redeemed side x (series.due side x)).completed.Solvent := by
  have hget := h.get_redeemed
  have hsupply := hbooks.supply_nonneg hget
  rw [(completed_pool _).2] at hsupply
  simp only [DemoSeries.Solvent, h.phase] at hsolvent
  obtain ⟨hle, hpools, -⟩ := hsolvent
  set next := series.redeemed side x (series.due side x) with hnext
  have hphase : next.phase = .settled := (DemoSeries.redeemed_fields _ _ _ _).2.2.2.trans h.phase
  by_cases hzero : next.ptSupplyRaw = 0 ∧ next.drSupplyRaw = 0 ∧ next.ptPoolRaw = 0
    ∧ next.drPoolRaw = 0
  · simp only [DemoSeries.completed, if_pos hzero, DemoSeries.Solvent]
    intro side'
    cases side' with
    | pt => exact hzero.1
    | dr => exact hzero.2.1
  · have hsame : next.completed = next := by
      rw [DemoSeries.completed, if_neg hzero]
    rw [hsame] at hget ⊢
    have hfrozen := hbooks.frozen hget (.inl hphase)
    simp only [DemoSeries.Solvent, hphase]
    refine ⟨?_, fun side' => ?_, ?_⟩
    · rw [hnext, DemoSeries.originalSupplyRaw_redeemed]
      exact hle
    · rw [hnext, DemoSeries.originalPool_redeemed]
      exact hpools side'
    · -- without claims the pools would be empty too
      by_contra hnone
      push Not at hnone
      have hempty : ∀ side', next.supply side' = 0 := fun side' =>
        le_antisymm (hnone side') (hsupply side')
      have hpool : ∀ side', next.pool side' = 0 := by
        intro side'
        rw [← hfrozen.due_supply, hempty side', DemoSeries.due, add_zero, sub_self]
      exact hzero ⟨hempty .pt, hempty .dr, hpool .pt, hpool .dr⟩

/-- It keeps what stands. -/
theorem standing (h : Redeemed c id walletId side x series c')
    (hbooks : Books catalog initial c.state)
    (hbooks' : Books catalog initial c'.state) (hstanding : Standing c.state) :
    Standing c'.state := by
  have hdue := (hbooks.frozen h.get (.inl h.phase)).due_nonneg side h.pos.le
  refine hstanding.change (h.solvent hbooks' (hstanding.series h.get)) h.series (fun j => ?_)
    fun other assetId => ?_
  · have hbuyer := hstanding.buyerPt j
    have hnonneg := hbooks'.nonneg .buyer j .pt
    have hpos := h.pos
    rw [h.claims, hbuyer] at hnonneg ⊢
    split at hnonneg
    · omega
    · rename_i hother
      rw [if_neg hother, sub_zero]
  · have hold := hstanding.collateral other assetId
    rw [h.balance]
    simp only [DemoState.redeemed, DemoState.balance_setSeries, DemoState.balance_setClaims,
      DemoState.balance_setCollateral, reduceCtorEq, if_false]
    split
    · exact add_nonneg (hstanding.collateral _ _) hdue
    · exact hold

end Redeemed

/-- A redemption keeps what stands. -/
theorem redeem_standing (hbooks : Books catalog initial c.state) (h : Standing c.state)
    {walletId : WalletId} {claimRaw now : Int} :
    Settles c (redeem id walletId side claimRaw now) c fun _ c' => Standing c'.state := by
  cases hcall : redeem id walletId side claimRaw now c with
  | mk result c' =>
    simp only [Settles, hcall]
    cases result with
    | ok r =>
      obtain ⟨series, hredeemed⟩ := (redeem_pays hbooks).of_ok hcall
      exact hredeemed.standing hbooks ((redeem_settles hbooks).of_ok hcall).books h
    | error e => exact (redeem_settles hbooks).of_error hcall

/-- What a call settles on, it keeps: a throw leaves the state as it was. -/
theorem Standing.of_settles {α : Type} {m : Operate α} {f : α → Returned} (h : Standing c.state)
    (hm : Settles c m c fun _ c' => Standing c'.state) :
    Standing ((m >>= fun a => pure (f a)) c).2.state := by
  have hsettles : Settles c (m >>= fun a => pure (f a)) c fun _ c' =>
    Standing c'.state := hm.returns
  cases hcall : (m >>= fun a => pure (f a)) c with
  | mk result c' =>
    cases result with
    | ok a => exact hsettles.of_ok hcall
    | error e =>
      rw [hsettles.of_error hcall]
      exact h

/-- Calls without a receipt move no balance. -/
theorem Effect.standing {operation : Operation} {answer : Except Failure Returned}
    (heffect : Effect catalog initial c operation answer c') (hposts : operation.posts = false)
    (hsale : ∀ quoteId now stamp, operation ≠ .acceptSale quoteId false now stamp)
    (h : Standing c.state) (hfirst : Standing initial) : Standing c'.state := by
  cases heffect with
  | refused _ hstate => rwa [hstate]
  | answered => exact h
  | quoted => exact h
  | posted hposted =>
    rw [hposts] at hposted
    cases hposted
  | sold => exact absurd rfl (hsale _ _ _)
  | conditioned => exact h.congr rfl rfl
  | reset => exact hfirst

/-- **One operation** keeps what stands. -/
theorem Operation.standing (hcatalog : catalog.Sound)
    (hinitial : makeInitialState catalog = .ok initial)
    (hfirst : Standing initial) (hbooks : Books catalog initial c.state) (h : Standing c.state)
    (operation : Operation) : Standing (operation.apply catalog c).2.state := by
  have heffect := operation.effect hcatalog hinitial hbooks
  cases operation with
  | deposit assetId stockAmount now => exact h.of_settles (deposit_standing h)
  | closeDeposits seriesId now => exact h.of_settles (closeDeposits_standing h)
  | settle seriesId now => exact h.of_settles (settle_standing hbooks h)
  | redeem seriesId walletId side claimRaw now => exact h.of_settles (redeem_standing hbooks h)
  | recombine seriesId walletId claimRaw now => exact h.of_settles (recombine_standing h)
  | acceptSale quoteId reject now stamp =>
    cases reject with
    | true => exact heffect.standing rfl (by simp) h hfirst
    | false => exact h.of_settles (acceptSale_standing h)
  | getState => exact heffect.standing rfl (by simp) h hfirst
  | preview => exact heffect.standing rfl (by simp) h hfirst
  | quoteSale => exact heffect.standing rfl (by simp) h hfirst
  | previewRedemption => exact heffect.standing rfl (by simp) h hfirst
  | setCondition => exact heffect.standing rfl (by simp) h hfirst
  | reset => exact heffect.standing rfl (by simp) h hfirst

/-- What the seller is given of an asset fits in 64 bits, and the buyer has none. -/
theorem capital_initial (h : makeInitialState catalog = .ok initial) :
    Standing initial ∧ ∀ assetId, initial.totalOf assetId ≤ U64_MAX := by
  simp only [makeInitialState, Result.bind_eq_ok, Result.pure_eq_ok] at h
  obtain ⟨filled, hfilled, usdc, -, rfl⟩ := h
  have hheld : ∀ assetId,
      (0 ≤ (filled.1.get? assetId).getD 0 ∧ (filled.1.get? assetId).getD 0 ≤ U64_MAX)
      ∧ (filled.2.get? assetId).getD 0 = 0 := by
    refine Result.foldlM_prefix (P := fun _ (filled : Record String Int × Record String Int) =>
      ∀ assetId, (0 ≤ (filled.1.get? assetId).getD 0 ∧ (filled.1.get? assetId).getD 0 ≤ U64_MAX)
        ∧ (filled.2.get? assetId).getD 0 = 0) ?_ ?_ hfilled
    · intro assetId
      simp [U64_MAX]
    · intro _ asset filled filled' hold hturn assetId
      simp only [fillCollateral, Result.bind_eq_ok, Result.pure_eq_ok] at hturn
      obtain ⟨raw, hraw, rfl⟩ := hturn
      have hbounds : 0 ≤ raw ∧ raw ≤ U64_MAX := by
        simp only [initialCollateral] at hraw
        split at hraw
        · simp only [Result.bind_eq_ok] at hraw
          obtain ⟨event, -, hraw⟩ := hraw
          exact ⟨toRawAmount_nonneg hraw, toRawAmount_le hraw⟩
        · cases hraw
          decide
      simp only [Record.get?_set]
      split
      · exact ⟨hbounds, rfl⟩
      · exact hold assetId
  refine ⟨⟨fun id => rfl, fun walletId assetId => ?_, fun hget => by cases hget⟩, fun assetId => ?_⟩
  · cases walletId with
    | seller => exact (hheld assetId).1.1
    | buyer => exact (hheld assetId).2.ge
  · have hseller := (hheld assetId).1.2
    have hbuyer := (hheld assetId).2
    have htotal : (filled.1.get? assetId).getD 0 + (filled.2.get? assetId).getD 0 + 0
        ≤ U64_MAX := by
      omega
    exact htotal

/-- **Every sequence of operations** does. -/
theorem Began.standing {client₀ : Client} (h : Began catalog initial client₀)
    (operations : List Operation) : Standing (client₀.afterAll catalog operations).state := by
  induction operations using List.reverseRecOn with
  | nil =>
    rw [Client.afterAll, List.foldl_nil, h.state]
    exact (capital_initial h.made).1
  | append_singleton operations operation ih =>
    rw [Client.afterAll_concat]
    exact operation.standing h.sound h.made (capital_initial h.made).1 (h.books operations) ih

/-! ## How far redemptions get -/

/-- A wallet redeems all it has of a side. -/
def RedeemsAll (id : String) (now : Int) (c c' : Client) : Prop :=
  ∃ walletId side r,
    redeem id walletId side (c.state.balance (.claims walletId id side)) now c = (.ok r, c')

/-- Two raw units are left of a side, or one wallet holds all its claims. -/
def Payable (s : DemoState) (id : String) (series : DemoSeries) (side : ClaimSide) : Prop :=
  2 ≤ series.pool side ∨ ∃ walletId, s.balance (.claims walletId id side) = series.supply side

/-- A settled series of a session in which collateral can move. -/
structure Redeemable (catalog : Catalog) (initial : DemoState) (c : Client) (id : String)
    (series : DemoSeries) : Prop where
  books : Books catalog initial c.state
  standing : Standing c.state
  capital : ∀ assetId, initial.totalOf assetId ≤ U64_MAX
  get : c.state.series.get? id = some series
  phase : series.phase = .settled ∨ series.phase = .complete
  unpaused : c.state.condition ≠ .paused

/-- A side is as it was. -/
structure SameSide (c c' : Client) (id : String) (series series' : DemoSeries) (side : ClaimSide) :
    Prop where
  supply : series'.supply side = series.supply side
  pool : series'.pool side = series.pool side
  balance : ∀ walletId, c'.state.balance (.claims walletId id side) =
    c.state.balance (.claims walletId id side)

/-- What happens on the other side changes nothing here. -/
theorem SameSide.payable {series' : DemoSeries} (h : SameSide c c' id series series' side) :
    Payable c'.state id series' side ↔ Payable c.state id series side := by
  simp only [Payable, h.supply, h.pool, h.balance]

theorem SameSide.trans {c'' : Client} {series' series'' : DemoSeries}
    (h : SameSide c c' id series series' side) (h' : SameSide c' c'' id series' series'' side) :
    SameSide c c'' id series series'' side :=
  ⟨h'.supply.trans h.supply, h'.pool.trans h.pool, fun w => (h'.balance w).trans (h.balance w)⟩

namespace Redeemable

variable {walletId : WalletId} {x : Int}

theorem frozen (h : Redeemable catalog initial c id series) : series.Frozen :=
  h.books.frozen h.get h.phase

/-- The claims of a side are with the two wallets. -/
theorem supply_eq (h : Redeemable catalog initial c id series) (side : ClaimSide) :
    series.supply side = c.state.balance (.claims .seller id side)
      + c.state.balance (.claims .buyer id side) :=
  (h.books.series h.get).supply side

/-- A series with claims left is settled, and its pools were not empty. -/
theorem settled (h : Redeemable catalog initial c id series) (hsupply : 0 < series.supply side) :
    series.phase = .settled ∧ ∀ side, 0 < series.originalPool side := by
  have hsolvent := h.standing.series h.get
  rcases h.phase with hphase | hphase
  · simp only [DemoSeries.Solvent, hphase] at hsolvent
    exact ⟨hphase, hsolvent.2.1⟩
  · simp only [DemoSeries.Solvent, hphase] at hsolvent
    rw [hsolvent side] at hsupply
    exact absurd hsupply (lt_irrefl _)

/-- A series without claims is complete, and both pools are empty. -/
theorem complete (h : Redeemable catalog initial c id series)
    (hempty : ∀ side, series.supply side = 0) :
    series.phase = .complete ∧ ∀ side, series.pool side = 0 := by
  constructor
  · have hsolvent := h.standing.series h.get
    rcases h.phase with hphase | hphase
    · simp only [DemoSeries.Solvent, hphase] at hsolvent
      obtain ⟨-, -, side, hside⟩ := hsolvent
      rw [hempty side] at hside
      exact absurd hside (lt_irrefl _)
    · exact hphase
  · intro side
    rw [← h.frozen.due_supply, hempty side, DemoSeries.due, add_zero, sub_self]

/-- After a redemption. -/
theorem next (h : Redeemable catalog initial c id series)
    (hredeemed : Redeemed c id walletId side x series c')
    (hbooks : Books catalog initial c'.state) :
    Redeemable catalog initial c' id (series.redeemed side x (series.due side x)).completed
      ∧ (series.redeemed side x (series.due side x)).completed.supply side = series.supply side - x
      ∧ ∀ side', side' ≠ side →
        SameSide c c' id series (series.redeemed side x (series.due side x)).completed side' := by
  obtain ⟨hpool, hsupply⟩ :=
    Redeemed.completed_pool (series.redeemed side x (series.due side x))
  refine ⟨⟨hbooks, hredeemed.standing h.books hbooks h.standing, h.capital,
    hredeemed.get_redeemed, ?_, ?_⟩, ?_, fun side' hne => ⟨?_, ?_, fun other => ?_⟩⟩
  · have hphase :=
      (DemoSeries.completed_fields (series.redeemed side x (series.due side x))).2.2.2.2.2
    rw [(DemoSeries.redeemed_fields _ _ _ _).2.2.2, hredeemed.phase] at hphase
    exact hphase
  · rw [hredeemed.condition]
    exact h.unpaused
  · rw [hsupply, DemoSeries.supply_redeemed, if_pos rfl]
  · rw [hsupply, DemoSeries.supply_redeemed, if_neg hne, sub_zero]
  · rw [hpool, DemoSeries.pool_redeemed, if_neg hne, sub_zero]
  · rw [hredeemed.claims, if_neg fun hown => hne hown.2.2, sub_zero]

/-- A full balance that is due something can be redeemed, at any time. -/
theorem redeems (h : Redeemable catalog initial c id series)
    (hpos : 0 < c.state.balance (.claims walletId id side))
    (hdue : 0 < series.due side (c.state.balance (.claims walletId id side))) (now : Int) :
    ∃ r c', redeem id walletId side (c.state.balance (.claims walletId id side)) now c = (.ok r, c')
      ∧ Redeemed c id walletId side (c.state.balance (.claims walletId id side)) series c'
      ∧ Books catalog initial c'.state := by
  have hle := h.books.claims_le h.get walletId side
  have hsettled := (h.settled (hpos.trans_le hle)).1
  obtain ⟨r, c', hcall⟩ :=
    redeem_returns h.books h.standing h.capital h.get hsettled h.unpaused hpos
    le_rfl hdue.ne' now
  obtain ⟨series', hredeemed⟩ := (redeem_pays h.books).of_ok hcall
  have hget := hredeemed.get
  rw [h.get] at hget
  cases hget
  exact ⟨r, c', hcall, hredeemed, ((redeem_settles h.books).of_ok hcall).books⟩

/-- **Who can redeem.** As long as a side has claims, some full balance of it pays exactly when two
units are left or one wallet holds all claims. -/
theorem exists_due_iff (h : Redeemable catalog initial c id series)
    (hsupply : 0 < series.supply side) :
    (∃ walletId, 0 < c.state.balance (.claims walletId id side)
      ∧ 0 < series.due side (c.state.balance (.claims walletId id side)))
      ↔ Payable c.state id series side := by
  have hpools := (h.settled hsupply).2 side
  have hsum := h.supply_eq side
  constructor
  · rintro ⟨walletId, hpos, hdue⟩
    by_contra hnot
    simp only [Payable, not_or, not_le, not_exists] at hnot
    have hle := h.books.claims_le h.get walletId side
    have hne := hnot.2 walletId
    have hzero := h.frozen.due_eq_zero (by omega) hpools hpos.le (lt_of_le_of_ne hle hne)
    omega
  · rintro (htwo | ⟨walletId, hall⟩)
    · -- the larger of two balances is at least half of the supply
      have hhalf : ∃ walletId, series.supply side ≤ 2 * c.state.balance
          (.claims walletId id side) := by
        rcases le_total (c.state.balance (.claims .seller id side))
          (c.state.balance (.claims .buyer id side)) with hle | hle
        · exact ⟨.buyer, by omega⟩
        · exact ⟨.seller, by omega⟩
      obtain ⟨walletId, hhalf⟩ := hhalf
      exact ⟨walletId, by omega, h.frozen.due_pos htwo hhalf⟩
    · refine ⟨walletId, by omega, ?_⟩
      rw [hall, h.frozen.due_supply]
      exact h.frozen.pool_pos hpools hsupply

/-- Redemptions of full balances that leave no claims of a side, and the other side as it was. -/
def Emptied (catalog : Catalog) (initial : DemoState) (c : Client)
    (id : String) (series : DemoSeries)
    (side : ClaimSide) (now : Int) : Prop :=
  ∃ c' series', Relation.ReflTransGen (RedeemsAll id now) c c'
    ∧ Redeemable catalog initial c' id series'
    ∧ series'.supply side = 0 ∧ ∀ side', side' ≠ side → SameSide c c' id series series' side'

/-- A side without claims is emptied. -/
theorem emptied_of_empty (h : Redeemable catalog initial c id series) (now : Int)
    (hempty : series.supply side = 0) :
    Emptied catalog initial c id series side now :=
  ⟨c, series, .refl, h, hempty, fun _ _ => ⟨rfl, rfl, fun _ => rfl⟩⟩

/-- Who holds all claims redeems them at once. -/
theorem emptied_of_holder (h : Redeemable catalog initial c id series) (now : Int)
    (hall : c.state.balance (.claims walletId id side) = series.supply side) :
    Emptied catalog initial c id series side now := by
  have hsupply := h.books.supply_nonneg h.get side
  rcases hsupply.eq_or_lt with hzero | hpos
  · exact h.emptied_of_empty now hzero.symm
  · have hpays := h.frozen.pool_pos ((h.settled hpos).2 side) hpos
    rw [← h.frozen.due_supply, ← hall] at hpays
    obtain ⟨r, c', hcall, hredeemed, hbooks⟩ := h.redeems (hall ▸ hpos) hpays now
    obtain ⟨hnext, hleft, hsame⟩ := h.next hredeemed hbooks
    refine ⟨c', _, .single ⟨walletId, side, r, hcall⟩, hnext, ?_, hsame⟩
    rw [hleft, hall, sub_self]

/-- **A payable side can be emptied**: by its larger holder first, and by the other then. -/
theorem emptied (h : Redeemable catalog initial c id series) (now : Int)
    (hpayable : Payable c.state id series side) : Emptied catalog initial c id series side now := by
  have hsupply := h.books.supply_nonneg h.get side
  rcases hsupply.eq_or_lt with hzero | hpos
  · exact h.emptied_of_empty now hzero.symm
  · obtain ⟨walletId, hheld, hdue⟩ := (h.exists_due_iff hpos).mpr hpayable
    obtain ⟨r, c', hcall, hredeemed, hbooks⟩ := h.redeems hheld hdue now
    obtain ⟨hnext, hleft, hsame⟩ := h.next hredeemed hbooks
    have hother : ∃ other, c'.state.balance (.claims other id side) =
        (series.redeemed side (c.state.balance (.claims walletId id side))
          (series.due side (c.state.balance (.claims walletId id side)))).completed.supply
            side := by
      have hsum := h.supply_eq side
      rw [hleft]
      cases walletId with
      | seller =>
        refine ⟨.buyer, ?_⟩
        rw [hredeemed.claims]
        simp only [reduceCtorEq, false_and, if_false]
        omega
      | buyer =>
        refine ⟨.seller, ?_⟩
        rw [hredeemed.claims]
        simp only [reduceCtorEq, false_and, if_false]
        omega
    obtain ⟨other, hall⟩ := hother
    obtain ⟨c'', series'', hrun, hredeemable, hempty, hsame'⟩ := hnext.emptied_of_holder now hall
    refine ⟨c'', series'', .head ⟨walletId, side, r, hcall⟩ hrun, hredeemable, hempty, ?_⟩
    exact fun side' hne => (hsame side' hne).trans (hsame' side' hne)

/-- The seller holds the principal side. -/
theorem payable_pt (h : Redeemable catalog initial c id series) :
    Payable c.state id series .pt := by
  have hsum := h.supply_eq .pt
  have hbuyer := h.standing.buyerPt id
  exact .inr ⟨.seller, by omega⟩

/-- A dividend side that is not payable stays so, whatever full balances are redeemed. -/
theorem stuck (h : Redeemable catalog initial c id series)
    (hnot : ¬ Payable c.state id series .dr)
    (hrun : Relation.ReflTransGen (RedeemsAll id now) c c') :
    ∃ series', Redeemable catalog initial c' id series' ∧ ¬ Payable c'.state id series' .dr := by
  induction hrun with
  | refl => exact ⟨series, h, hnot⟩
  | tail _ hstep ih =>
    obtain ⟨series', h', hnot'⟩ := ih
    obtain ⟨walletId, side, r, hcall⟩ := hstep
    obtain ⟨series'', hredeemed⟩ := (redeem_pays h'.books).of_ok hcall
    have hget := hredeemed.get
    rw [h'.get] at hget
    cases hget
    obtain ⟨hnext, -, hsame⟩ := h'.next hredeemed ((redeem_settles h'.books).of_ok hcall).books
    refine ⟨_, hnext, ?_⟩
    cases side with
    | pt => rwa [(hsame .dr (by decide)).payable]
    | dr =>
      -- nobody could have redeemed dividend claims
      have hpos := hredeemed.pos
      have hdue := h'.frozen.due_nonneg .dr hpos.le
      have hsupply := hpos.trans_le (h'.books.claims_le h'.get walletId .dr)
      refine absurd ((h'.exists_due_iff hsupply).mp ⟨walletId, hpos, ?_⟩) hnot'
      exact lt_of_le_of_ne hdue (Ne.symm hredeemed.pays)

/-- **A series can be completed** by redemptions of full balances exactly when its dividend side is
payable. -/
theorem completes_iff (h : Redeemable catalog initial c id series) (now : Int) :
    (∃ c' series', Relation.ReflTransGen (RedeemsAll id now) c c'
      ∧ c'.state.series.get? id = some series' ∧ series'.phase = .complete
      ∧ ∀ side, series'.pool side = 0) ↔ Payable c.state id series .dr := by
  constructor
  · rintro ⟨c', series', hrun, hget, hcomplete, -⟩
    by_contra hnot
    obtain ⟨series'', h', hnot'⟩ := h.stuck hnot hrun
    have hsame := h'.get
    rw [hget] at hsame
    cases hsame
    have hsolvent := h'.standing.series hget
    simp only [DemoSeries.Solvent, hcomplete] at hsolvent
    have hsum := h'.supply_eq .dr
    have hseller := h'.books.nonneg .seller id .dr
    have hbuyer := h'.books.nonneg .buyer id .dr
    have hzero := hsolvent .dr
    exact hnot' (.inr ⟨.seller, by omega⟩)
  · intro hpayable
    obtain ⟨c', series', hrun, h', hpt, hsame⟩ := h.emptied now h.payable_pt
    have hdr : Payable c'.state id series' .dr := (hsame .dr (by decide)).payable.mpr hpayable
    obtain ⟨c'', series'', hrun', h'', hdrEmpty, hsame'⟩ := h'.emptied now hdr
    have hptEmpty : series''.supply .pt = 0 := (hsame' .pt (by decide)).supply.trans hpt
    obtain ⟨hcomplete, hpools⟩ := h''.complete fun side => by
      cases side with
      | pt => exact hptEmpty
      | dr => exact hdrEmpty
    exact ⟨c'', series'', hrun.trans hrun', h''.get, hcomplete, hpools⟩

end Redeemable

/-- **How far demo redemptions get.** Over any fixtures the demo accepts, after any calls, in a
settled series while collateral is not paused:

* a side that has claims has something in its pool, and some wallet can redeem its full balance of
  the side, at any time, exactly when two raw units are left in the pool or one wallet holds all
  claims of the side;
* the seller holds all principal claims;
* redemptions of full balances can complete the series, and so empty both pools, exactly when two
  raw units are left in the dividend pool or one wallet holds all dividend claims.
-/
theorem redemptions_progress {assets : List AssetDescriptor} {events : List EventDescriptor}
    {client₀ : Client} (hclient : createDemoClient assets events = .ok client₀)
    (operations : List Operation) (c : Client)
    (hc : c = client₀.afterAll (Catalog.of assets events) operations)
    {id : String} {series : DemoSeries}
    (hget : c.state.series.get? id = some series) (hsettled : series.phase = .settled)
    (hpaused : c.state.condition ≠ .paused) :
    (∀ side, 0 < series.supply side → 0 < series.pool side
      ∧ ((∃ walletId, ∀ now, ∃ r c', redeem id walletId side
          (c.state.balance (.claims walletId id side)) now c = (.ok r, c'))
        ↔ 2 ≤ series.pool side
          ∨ ∃ walletId, c.state.balance (.claims walletId id side) = series.supply side))
    ∧ c.state.balance (.claims .seller id .pt) = series.supply .pt
    ∧ ∀ now, (∃ c' series', Relation.ReflTransGen (RedeemsAll id now) c c'
        ∧ c'.state.series.get? id = some series' ∧ series'.phase = .complete
        ∧ ∀ side, series'.pool side = 0)
      ↔ 2 ≤ series.pool .dr
        ∨ ∃ walletId, c.state.balance (.claims walletId id .dr) = series.supply .dr := by
  subst hc
  have hbegan := began_of_createDemoClient hclient
  have h : Redeemable (Catalog.of assets events) client₀.state _ id series :=
    ⟨hbegan.books operations, hbegan.standing operations, (capital_initial hbegan.made).2, hget,
      .inl hsettled, hpaused⟩
  refine ⟨fun side hsupply => ⟨?_, ?_⟩, ?_, fun now => h.completes_iff now⟩
  · exact h.frozen.pool_pos ((h.settled hsupply).2 side) hsupply
  · refine Iff.trans ?_ (h.exists_due_iff hsupply)
    refine exists_congr fun walletId => ⟨fun hcall => ?_, fun ⟨hpos, hdue⟩ now => ?_⟩
    · obtain ⟨r, c', hcall⟩ := hcall 0
      obtain ⟨series', hredeemed⟩ := (redeem_pays h.books).of_ok hcall
      have hsame := hredeemed.get
      rw [hget] at hsame
      cases hsame
      have hdue := h.frozen.due_nonneg side hredeemed.pos.le
      exact ⟨hredeemed.pos, lt_of_le_of_ne hdue (Ne.symm hredeemed.pays)⟩
    · obtain ⟨r, c', hcall, -⟩ := h.redeems hpos hdue now
      exact ⟨r, c', hcall⟩
  · have hsum := h.supply_eq .pt
    have hbuyer := h.standing.buyerPt id
    omega

/-- The rehearsal can be completed from where it ends. -/
theorem redemptions_progress_sample : ∃ client₀ series,
    createDemoClient [Sample.asset] [Sample.dividend] = .ok client₀
    ∧ (client₀.afterAll (Catalog.of [Sample.asset] [Sample.dividend])
      Sample.rehearsal).state.series.get?
      Sample.dividend.id = some series ∧ series.phase = .settled
    ∧ ∃ c' series', Relation.ReflTransGen (RedeemsAll Sample.dividend.id 2000)
        (client₀.afterAll (Catalog.of [Sample.asset] [Sample.dividend]) Sample.rehearsal) c'
      ∧ c'.state.series.get? Sample.dividend.id = some series' ∧ series'.phase = .complete
      ∧ ∀ side, series'.pool side = 0 := by
  have hrun : (createDemoClient [Sample.asset] [Sample.dividend]).toOption.any (fun client₀ =>
      (client₀.afterAll (Catalog.of [Sample.asset] [Sample.dividend])
        Sample.rehearsal).state.condition
          ≠ .paused
        ∧ ((client₀.afterAll (Catalog.of [Sample.asset] [Sample.dividend])
          Sample.rehearsal).state.series.get? Sample.dividend.id).any fun series =>
            series.phase = .settled ∧ 2 ≤ series.pool .dr) = true := by
    decide +kernel
  rw [Option.any_eq_true] at hrun
  obtain ⟨client₀, hclient₀, hvalues⟩ := hrun
  obtain ⟨hpaused, hseries⟩ := of_decide_eq_true hvalues
  rw [Option.any_eq_true] at hseries
  obtain ⟨series, hget, hvalues⟩ := hseries
  obtain ⟨hsettled, htwo⟩ := of_decide_eq_true hvalues
  have hok := Result.toOption_eq_some.mp hclient₀
  exact ⟨client₀, series, hok, hget, hsettled,
    ((redemptions_progress hok Sample.rehearsal _ rfl hget hsettled hpaused).2.2 2000).mpr
      (.inl htwo)⟩

/-- A deposit of 242 raw units, of whose dividend claims half are sold. -/
def Sample.halved : List Operation :=
  [.deposit "xstocks:XsaBXg8dU5cPM6ehmVctMkVqoiRG2ZjMo1cyBJ3AykQ" "0.00000247" 1000,
    .quoteSale "xstocks-kox-2026-09-15" 121 1 1000, .acceptSale "quote-1-1" false 1001 1001,
    .closeDeposits "xstocks-kox-2026-09-15" 1003, .settle "xstocks-kox-2026-09-15" 1004]

/-- **Two halves of one raw unit.** Its pool is not empty and collateral is not paused, but neither
wallet can ever redeem its dividend claims. -/
theorem halves_cannot_redeem : ∃ client₀ c series,
    createDemoClient [Sample.asset] [Sample.dividend] = .ok client₀
    ∧ c = client₀.afterAll (Catalog.of [Sample.asset] [Sample.dividend]) Sample.halved
    ∧ c.state.condition ≠ .paused ∧ c.state.series.get? Sample.dividend.id = some series
    ∧ series.phase = .settled ∧ series.supply .dr = 242 ∧ series.pool .dr = 1
    ∧ ∀ walletId now r c', redeem Sample.dividend.id walletId .dr
      (c.state.balance (.claims walletId Sample.dividend.id .dr)) now c ≠ (.ok r, c') := by
  have hrun : (createDemoClient [Sample.asset] [Sample.dividend]).toOption.any (fun client₀ =>
      (client₀.afterAll (Catalog.of [Sample.asset] [Sample.dividend]) Sample.halved).state.condition
          ≠ .paused
        ∧ ((client₀.afterAll (Catalog.of [Sample.asset] [Sample.dividend])
          Sample.halved).state.series.get? Sample.dividend.id).any fun series =>
            series.phase = .settled ∧ series.supply .dr = 242 ∧ series.pool .dr = 1
            ∧ ∀ walletId ∈ [WalletId.seller, .buyer], series.due .dr ((client₀.afterAll
              (Catalog.of [Sample.asset] [Sample.dividend]) Sample.halved).state.balance
                (.claims walletId Sample.dividend.id .dr)) = 0) = true := by
    decide +kernel
  rw [Option.any_eq_true] at hrun
  obtain ⟨client₀, hclient₀, hvalues⟩ := hrun
  obtain ⟨hpaused, hseries⟩ := of_decide_eq_true hvalues
  rw [Option.any_eq_true] at hseries
  obtain ⟨series, hget, hvalues⟩ := hseries
  obtain ⟨hsettled, hsupply, hpool, hdue⟩ := of_decide_eq_true hvalues
  have hok := Result.toOption_eq_some.mp hclient₀
  have hbooks := (began_of_createDemoClient hok).books Sample.halved
  generalize hc : client₀.afterAll (Catalog.of [Sample.asset] [Sample.dividend]) Sample.halved = c
    at hpaused hget hdue hbooks
  refine ⟨client₀, c, series, hok, hc.symm, hpaused, hget, hsettled, hsupply, hpool,
    fun walletId now r c' hcall => ?_⟩
  obtain ⟨series', hredeemed⟩ := (redeem_pays hbooks).of_ok hcall
  have hsame := hredeemed.get
  rw [hget] at hsame
  cases hsame
  refine hredeemed.pays (hdue walletId ?_)
  cases walletId <;> simp

end Demo

end DividendX
