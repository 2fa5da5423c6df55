import DividendX.Sdk.DemoBooks

/-!
# The calls of the demo keep its books

One lemma for every call that returns a receipt: either it throws and has changed nothing, or its
receipt tells what it has changed and the books are kept (`Posted`). What a deposit and a
recombination check about the collateral they leave behind is what makes a later settlement succeed.
-/

namespace DividendX

namespace Demo

open Method

variable {catalog : Catalog} {initial s s' : DemoState} {c : Client} {id seriesId : String}
  {series : DemoSeries}

/-! ## What the checks say -/

/-- An amount that is read is not negative. -/
theorem toRawAmount_nonneg {display multiplier : String} {decimals raw : Int}
    (h : toRawAmount display decimals multiplier = .ok raw) : 0 ≤ raw := by
  simp only [toRawAmount, Result.bind_eq_ok, Result.exists_unit, Result.pure_eq_ok,
    assertRaw_eq_ok] at h
  obtain ⟨-, -, _, -, _, -, _, -, _, -, ⟨hraw, -⟩, rfl⟩ := h
  exact hraw

/-- The asset and the event a client finds name each other. -/
theorem Catalog.Sound.requireAssetEvent (hcatalog : catalog.Sound) {assetId : String}
    {found : AssetDescriptor × EventDescriptor}
    (h : Demo.requireAssetEvent catalog assetId = .ok found) :
    catalog.Pinned found.1 found.2 ∧ found.2.assetId = assetId := by
  simp only [Demo.requireAssetEvent, Result.bind_eq_ok, Result.okOr_eq_ok, Result.pure_eq_ok] at h
  obtain ⟨asset, hasset, eventId, heventId, event, hevent, rfl⟩ := h
  obtain ⟨hfound, -⟩ := Option.filter_eq_some_iff.mp heventId
  obtain ⟨asset', event', hpinned, rfl, rfl⟩ := hcatalog assetId eventId hfound
  rw [hpinned.assetKnown] at hasset
  rw [hpinned.eventKnown] at hevent
  cases hasset
  cases hevent
  exact ⟨hpinned, rfl⟩

/-- What is previewed is for a pinned asset and event, and not negative. -/
theorem preview_eq_ok {assetId stockAmount : String} {allocation : AllocationPreview}
    (h : preview catalog assetId stockAmount = .ok allocation) :
    ∃ found, requireAssetEvent catalog assetId = .ok found ∧ allocation.eventId = found.2.id
      ∧ 0 ≤ allocation.collateralRaw := by
  simp only [preview, Result.bind_eq_ok, Result.pure_eq_ok] at h
  obtain ⟨found, hfound, raw, hraw, _, -, rfl⟩ := h
  exact ⟨found, hfound, rfl, toRawAmount_nonneg hraw⟩

/-- The series is there, in one of the phases. -/
theorem inPhase_eq_ok {found : Option DemoSeries} {phases : List SeriesPhase} {message : String}
    (h : inPhase found phases message = .ok series) : found = some series
    ∧ series.phase ∈ phases := by
  rw [inPhase, Result.okOr_eq_ok, Option.filter_eq_some_iff] at h
  exact ⟨h.1, of_decide_eq_true h.2⟩

/-- A series in a phase is one of the state, not an inherited value. -/
theorem requireSeries_eq_ok (h : requireSeries s seriesId = .ok (some series)) :
    s.series.get? seriesId = some series := by
  rw [requireSeries] at h
  split at h
  · rename_i found hfound
    cases h
    exact hfound
  · split at h
    · cases h
    · cases h

/-- There is no series yet, or it is open. -/
theorem depositSeries_eq_ok {existing : Option DemoSeries} (h : depositSeries s id = .ok existing) :
    s.series.get? id = existing ∧ ∀ series ∈ existing, series.phase = .open := by
  rw [depositSeries] at h
  split at h
  · rename_i series hseries
    simp only [Result.bind_eq_ok, Result.exists_unit, Result.pure_eq_ok, demand_eq_ok] at h
    obtain ⟨hphase, rfl⟩ := h
    refine ⟨hseries, fun series' hmem => ?_⟩
    cases hmem
    exact hphase
  · rename_i hnone
    simp only [Result.bind_eq_ok, Result.exists_unit, Result.pure_eq_ok] at h
    obtain ⟨-, rfl⟩ := h
    exact ⟨hnone, fun series hmem => nomatch hmem⟩

/-! ## Deposits -/

/-- The series a deposit adds to, new or not. -/
structure Depositable (s : DemoState) (event : EventDescriptor) (series : DemoSeries) : Prop where
  id_eq : series.id = event.id
  event_eq : series.eventId = event.id
  asset_eq : series.assetId = event.assetId
  phase : series.phase = .open
  supply : ∀ side, series.supply side = series.accountedCollateralRaw
  burned : ∀ side, series.cumulativeBurned side = 0
  held : ∀ side, series.supply side =
    s.balance (.claims .seller event.id side) + s.balance (.claims .buyer event.id side)
  accounted : s.balance (.accounted event.id) = series.accountedCollateralRaw
  locked : ∀ {s' : DemoState} {series' : DemoSeries}, s'.series = s.series.set event.id series' →
    series'.assetId = event.assetId → ∀ assetId, s'.locked assetId = s.locked assetId +
      if event.assetId = assetId then series'.accountedCollateralRaw - series.accountedCollateralRaw
      else 0

/-- The series that takes a deposit, new or not. -/
theorem Books.depositable (h : Books catalog initial s) {asset : AssetDescriptor}
    {event : EventDescriptor} {existing : Option DemoSeries} (hpinned : catalog.Pinned asset event)
    (hexisting : depositSeries s event.id = .ok existing) :
    Depositable s event (existing.getD (.fresh event.id event.assetId))
      ∧ (existing.map DemoSeries.accountedCollateralRaw).getD 0 =
        (existing.getD (.fresh event.id event.assetId)).accountedCollateralRaw := by
  obtain ⟨hget, hphase⟩ := depositSeries_eq_ok hexisting
  cases existing with
  | none =>
    have hzero := h.unissued hget
    refine ⟨⟨rfl, rfl, rfl, rfl, fun side => ?_, fun side => ?_, fun side => ?_, ?_, ?_⟩, rfl⟩
    · cases side <;> rfl
    · cases side <;> rfl
    · rw [hzero, hzero]
      cases side <;> rfl
    · simp [DemoState.balance, DemoState.accountedOf, hget, DemoSeries.fresh]
    · intro s' series' hseries hasset assetId
      rw [DemoState.locked_set_fresh hget hseries, hasset]
      simp [DemoSeries.fresh]
  | some series =>
    obtain ⟨hid, hevent, ⟨asset', event', hpinned', heventId, hassetId, hstands⟩, hsupply⟩ :=
      h.series hget
    have hpaired := hstands.paired (.inl (hphase series rfl))
    -- the event under the key is the one the series was made for
    have hsame : event' = event := by
      have hknown := hpinned'.eventKnown
      rw [heventId, hpinned.eventKnown] at hknown
      exact (Option.some.inj hknown).symm
    subst hsame
    refine ⟨⟨hid, hevent, hassetId.symm, hphase series rfl, hpaired.supply, hpaired.burned, hsupply,
      ?_, ?_⟩, rfl⟩
    · simp [DemoState.balance, DemoState.accountedOf, hget]
    · intro s' series' hseries hasset assetId
      rw [DemoState.locked_set hget hseries (hasset.trans hassetId), hassetId]
      rfl

/-- The state after the assignments of a deposit. -/
def DemoState.deposited (s : DemoState) (event : EventDescriptor) (series : DemoSeries) (x : Int) :
    DemoState :=
  ((s.setCollateral .seller event.assetId (s.collateralOf .seller event.assetId - x)).setClaims
    .seller
    series.id ⟨(s.claimsFor .seller event.id).pt + x,
      (s.claimsFor .seller event.id).dr + x⟩).setSeries
    event.id { series with
      accountedCollateralRaw := series.accountedCollateralRaw + x
      ptSupplyRaw := series.ptSupplyRaw + x
      drSupplyRaw := series.drSupplyRaw + x }

section Deposited

variable {asset : AssetDescriptor} {event : EventDescriptor} {x : Int}

/-- **A deposit** keeps the books. -/
theorem Depositable.books (hseries : Depositable s event series) (h : Books catalog initial s)
    (hpinned : catalog.Pinned asset event) (hx : 0 < x)
    (hsettles : ∃ pools, allocate (series.accountedCollateralRaw + x) event.m0 event.m1 = .ok pools
      ∧ pools.drPoolRaw ≠ 0) :
    Books catalog initial (s.deposited event series x) := by
  have hclaims : ∀ walletId j side, (s.deposited event series x).balance (.claims walletId j side) =
      s.balance (.claims walletId j side) + if walletId = .seller ∧ j = event.id then x else 0 := by
    intro walletId j side
    rw [DemoState.deposited, hseries.id_eq]
    by_cases hown : walletId = .seller ∧ j = event.id
    · obtain ⟨rfl, rfl⟩ := hown
      cases side <;> simp
    · have hother : ∀ other, Balance.claims walletId j side ≠ .claims .seller event.id other := by
        intro other heq
        cases heq
        exact hown ⟨rfl, rfl⟩
      simp [hother, hown]
  have hnonneg := h.nonneg
  have haccounted : 0 ≤ series.accountedCollateralRaw := by
    have hseller := hnonneg .seller event.id .pt
    have hbuyer := hnonneg .buyer event.id .pt
    have hheld := hseries.held .pt
    have hsupply := hseries.supply .pt
    omega
  have hkept : Kept catalog (s.deposited event series x) event.id { series with
      accountedCollateralRaw := series.accountedCollateralRaw + x
      ptSupplyRaw := series.ptSupplyRaw + x
      drSupplyRaw := series.drSupplyRaw + x } := by
    refine ⟨hseries.id_eq, hseries.event_eq,
      ⟨asset, event, hpinned, rfl, hseries.asset_eq.symm, ?_⟩, fun side => ?_⟩
    · simp only [DemoSeries.Stands, hseries.phase]
      have hsupply := hseries.supply
      have hburned := hseries.burned
      refine ⟨fun side => ?_, fun side => ?_, ?_, hsettles⟩
      · specialize hsupply side
        cases side <;> simp only [DemoSeries.supply] at hsupply ⊢ <;> omega
      · specialize hburned side
        cases side <;> exact hburned
      · dsimp only
        omega
    · have hheld := hseries.held side
      rw [hclaims, hclaims]
      cases side <;> simp [DemoSeries.supply] at hheld ⊢ <;> omega
  refine h.change hkept (fun j => ?_) (fun walletId j side hj => ?_) (fun walletId side => ?_)
    (fun assetId => ?_) ?_
  · simp [DemoState.deposited]
  · rw [hclaims, if_neg fun hown => hj hown.2, add_zero]
  · have hold := hnonneg walletId event.id side
    rw [hclaims]
    split <;> omega
  · -- what leaves the wallet is what the series accounts for
    have hlocked := @hseries.locked (s.deposited event series x) _ rfl hseries.asset_eq assetId
    rw [DemoState.totalOf, hlocked]
    by_cases ha : event.assetId = assetId
    · subst ha
      simp [DemoState.deposited, DemoState.totalOf]
      omega
    · simp [DemoState.deposited, DemoState.totalOf, ha, Ne.symm ha]
  · simp [DemoState.deposited, DemoState.totalUsdc]

/-- Its changes are what it did. -/
theorem Depositable.explains (hseries : Depositable s event series) :
    Explains
      [{ walletId := some .seller, assetId := some event.assetId, field := .collateral,
         delta := -x },
       { walletId := some .seller, seriesId := some series.id, field := .pt, delta := x },
       { walletId := some .seller, seriesId := some series.id, field := .dr, delta := x },
       { seriesId := some series.id, field := .accountedCollateral, delta := x }]
      s (s.deposited event series x) := by
  have haccounted := hseries.accounted
  constructor
  · intro change hmem
    simp only [List.mem_cons, List.not_mem_nil, or_false] at hmem
    rcases hmem with rfl | rfl | rfl | rfl
    · exact ⟨.collateral .seller event.assetId, rfl, by simp [DemoState.deposited]⟩
    · refine ⟨.claims .seller series.id .pt, rfl, ?_⟩
      simp [DemoState.deposited, hseries.id_eq]
    · refine ⟨.claims .seller series.id .dr, rfl, ?_⟩
      simp [DemoState.deposited, hseries.id_eq]
    · refine ⟨.accounted series.id, rfl, ?_⟩
      simp [DemoState.deposited, hseries.id_eq, haccounted]
  · intro b hb
    simp [AmountChange.balance?, hseries.id_eq] at hb
    simp [DemoState.deposited, hseries.id_eq, hb]

end Deposited

/-- `deposit` posts a deposit, or throws before it does anything. -/
theorem deposit_settles (hcatalog : catalog.Sound) (h : Books catalog initial c.state)
    {assetId stockAmount : String} {now : Int} :
    Settles c (deposit catalog assetId stockAmount now) c fun r c' =>
      Posted catalog initial c r c' := by
  refine .this (.check fun _ _ => .check fun allocation hallocation => .check fun _ hnonzero =>
    .check fun _ _ => .check fun existing hexisting => .check fun _ _ => .check fun found hfound =>
    .check fun pools hpools => .check fun _ hdividend => .check fun _ hnextPt =>
      .check fun _ hnextDr =>
    .assign (.assign (.assign ((Moved.settles ?_ _ _ _ _).mono fun _ _ hposted => hposted.1))))
  obtain ⟨found', hfound', heventId, hraw⟩ := preview_eq_ok hallocation
  rw [hfound] at hfound'
  cases hfound'
  obtain ⟨hpinned, rfl⟩ := hcatalog.requireAssetEvent hfound
  rw [heventId] at hexisting ⊢
  obtain ⟨hseries, hcurrent⟩ := h.depositable hpinned hexisting
  rw [hcurrent] at hpools ⊢
  rw [demand_eq_ok] at hdividend hnonzero
  refine ⟨?_, ?_, rfl, rfl, rfl, rfl, fun hget => hget⟩
  · exact hseries.books h hpinned (by omega) ⟨pools, hpools, hdividend⟩
  · exact hseries.explains

/-! ## Sales -/

/-- The state after the assignments of a sale. -/
def DemoState.sold (s : DemoState) (quote : SaleQuote) : DemoState :=
  (((s.setClaims .seller quote.seriesId { s.claimsFor .seller quote.seriesId with
      dr := (s.claimsFor .seller quote.seriesId).dr - quote.drRaw }).setClaims .buyer quote.seriesId
    { s.claimsFor .buyer quote.seriesId with
      dr := (s.claimsFor .buyer quote.seriesId).dr + quote.drRaw }).setUsdc .buyer
    (s.wallets.buyer.usdc - quote.usdcTotalRaw)).setUsdc .seller
    (s.wallets.seller.usdc + quote.usdcTotalRaw)

/-- The changes of a sale. -/
def SaleQuote.changes (quote : SaleQuote) : List AmountChange :=
  [{ walletId := some .seller, seriesId := some quote.seriesId, field := .dr,
     delta := -quote.drRaw },
   { walletId := some .buyer, seriesId := some quote.seriesId, field := .dr, delta := quote.drRaw },
   { walletId := some .buyer, field := .usdc, delta := -quote.usdcTotalRaw },
   { walletId := some .seller, field := .usdc, delta := quote.usdcTotalRaw }]

/-- The changes of a quote are what its sale did. -/
theorem explains_sold (quote : SaleQuote) : Explains quote.changes s (s.sold quote) := by
  constructor
  · intro change hmem
    simp only [SaleQuote.changes, List.mem_cons, List.not_mem_nil, or_false] at hmem
    rcases hmem with rfl | rfl | rfl | rfl
    · exact ⟨.claims .seller quote.seriesId .dr, rfl, by simp [DemoState.sold]⟩
    · exact ⟨.claims .buyer quote.seriesId .dr, rfl, by simp [DemoState.sold]⟩
    · exact ⟨.usdc .buyer, rfl, by simp [DemoState.sold]⟩
    · exact ⟨.usdc .seller, rfl, by simp [DemoState.sold]⟩
  · intro b hb
    simp [SaleQuote.changes, AmountChange.balance?] at hb
    -- the principal claims are written back as they were
    by_cases hseller : b = .claims .seller quote.seriesId .pt
    · subst hseller
      simp [DemoState.sold]
    · by_cases hbuyer : b = .claims .buyer quote.seriesId .pt
      · subst hbuyer
        simp [DemoState.sold]
      · simp [DemoState.sold, hb, hseller, hbuyer]

/-- What one wallet gives of a claim the other takes. -/
theorem Books.sold (h : Books catalog initial s) {quote : SaleQuote}
    (hget : s.series.get? quote.seriesId = some series)
    (hseller : quote.drRaw ≤ s.balance (.claims .seller quote.seriesId .dr))
    (hbuyer : 0 ≤ s.balance (.claims .buyer quote.seriesId .dr) + quote.drRaw) :
    Books catalog initial (s.sold quote) := by
  have hkept : Kept catalog (s.sold quote) quote.seriesId series := by
    obtain ⟨hid, hevent, hpinned, hsupply⟩ := h.series hget
    refine ⟨hid, hevent, hpinned, fun side => ?_⟩
    rw [hsupply side]
    cases side with
    | pt => simp [DemoState.sold]
    | dr =>
      simp [DemoState.sold]
  refine h.change hkept (fun j => ?_) (fun walletId j side hj => ?_) (fun walletId side => ?_)
    (fun assetId => ?_) ?_
  · split
    · rename_i hj
      rw [hj]
      exact hget
    · rfl
  · simp [DemoState.sold, hj]
  · have hold := h.nonneg walletId quote.seriesId side
    cases walletId <;> cases side <;> simp [DemoState.sold] at hold ⊢ <;> omega
  · simp [DemoState.totalOf, DemoState.sold, DemoState.locked]
  · simp [DemoState.totalUsdc, DemoState.sold]

/-- A quote is taken: it is dropped, and the sale is the one that was quoted. -/
structure Sold (c : Client) (quoteId : String) (now : Int) (quote : SaleQuote) (r : DemoReceipt)
    (c' : Client) : Prop where
  quoted : c.quotes.get? quoteId = some quote
  fresh : now < quote.expiresAt
  version : quote.version = c.state.version
  changes : r.changes = quote.changes
  spent : c'.quotes.get? quoteId = none

/-- `acceptSale` posts the sale of the quote, or throws before it does anything. -/
theorem acceptSale_settles (h : Books catalog initial c.state) {quoteId : String}
    {now stamp : Int} :
    Settles c (acceptSale quoteId false now stamp) c fun r c' =>
      Posted catalog initial c r c' ∧ ∃ quote, Sold c quoteId now quote r c' := by
  refine .this (.check fun _ _ => .check fun quote hquote => .check fun _ _ =>
      .check fun _ hfresh =>
    .check fun _ hversion => .check fun found hfound => .check fun series hphase =>
    .check fun _ hseller => .check fun _ _ => .check fun _ hbuyer => .check fun _ _ =>
    .assign (.assign (.assign (.assign (.assign ((Moved.settles ?_ _ _ _ _).mono
      fun r c' hposted => ⟨hposted.1, quote, ?_⟩))))))
  · obtain ⟨rfl, -⟩ := inPhase_eq_ok hphase
    rw [demand_eq_ok] at hseller
    rw [assertRaw_eq_ok] at hbuyer
    refine ⟨?_, explains_sold quote, rfl, rfl, rfl, rfl, fun {id q} hget => ?_⟩
    · exact h.sold (requireSeries_eq_ok hfound) (not_lt.mp hseller) hbuyer.1
    · simp only [Client.dropQuote, Client.update, Record.get?_filter] at hget
      exact (Option.filter_eq_some_iff.mp hget).1
  · obtain ⟨-, -, hchanges, hquotes, -⟩ := hposted
    rw [Result.okOr_eq_ok] at hquote
    rw [demand_eq_ok] at hfresh hversion
    refine ⟨hquote, not_le.mp hfresh, hversion, hchanges, ?_⟩
    rw [hquotes]
    simp [Client.dropQuote]

/-! ## Cutoff and settlement -/

theorem DemoState.balance_accounted (hget : s.series.get? id = some series) :
    s.balance (.accounted id) = series.accountedCollateralRaw := by
  simp [DemoState.balance, DemoState.accountedOf, hget]

/-- A series is written back with the collateral it had: no balance differs. -/
theorem explains_setSeries {series' : DemoSeries} (hget : s.series.get? id = some series)
    (haccounted : series'.accountedCollateralRaw = series.accountedCollateralRaw) :
    Explains [] s (s.setSeries id series') := by
  refine ⟨fun change hmem => absurd hmem List.not_mem_nil, fun b _ => ?_⟩
  rw [DemoState.balance_setSeries]
  split
  · rename_i hb
    rw [hb, DemoState.balance_accounted hget, haccounted]
  · rfl

/-- A series moves on, with the claims and the collateral it had. -/
theorem Books.setSeries (h : Books catalog initial s) {series' : DemoSeries}
    (hget : s.series.get? id = some series) (hid : series'.id = series.id)
    (hasset : series'.assetId = series.assetId) (hevent : series'.eventId = series.eventId)
    (haccounted : series'.accountedCollateralRaw = series.accountedCollateralRaw)
    (hsupply : ∀ side, series'.supply side = series.supply side)
    (hstands : ∀ event, series.Stands event → series'.Stands event) :
    Books catalog initial (s.setSeries id series') := by
  obtain ⟨hid', hevent', ⟨asset, event, hpinned, heventId, hassetId, hold⟩, hheld⟩ := h.series hget
  have hkept : Kept catalog (s.setSeries id series') id series' := by
    refine ⟨hid.trans hid', hevent.trans hevent', ⟨asset, event, hpinned, heventId, ?_, ?_⟩,
      fun side => ?_⟩
    · exact hassetId.trans hasset.symm
    · exact hstands event hold
    · rw [hsupply side, hheld side]
      simp
  refine h.change hkept (fun j => ?_) (fun walletId j side hj => ?_) (fun walletId side => ?_)
    (fun assetId => ?_) ?_
  · simp
  · simp
  · simp [h.nonneg]
  · rw [DemoState.totalOf, DemoState.locked_set hget rfl hasset, haccounted]
    simp [DemoState.totalOf]
  · simp [DemoState.totalUsdc]

/-- `closeDeposits` moves no balance. -/
theorem closeDeposits_settles (h : Books catalog initial c.state) {now : Int} :
    Settles c (closeDeposits seriesId now) c fun r c' => Posted catalog initial c r c' := by
  refine .this (.check fun found hfound => .check fun series hphase =>
    .assign ((Moved.settles ?_ _ _ _ _).mono fun _ _ hposted => hposted.1))
  obtain ⟨rfl, hopen⟩ := inPhase_eq_ok hphase
  have hget := requireSeries_eq_ok hfound
  refine ⟨?_, explains_setSeries hget rfl, rfl, rfl, rfl, rfl, fun hget => hget⟩
  refine h.setSeries hget rfl rfl rfl rfl (fun side => ?_) fun event hstands => ?_
  · cases side <;> rfl
  · obtain ⟨hsupply, hburned, hpos, hsettles⟩ := hstands.paired (.inl (List.mem_singleton.mp hopen))
    exact ⟨hsupply, hburned, hpos, hsettles⟩

/-- A paired series that takes the pools of its collateral is frozen. -/
theorem DemoSeries.Paired.frozen {event : EventDescriptor} (h : series.Paired event) {pools : Pools}
    {m0 m1 : String} (hpools : allocate series.accountedCollateralRaw m0 m1 = .ok pools) :
    DemoSeries.Frozen { series with
      originalSupplyRaw := series.accountedCollateralRaw
      originalPtPoolRaw := pools.ptPoolRaw
      originalDrPoolRaw := pools.drPoolRaw
      ptPoolRaw := pools.ptPoolRaw
      drPoolRaw := pools.drPoolRaw
      phase := .settled } := by
  obtain ⟨hpt, hdr, hsum⟩ := allocate_splits hpools
  have hburned := h.burned
  have hsupply := h.supply
  refine ⟨h.pos, fun side => ?_, fun side => (hburned side).ge, fun side => ?_,
    fun side => ?_, hsum⟩
  · cases side
    · exact hpt
    · exact hdr
  · have hclaims : series.cumulativeBurned side + series.supply side
        = series.accountedCollateralRaw := by
      rw [hburned, hsupply, zero_add]
    exact hclaims
  · specialize hburned side
    cases side <;> simp only [DemoSeries.cumulativeBurned] at hburned <;>
      simp [DemoSeries.pool, DemoSeries.originalPool, DemoSeries.cumulativeBurned, hburned]

/-- `settle` splits the collateral of a series and moves no balance of a wallet. -/
theorem settle_settles (h : Books catalog initial c.state) {now : Int} :
    Settles c (settle catalog seriesId now) c fun r c' => Posted catalog initial c r c' := by
  refine .this (.check fun _ _ => .check fun found hfound => .check fun _ _ =>
    .check fun series hphase => .check fun event hevent => .check fun asset hasset =>
    .check fun _ _ => .check fun pools hpools => .check fun _ _ => .check fun _ _ =>
    .assign ((Moved.settles ?_ _ _ _ _).mono fun _ _ hposted => hposted.1))
  obtain ⟨rfl, hclosed⟩ := inPhase_eq_ok hphase
  have hget := requireSeries_eq_ok hfound
  refine ⟨?_, explains_setSeries hget rfl, rfl, rfl, rfl, rfl, fun hget => hget⟩
  refine h.setSeries hget rfl rfl rfl rfl (fun side => ?_) fun event hstands => ?_
  · cases side <;> rfl
  · exact (hstands.paired (.inr (List.mem_singleton.mp hclosed))).frozen hpools

/-- **A closed series can be settled** whenever the condition is ready. -/
theorem settle_returns (h : Books catalog initial c.state)
    (hget : c.state.series.get? id = some series)
    (hclosed : series.phase = .closed) (hready : c.state.condition = .ready) (now : Int) :
    Returns (settle catalog id now) c fun _ c' =>
      ∃ settled, c'.state.series.get? id = some settled ∧ settled.phase = .settled := by
  obtain ⟨-, hevent, ⟨asset, event, hpinned, heventId, hassetId, hstands⟩, -⟩ := h.series hget
  obtain ⟨hsupply, -, -, pools, hpools, hdividend⟩ := hstands.paired (.inr hclosed)
  have hknownEvent : catalog.events.get? series.eventId = some event := by
    rw [hevent, ← heventId]
    exact hpinned.eventKnown
  have hknownAsset : catalog.assets.get? series.assetId = some asset := by
    rw [← hassetId]
    exact hpinned.assetKnown
  have hpin : asset.eventFixtureId = some series.eventId := by
    rw [hevent, ← heventId]
    exact hpinned.pin
  refine .this (.pass (b := ()) ?_ ?_)
  · simp [requireReady, hready, Result.bind_eq_ok]
  refine .pass (b := some series) ?_ (.pass (b := ()) ?_ (.pass (b := series) ?_ ?_))
  · simp [requireSeries, hget]
  · simp [hclosed]
  · simp [inPhase, hclosed]
  -- the fixture the series was made for is still the one it names
  refine .pass (b := event) ?_ (.pass (b := asset) ?_ (.pass (b := ()) ?_ ?_))
  · rw [hknownEvent]
    rfl
  · rw [hknownAsset]
    rfl
  · exact demand_eq_ok.mpr ⟨hpin, hassetId⟩
  refine .pass hpools (.pass (b := ()) ?_ (.pass (b := ()) ?_ ?_))
  · exact demand_eq_ok.mpr hdividend
  · exact demand_eq_ok.mpr ⟨hsupply .pt, hsupply .dr⟩
  refine .assign (.assign (.assign (.this (.assign (.pure ?_)))))
  exact ⟨_, (Record.get?_set _ _ _ _).trans (if_pos rfl), rfl⟩

/-! ## Recombination -/

/-- What comes back to a wallet the series accounts for no longer. -/
theorem DemoState.totalOf_released (walletId : WalletId) {series' : DemoSeries} {x : Int}
    (hget : s.series.get? id = some series) (hseries : s'.series = s.series.set id series')
    (hasset : series'.assetId = series.assetId)
    (haccounted : series'.accountedCollateralRaw = series.accountedCollateralRaw - x)
    (hcollateral : ∀ other assetId, s'.balance (.collateral other assetId) =
      s.balance (.collateral other assetId) +
        if other = walletId ∧ assetId = series.assetId then x else 0) (assetId : String) :
    s'.totalOf assetId = s.totalOf assetId := by
  rw [DemoState.totalOf, DemoState.totalOf, hcollateral, hcollateral,
    DemoState.locked_set hget hseries hasset, haccounted]
  by_cases ha : assetId = series.assetId
  · subst ha
    cases walletId <;> simp <;> omega
  · simp [ha, Ne.symm ha]

/-- The state after the assignments of a recombination. -/
def DemoState.recombined (s : DemoState) (id : String) (walletId : WalletId) (series : DemoSeries)
    (x : Int) : DemoState :=
  ((s.setClaims walletId id ⟨(s.claimsFor walletId id).pt - x,
    (s.claimsFor walletId id).dr - x⟩).setCollateral
    walletId series.assetId (s.collateralOf walletId series.assetId + x)).setSeries id { series with
      ptSupplyRaw := series.ptSupplyRaw - x
      drSupplyRaw := series.drSupplyRaw - x
      accountedCollateralRaw := series.accountedCollateralRaw - x
      phase := if series.accountedCollateralRaw - x = 0 then .cancelled else series.phase }

section Recombined

variable {walletId : WalletId} {x : Int}

/-- The changes of a recombination are what it did. -/
theorem explains_recombined (hget : s.series.get? id = some series) :
    Explains
      [{ walletId := some walletId, seriesId := some id, field := .pt, delta := -x },
       { walletId := some walletId, seriesId := some id, field := .dr, delta := -x },
       { walletId := some walletId, assetId := some series.assetId,
         field := .collateral, delta := x },
       { seriesId := some id, field := .accountedCollateral, delta := -x }]
      s (s.recombined id walletId series x) := by
  have haccounted := DemoState.balance_accounted hget
  constructor
  · intro change hmem
    simp only [List.mem_cons, List.not_mem_nil, or_false] at hmem
    rcases hmem with rfl | rfl | rfl | rfl
    · exact ⟨.claims walletId id .pt, rfl, by simp [DemoState.recombined]⟩
    · exact ⟨.claims walletId id .dr, rfl, by simp [DemoState.recombined]⟩
    · exact ⟨.collateral walletId series.assetId, rfl, by simp [DemoState.recombined]⟩
    · exact ⟨.accounted id, rfl, by simp [DemoState.recombined, haccounted]⟩
  · intro b hb
    simp [AmountChange.balance?] at hb
    simp [DemoState.recombined, hb]

/-- **A recombination** keeps the books. -/
theorem Books.recombined (h : Books catalog initial s) (hget : s.series.get? id = some series)
    (hphase : series.phase = .open ∨ series.phase = .closed)
    (hpt : x ≤ s.balance (.claims walletId id .pt)) (hdr : x ≤ s.balance (.claims walletId id .dr))
    (hsettles : 0 < series.accountedCollateralRaw - x →
      settleable catalog series (series.accountedCollateralRaw - x) = .ok ()) :
    Books catalog initial (s.recombined id walletId series x) := by
  obtain ⟨hid, hevent, ⟨asset, event, hpinned, heventId, hassetId, hstands⟩, hheld⟩ := h.series hget
  have hpaired := hstands.paired hphase
  have hclaims : ∀ other j side, (s.recombined id walletId series x).balance
      (.claims other j side) =
      s.balance (.claims other j side) - if other = walletId ∧ j = id then x else 0 := by
    intro other j side
    by_cases hown : other = walletId ∧ j = id
    · obtain ⟨rfl, rfl⟩ := hown
      cases side <;> simp [DemoState.recombined]
    · have hother : ∀ side', Balance.claims other j side ≠ .claims walletId id side' := by
        intro side' heq
        cases heq
        exact hown ⟨rfl, rfl⟩
      simp [DemoState.recombined, hother, hown]
  -- The claims given back are held, so the series accounts for them.
  have hle : x ≤ series.accountedCollateralRaw := by
    have hclaim := h.claims_le hget walletId .pt
    have hsupply := hpaired.supply .pt
    omega
  have hkept : Kept catalog (s.recombined id walletId series x) id { series with
      ptSupplyRaw := series.ptSupplyRaw - x
      drSupplyRaw := series.drSupplyRaw - x
      accountedCollateralRaw := series.accountedCollateralRaw - x
      phase := if series.accountedCollateralRaw - x = 0 then .cancelled else series.phase } := by
    refine ⟨hid, hevent, ⟨asset, event, hpinned, heventId, hassetId, ?_⟩, fun side => ?_⟩
    · by_cases hzero : series.accountedCollateralRaw - x = 0
      · simp [DemoSeries.Stands, hzero]
      · -- what is left was checked to give a dividend
        have hsettleable := hsettles (by omega)
        simp only [settleable, Result.bind_eq_ok, Result.okOr_eq_ok, demand_eq_ok] at hsettleable
        obtain ⟨event', hevent', pools, hpools, hdividend⟩ := hsettleable
        rw [hevent, ← heventId, hpinned.eventKnown] at hevent'
        cases hevent'
        have hnext : DemoSeries.Paired { series with
            ptSupplyRaw := series.ptSupplyRaw - x
            drSupplyRaw := series.drSupplyRaw - x
            accountedCollateralRaw := series.accountedCollateralRaw - x } event := by
          refine ⟨fun side => ?_, hpaired.burned, ?_, pools, hpools, hdividend⟩
          · have hsupply := hpaired.supply side
            cases side <;> simp only [DemoSeries.supply] at hsupply ⊢ <;> omega
          · dsimp only
            omega
        obtain ⟨hsupply, hburned, hpos, hsettles⟩ := hnext
        simp only [DemoSeries.Stands, if_neg hzero]
        rcases hphase with hphase | hphase
        · rw [hphase]
          exact ⟨hsupply, hburned, hpos, hsettles⟩
        · rw [hphase]
          exact ⟨hsupply, hburned, hpos, hsettles⟩
    · have hheld := hheld side
      rw [hclaims, hclaims]
      cases side <;> cases walletId <;> simp [DemoSeries.supply] at hheld ⊢ <;> omega
  refine h.change hkept (fun j => ?_) (fun other j side hj => ?_) (fun other side => ?_) ?_ ?_
  · simp [DemoState.recombined]
  · rw [hclaims, if_neg fun hown => hj hown.2, sub_zero]
  · have hold := h.nonneg other id side
    rw [hclaims]
    split
    · rename_i hown
      rw [hown.1]
      cases side <;> omega
    · omega
  · refine DemoState.totalOf_released walletId hget rfl rfl rfl fun other assetId => ?_
    by_cases hown : other = walletId ∧ assetId = series.assetId
    · obtain ⟨rfl, rfl⟩ := hown
      simp [DemoState.recombined]
    · have hother : Balance.collateral other assetId ≠ .collateral walletId series.assetId := by
        intro heq
        cases heq
        exact hown ⟨rfl, rfl⟩
      simp [DemoState.recombined, hother, hown]
  · simp [DemoState.recombined, DemoState.totalUsdc]

end Recombined

/-- `recombine` posts a recombination, or throws before it does anything. -/
theorem recombine_settles (h : Books catalog initial c.state) {walletId : WalletId}
    {claimRaw now : Int} :
    Settles c (recombine catalog seriesId walletId claimRaw now) c fun r c' =>
      Posted catalog initial c r c' := by
  refine .this (.check fun _ _ => .check fun _ _ => .check fun found hfound =>
    .check fun series hphase => .check fun _ henough => .check fun _ _ => .check fun _ hsettles =>
    .assign (.assign (.assign ((Moved.settles ?_ _ _ _ _).mono fun _ _ hposted => hposted.1))))
  obtain ⟨rfl, hpaired⟩ := inPhase_eq_ok hphase
  have hget := requireSeries_eq_ok hfound
  rw [demand_eq_ok, not_or, not_lt, not_lt] at henough
  rw [Result.checkWhen_eq_ok] at hsettles
  refine ⟨?_, explains_recombined hget, rfl, rfl, rfl, rfl, fun hget => hget⟩
  exact h.recombined hget (by simpa using hpaired) henough.1 henough.2 hsettles

/-! ## Redemption -/

namespace DemoSeries

variable (series) (side other : ClaimSide) (x payout : Int)

theorem supply_redeemed : (series.redeemed side x payout).supply other =
    series.supply other - if other = side then x else 0 := by
  cases side <;> cases other <;> simp [redeemed, supply]

theorem pool_redeemed : (series.redeemed side x payout).pool other =
    series.pool other - if other = side then payout else 0 := by
  cases side <;> cases other <;> simp [redeemed, pool]

theorem cumulativeBurned_redeemed : (series.redeemed side x payout).cumulativeBurned other =
    series.cumulativeBurned other + if other = side then x else 0 := by
  cases side <;> cases other <;> simp [redeemed, cumulativeBurned]

theorem originalPool_redeemed :
    (series.redeemed side x payout).originalPool other = series.originalPool other := by
  cases side <;> cases other <;> rfl

theorem originalSupplyRaw_redeemed :
    (series.redeemed side x payout).originalSupplyRaw = series.originalSupplyRaw := by
  cases side <;> rfl

theorem accountedCollateralRaw_redeemed : (series.redeemed side x payout).accountedCollateralRaw =
    series.accountedCollateralRaw - payout := by
  cases side <;> rfl

variable {series side x payout}

/-- **A redemption** pays what the floor of the burned share has grown by. -/
theorem Frozen.redeemed (h : series.Frozen) (hx : 0 < x)
    (hpayout : payout = (series.cumulativeBurned side + x) * series.originalPool side
        / series.originalSupplyRaw
      - series.cumulativeBurned side * series.originalPool side / series.originalSupplyRaw) :
    (series.redeemed side x payout).Frozen := by
  refine ⟨?_, fun other => ?_, fun other => ?_, fun other => ?_, fun other => ?_, ?_⟩
  · rw [originalSupplyRaw_redeemed]
    exact h.pos
  · rw [originalPool_redeemed]
    exact h.nonneg other
  · have hburned := h.burned other
    rw [cumulativeBurned_redeemed]
    split <;> omega
  · have hclaims := h.claims other
    rw [cumulativeBurned_redeemed, supply_redeemed, originalSupplyRaw_redeemed]
    omega
  · have hpool := h.pool other
    rw [pool_redeemed, cumulativeBurned_redeemed, originalPool_redeemed, originalSupplyRaw_redeemed]
    by_cases hside : other = side
    · subst hside
      simp only [if_true]
      omega
    · simp only [hside, if_false, sub_zero, add_zero]
      exact hpool
  · have haccounted := h.accounted
    rw [pool_redeemed, pool_redeemed, accountedCollateralRaw_redeemed]
    cases side <;> simp <;> omega

/-- A series that is completed is frozen. -/
theorem Frozen.completed (h : series.Frozen) : series.completed.Frozen := by
  rw [DemoSeries.completed]
  split
  · exact ⟨h.pos, h.nonneg, h.burned, h.claims, h.pool, h.accounted⟩
  · exact h

/-- The last redemption completes a series; nothing else of it changes. -/
theorem completed_fields (series : DemoSeries) : series.completed.id = series.id
    ∧ series.completed.assetId = series.assetId ∧ series.completed.eventId = series.eventId
    ∧ series.completed.accountedCollateralRaw = series.accountedCollateralRaw
    ∧ series.completed.supply = series.supply
    ∧ (series.completed.phase = series.phase ∨ series.completed.phase = .complete) := by
  rw [DemoSeries.completed]
  split
  · refine ⟨rfl, rfl, rfl, rfl, ?_, .inr rfl⟩
    funext side
    cases side <;> rfl
  · exact ⟨rfl, rfl, rfl, rfl, rfl, .inl rfl⟩

/-- A redemption leaves alone what a series is of. -/
theorem redeemed_fields (series : DemoSeries) (side : ClaimSide) (x payout : Int) :
    (series.redeemed side x payout).id = series.id
    ∧ (series.redeemed side x payout).assetId = series.assetId
    ∧ (series.redeemed side x payout).eventId = series.eventId
    ∧ (series.redeemed side x payout).phase = series.phase := by
  cases side <;> exact ⟨rfl, rfl, rfl, rfl⟩

end DemoSeries

/-- What is paid for a redemption, of a settled series. -/
theorem previewRedemption_eq_ok {walletId : WalletId} {side : ClaimSide} {claimRaw payout : Int}
    (h : previewRedemption s seriesId walletId side claimRaw = .ok payout) :
    0 < claimRaw ∧ ∃ series, s.series.get? seriesId = some series ∧ series.phase = .settled
      ∧ claimRaw ≤ s.balance (.claims walletId seriesId side)
      ∧ payout = ((series.cumulativeBurned side + claimRaw) * series.originalPool side).tdiv
          series.originalSupplyRaw
        - (series.cumulativeBurned side * series.originalPool side).tdiv
          series.originalSupplyRaw := by
  simp only [previewRedemption, Result.bind_eq_ok, Result.exists_unit, Result.pure_eq_ok,
    demand_eq_ok, assertRaw_pos, quotient_eq_ok] at h
  obtain ⟨⟨hpos, -⟩, found, hfound, series, hphase, henough, _, ⟨-, rfl⟩, _, ⟨-, rfl⟩, -, rfl⟩ := h
  obtain ⟨rfl, hsettled⟩ := inPhase_eq_ok hphase
  refine ⟨hpos, series, requireSeries_eq_ok hfound, List.mem_singleton.mp hsettled, ?_, rfl⟩
  exact not_lt.mp henough

/-- The state after the assignments of a redemption. -/
def DemoState.redeemed (s : DemoState) (id : String) (walletId : WalletId) (series : DemoSeries)
    (side : ClaimSide) (x payout : Int) : DemoState :=
  ((s.setClaims walletId id ((s.claimsFor walletId id).set side
    ((s.claimsFor walletId id).get side - x))).setCollateral walletId series.assetId
    (s.collateralOf walletId series.assetId + payout)).setSeries id
    (series.redeemed side x payout).completed

section Redeemed

variable {walletId : WalletId} {side : ClaimSide} {x payout : Int}

/-- A redemption takes the claims of one side from one wallet. -/
theorem DemoState.claims_redeemed (other : WalletId) (j : String) (side' : ClaimSide) :
    (s.redeemed id walletId series side x payout).balance (.claims other j side') =
      s.balance (.claims other j side')
        - if other = walletId ∧ j = id ∧ side' = side then x else 0 := by
  by_cases hown : other = walletId ∧ j = id
  · obtain ⟨rfl, rfl⟩ := hown
    cases side <;> cases side' <;> simp [DemoState.redeemed, ClaimBalance.set, ClaimBalance.get]
  · have hother : ∀ side'', Balance.claims other j side' ≠ .claims walletId id side'' := by
      intro side'' heq
      cases heq
      exact hown ⟨rfl, rfl⟩
    have hnot : ¬ (other = walletId ∧ j = id ∧ side' = side) := fun hall => hown ⟨hall.1, hall.2.1⟩
    simp [DemoState.redeemed, hother, hnot]

/-- The changes of a redemption are what it did. -/
theorem explains_redeemed (hget : s.series.get? id = some series) :
    Explains
      [{ walletId := some walletId, seriesId := some id, field := side.field, delta := -x },
       { walletId := some walletId, assetId := some series.assetId, field := .collateral
         delta := payout },
       { seriesId := some id, field := .accountedCollateral, delta := -payout }]
      s (s.redeemed id walletId series side x payout) := by
  have hold := DemoState.balance_accounted hget
  have haccounted : (series.redeemed side x payout).completed.accountedCollateralRaw =
      series.accountedCollateralRaw - payout := by
    rw [(DemoSeries.completed_fields _).2.2.2.1, DemoSeries.accountedCollateralRaw_redeemed]
  have hside : ∀ delta, AmountChange.balance?
      { walletId := some walletId, seriesId := some id, field := side.field, delta := delta } =
        some (.claims walletId id side) := by
    intro delta
    cases side <;> rfl
  constructor
  · intro change hmem
    simp only [List.mem_cons, List.not_mem_nil, or_false] at hmem
    rcases hmem with rfl | rfl | rfl
    · refine ⟨.claims walletId id side, hside _, ?_⟩
      rw [DemoState.claims_redeemed]
      simp
    · refine ⟨.collateral walletId series.assetId, rfl, ?_⟩
      simp [DemoState.redeemed]
    · refine ⟨.accounted id, rfl, ?_⟩
      simp [DemoState.redeemed, haccounted, hold]
  · intro b hb
    simp only [List.forall_mem_cons, hside, ne_eq, Option.some.injEq] at hb
    obtain ⟨hclaims, hrest⟩ := hb
    simp [AmountChange.balance?] at hrest
    cases b with
    | claims other j side' =>
      rw [DemoState.claims_redeemed, if_neg, sub_zero]
      rintro ⟨rfl, rfl, rfl⟩
      exact hclaims rfl
    | collateral other assetId => simp [DemoState.redeemed, hrest]
    | usdc other => simp [DemoState.redeemed]
    | accounted j => simp [DemoState.redeemed, hrest]

/-- **A redemption** keeps the books. -/
theorem Books.redeemed (h : Books catalog initial s) (hget : s.series.get? id = some series)
    (hphase : series.phase = .settled) (hx : 0 < x)
    (henough : x ≤ s.balance (.claims walletId id side))
    (hpayout : payout = ((series.cumulativeBurned side + x) * series.originalPool side).tdiv
        series.originalSupplyRaw
      - (series.cumulativeBurned side * series.originalPool side).tdiv series.originalSupplyRaw) :
    Books catalog initial (s.redeemed id walletId series side x payout) := by
  obtain ⟨hid, hevent, ⟨asset, event, hpinned, heventId, hassetId, hstands⟩, hheld⟩ := h.series hget
  have hfrozen := hstands.frozen (.inl hphase)
  have hburned := hfrozen.burned side
  have hpool := hfrozen.nonneg side
  rw [Int.tdiv_eq_ediv_of_nonneg (mul_nonneg (by omega) hpool),
    Int.tdiv_eq_ediv_of_nonneg (mul_nonneg hburned hpool)] at hpayout
  -- A last redemption completes the series, which stays frozen all the same.
  have hnext := (hfrozen.redeemed hx hpayout).completed
  obtain ⟨hid', hassetId', heventId', haccounted, hsupply, hphase'⟩ :=
    DemoSeries.completed_fields (series.redeemed side x payout)
  obtain ⟨hid'', hassetId'', heventId'', hphase''⟩ :=
    DemoSeries.redeemed_fields series side x payout
  rw [DemoSeries.accountedCollateralRaw_redeemed] at haccounted
  generalize hseries : (series.redeemed side x payout).completed = series' at *
  have hkept : Kept catalog (s.redeemed id walletId series side x payout) id series' := by
    refine ⟨by rw [hid', hid'', hid], by rw [heventId', heventId'', hevent],
      ⟨asset, event, hpinned, heventId, by rw [hassetId', hassetId'', hassetId], ?_⟩,
        fun side' => ?_⟩
    · rw [hphase'', hphase] at hphase'
      simp only [DemoSeries.Stands]
      rcases hphase' with hphase' | hphase'
      · rw [hphase']
        exact hnext
      · rw [hphase']
        exact hnext
    · rw [hsupply, DemoSeries.supply_redeemed, hheld side', DemoState.claims_redeemed,
        DemoState.claims_redeemed]
      cases walletId <;> simp <;> omega
  have hset : (s.redeemed id walletId series side x payout).series = s.series.set id series' := by
    simp [DemoState.redeemed, hseries]
  refine h.change hkept (fun j => ?_) (fun other j side' hj => ?_) (fun other side' => ?_) ?_ ?_
  · rw [hset, Record.get?_set]
  · rw [DemoState.claims_redeemed, if_neg fun hown => hj hown.2.1, sub_zero]
  · have hold := h.nonneg other id side'
    rw [DemoState.claims_redeemed]
    split
    · rename_i hown
      obtain ⟨rfl, -, rfl⟩ := hown
      omega
    · omega
  · refine DemoState.totalOf_released walletId hget hset (hassetId'.trans hassetId'') haccounted
      fun other assetId => ?_
    by_cases hown : other = walletId ∧ assetId = series.assetId
    · obtain ⟨rfl, rfl⟩ := hown
      simp [DemoState.redeemed]
    · have hother : Balance.collateral other assetId ≠ .collateral walletId series.assetId := by
        intro heq
        cases heq
        exact hown ⟨rfl, rfl⟩
      simp [DemoState.redeemed, hother, hown]
  · simp [DemoState.redeemed, DemoState.totalUsdc]

end Redeemed

/-- `redeem` posts a redemption, or throws before it does anything. -/
theorem redeem_settles (h : Books catalog initial c.state) {walletId : WalletId} {side : ClaimSide}
    {claimRaw now : Int} :
    Settles c (redeem seriesId walletId side claimRaw now) c fun r c' =>
      Posted catalog initial c r c' := by
  refine .this (.check fun _ _ => .check fun payout hpreview => .check fun found hfound =>
    .check fun series hseries => .check fun _ _ => .check fun _ _ =>
    .assign (.assign (.assign ((Moved.settles ?_ _ _ _ _).mono fun _ _ hposted => hposted.1))))
  rw [Result.okOr_eq_ok] at hseries
  subst hseries
  have hget := requireSeries_eq_ok hfound
  obtain ⟨hpos, series', hget', hphase, henough, hpayout⟩ := previewRedemption_eq_ok hpreview
  rw [hget] at hget'
  cases hget'
  refine ⟨?_, explains_redeemed hget, rfl, rfl, rfl, rfl, fun hget => hget⟩
  exact h.redeemed hget hphase hpos henough hpayout

end Demo

end DividendX
