import DividendX.Sdk.DemoClient
import Mathlib.Tactic.Ring

/-!
# The books of the demo

What the balances of a demo state must add up to (`Books`), what a receipt says about them
(`Explains`), and that every call which returns a receipt keeps the one and tells the other
(`Posted`). A call that throws has assigned nothing by then, but for a refused quote that is
dropped.
-/

namespace DividendX

namespace Demo

open Method

/-! ## Balances -/

/-- A balance that a receipt can name. -/
inductive Balance
  | collateral (walletId : WalletId) (assetId : String)
  | usdc (walletId : WalletId)
  | claims (walletId : WalletId) (seriesId : String) (side : ClaimSide)
  | accounted (seriesId : String)
deriving DecidableEq

/-- The balance a change names. -/
def AmountChange.balance? (change : AmountChange) : Option Balance :=
  match change.field, change.walletId, change.assetId, change.seriesId with
  | .collateral, some walletId, some assetId, none => some (.collateral walletId assetId)
  | .usdc, some walletId, none, none => some (.usdc walletId)
  | .pt, some walletId, none, some seriesId => some (.claims walletId seriesId .pt)
  | .dr, some walletId, none, some seriesId => some (.claims walletId seriesId .dr)
  | .accountedCollateral, none, none, some seriesId => some (.accounted seriesId)
  | _, _, _, _ => none

namespace DemoState

/-- The accounted collateral of a series. -/
def accountedOf (s : DemoState) (seriesId : String) : Int :=
  ((s.series.get? seriesId).map DemoSeries.accountedCollateralRaw).getD 0

/-- What a balance is in a state. -/
def balance (s : DemoState) : Balance → Int
  | .collateral walletId assetId => s.collateralOf walletId assetId
  | .usdc walletId => (s.wallets.get walletId).usdc
  | .claims walletId seriesId side => (s.claimsFor walletId seriesId).get side
  | .accounted seriesId => s.accountedOf seriesId

variable (s : DemoState) (walletId : WalletId) (b : Balance)

@[simp] theorem balance_setCollateral (assetId : String) (value : Int) :
    (s.setCollateral walletId assetId value).balance b =
      if b = .collateral walletId assetId then value else s.balance b := by
  cases b with
  | collateral other assetId' =>
    by_cases hw : other = walletId
    · subst hw
      by_cases ha : assetId' = assetId
      · simp [balance, setCollateral, setWallet, collateralOf, ha]
      · simp [balance, setCollateral, setWallet, collateralOf, ha]
    · simp [balance, setCollateral, setWallet, collateralOf, hw]
  | usdc other => by_cases hw : other = walletId <;> simp [balance, setCollateral, setWallet, hw]
  | claims other _ _ =>
    by_cases hw : other = walletId <;> simp [balance, setCollateral, setWallet, claimsFor, hw]
  | accounted => rfl

@[simp] theorem balance_setUsdc (value : Int) :
    (s.setUsdc walletId value).balance b = if b = .usdc walletId then value else s.balance b := by
  cases b with
  | collateral other _ =>
    by_cases hw : other = walletId <;> simp [balance, setUsdc, setWallet, collateralOf, hw]
  | usdc other => by_cases hw : other = walletId <;> simp [balance, setUsdc, setWallet, hw]
  | claims other _ _ =>
    by_cases hw : other = walletId <;> simp [balance, setUsdc, setWallet, claimsFor, hw]
  | accounted => rfl

@[simp] theorem balance_setClaims (seriesId : String) (claims : ClaimBalance) :
    (s.setClaims walletId seriesId claims).balance b =
      if b = .claims walletId seriesId .pt then claims.pt
      else if b = .claims walletId seriesId .dr then claims.dr else s.balance b := by
  cases b with
  | collateral other _ =>
    by_cases hw : other = walletId <;> simp [balance, setClaims, setWallet, collateralOf, hw]
  | usdc other => by_cases hw : other = walletId <;> simp [balance, setClaims, setWallet, hw]
  | claims other seriesId' side =>
    by_cases hw : other = walletId
    · subst hw
      by_cases hid : seriesId' = seriesId
      · cases side <;> simp [balance, setClaims, setWallet, claimsFor, ClaimBalance.get, hid]
      · simp [balance, setClaims, setWallet, claimsFor, hid]
    · simp [balance, setClaims, setWallet, claimsFor, hw]
  | accounted => rfl

@[simp] theorem balance_setSeries (seriesId : String) (series : DemoSeries) :
    (s.setSeries seriesId series).balance b =
      if b = .accounted seriesId then series.accountedCollateralRaw else s.balance b := by
  cases b with
  | accounted other =>
    by_cases hid : other = seriesId
    · simp [balance, setSeries, accountedOf, hid]
    · simp [balance, setSeries, accountedOf, hid]
  | collateral => simp [balance, setSeries, collateralOf]
  | usdc => simp [balance, setSeries]
  | claims => simp [balance, setSeries, claimsFor]

@[simp] theorem series_setCollateral (assetId : String) (value : Int) :
    (s.setCollateral walletId assetId value).series = s.series := rfl

@[simp] theorem series_setUsdc (value : Int) : (s.setUsdc walletId value).series = s.series := rfl

@[simp] theorem series_setClaims (seriesId : String) (claims : ClaimBalance) :
    (s.setClaims walletId seriesId claims).series = s.series := rfl

@[simp] theorem series_setSeries (seriesId : String) (series : DemoSeries) :
    (s.setSeries seriesId series).series = s.series.set seriesId series := rfl

@[simp] theorem collateralOf_eq (assetId : String) :
    s.collateralOf walletId assetId = s.balance (.collateral walletId assetId) := rfl

@[simp] theorem claimsFor_get (seriesId : String) (side : ClaimSide) :
    (s.claimsFor walletId seriesId).get side = s.balance (.claims walletId seriesId side) := rfl

@[simp] theorem claimsFor_pt (seriesId : String) :
    (s.claimsFor walletId seriesId).pt = s.balance (.claims walletId seriesId .pt) := rfl

@[simp] theorem claimsFor_dr (seriesId : String) :
    (s.claimsFor walletId seriesId).dr = s.balance (.claims walletId seriesId .dr) := rfl

@[simp] theorem seller_usdc : s.wallets.seller.usdc = s.balance (.usdc .seller) := rfl

@[simp] theorem buyer_usdc : s.wallets.buyer.usdc = s.balance (.usdc .buyer) := rfl

/-- Balances depend on wallets and series alone. -/
theorem balance_congr {s s' : DemoState} (hwallets : s'.wallets = s.wallets)
    (hseries : s'.series = s.series) : s'.balance = s.balance := by
  funext b
  cases b with
  | collateral walletId assetId => simp only [balance, collateralOf, hwallets]
  | usdc walletId => simp only [balance, hwallets]
  | claims walletId seriesId side => simp only [balance, claimsFor, hwallets]
  | accounted seriesId => simp only [balance, accountedOf, hseries]

/-! ## Totals -/

/-- What the series of an asset account for. -/
def locked (s : DemoState) (assetId : String) : Int :=
  s.series.sum fun _ series =>
    if series.assetId = assetId then series.accountedCollateralRaw else 0

/-- All collateral of an asset: in the wallets, and accounted for by its series. -/
def totalOf (s : DemoState) (assetId : String) : Int :=
  s.balance (.collateral .seller assetId) + s.balance (.collateral .buyer assetId)
    + s.locked assetId

/-- All test USDC. -/
def totalUsdc (s : DemoState) : Int := s.balance (.usdc .seller) + s.balance (.usdc .buyer)

variable {s}

/-- A new series locks what it has accounted. -/
theorem locked_set_fresh {s' : DemoState} {id : String} {series : DemoSeries}
    (hnone : s.series.get? id = none) (hseries : s'.series = s.series.set id series)
    (assetId : String) : s'.locked assetId = s.locked assetId +
      if series.assetId = assetId then series.accountedCollateralRaw else 0 := by
  simp only [locked, hseries]
  exact Record.sum_set_fresh hnone

/-- A series that is replaced locks what it now has accounted. -/
theorem locked_set {s' : DemoState} {id : String} {old series : DemoSeries}
    (hold : s.series.get? id = some old) (hseries : s'.series = s.series.set id series)
    (hasset : series.assetId = old.assetId) (assetId : String) :
    s'.locked assetId = s.locked assetId + if old.assetId = assetId then
      series.accountedCollateralRaw - old.accountedCollateralRaw else 0 := by
  have hset := Record.sum_set (v := series) (f := fun _ (series : DemoSeries) =>
    if series.assetId = assetId then series.accountedCollateralRaw else 0) hold
  simp only [locked, hseries]
  rw [hasset] at hset
  split
  · rename_i heq
    simp only [heq, if_true] at hset
    omega
  · rename_i hne
    simp only [hne, if_false] at hset
    omega

end DemoState

/-! ## The invariant -/

/-- A series before settlement: claims come in pairs, one for every unit of collateral, and the
collateral can be allocated with a dividend. -/
structure DemoSeries.Paired (series : DemoSeries) (event : EventDescriptor) : Prop where
  supply : ∀ side, series.supply side = series.accountedCollateralRaw
  burned : ∀ side, series.cumulativeBurned side = 0
  pos : 0 < series.accountedCollateralRaw
  settles : ∃ pools, allocate series.accountedCollateralRaw event.m0 event.m1 = .ok pools
    ∧ pools.drPoolRaw ≠ 0

/-- A series from settlement on: each pool has paid the floor of the burned share. -/
structure DemoSeries.Frozen (series : DemoSeries) : Prop where
  pos : 0 < series.originalSupplyRaw
  nonneg : ∀ side, 0 ≤ series.originalPool side
  burned : ∀ side, 0 ≤ series.cumulativeBurned side
  claims : ∀ side, series.cumulativeBurned side + series.supply side = series.originalSupplyRaw
  pool : ∀ side, series.pool side = series.originalPool side
    - series.cumulativeBurned side * series.originalPool side / series.originalSupplyRaw
  accounted : series.pool .pt + series.pool .dr = series.accountedCollateralRaw

/-- What its phase says about a series. -/
def DemoSeries.Stands (series : DemoSeries) (event : EventDescriptor) : Prop :=
  match series.phase with
  | .open | .closed => series.Paired event
  | .settled | .complete => series.Frozen
  | .cancelled => True

/-- A series of the state: it is the one of its event, wallets hold its claims, and it stands. -/
structure Kept (catalog : Catalog) (s : DemoState) (id : String) (series : DemoSeries) : Prop where
  id_eq : series.id = id
  event_eq : series.eventId = id
  pinned : ∃ asset event, catalog.Pinned asset event ∧ event.id = id
    ∧ event.assetId = series.assetId ∧ series.Stands event
  supply : ∀ side, series.supply side =
    s.balance (.claims .seller id side) + s.balance (.claims .buyer id side)

/-- The invariant of a session that began in `initial`. -/
structure Books (catalog : Catalog) (initial s : DemoState) : Prop where
  series : ∀ {id series}, s.series.get? id = some series → Kept catalog s id series
  unissued : ∀ {id}, s.series.get? id = none → ∀ walletId side,
    s.balance (.claims walletId id side) = 0
  nonneg : ∀ walletId id side, 0 ≤ s.balance (.claims walletId id side)
  collateral : ∀ assetId, s.totalOf assetId = initial.totalOf assetId
  usdc : s.totalUsdc = initial.totalUsdc

variable {catalog : Catalog} {initial s s' : DemoState} {id : String} {series : DemoSeries}
  {event : EventDescriptor}

/-- Before its settlement a series is paired. -/
theorem DemoSeries.Stands.paired (h : series.Stands event)
    (hphase : series.phase = .open ∨ series.phase = .closed) : series.Paired event := by
  simp only [DemoSeries.Stands] at h
  rcases hphase with hphase | hphase
  · simpa [hphase] using h
  · simpa [hphase] using h

/-- From its settlement on it is frozen. -/
theorem DemoSeries.Stands.frozen (h : series.Stands event)
    (hphase : series.phase = .settled ∨ series.phase = .complete) : series.Frozen := by
  simp only [DemoSeries.Stands] at h
  rcases hphase with hphase | hphase
  · simpa [hphase] using h
  · simpa [hphase] using h

/-- A claim balance is at most the supply of its series. -/
theorem Books.claims_le (h : Books catalog initial s) (hget : s.series.get? id = some series)
    (walletId : WalletId) (side : ClaimSide) :
    s.balance (.claims walletId id side) ≤ series.supply side := by
  have hsupply := (h.series hget).supply side
  have hseller := h.nonneg .seller id side
  have hbuyer := h.nonneg .buyer id side
  cases walletId <;> omega

/-- The books depend on wallets and series alone. -/
theorem Books.congr (h : Books catalog initial s) (hwallets : s'.wallets = s.wallets)
    (hseries : s'.series = s.series) : Books catalog initial s' := by
  have hbalance := DemoState.balance_congr hwallets hseries
  refine ⟨fun {id series} hget => ?_, fun hnone => ?_, ?_, fun assetId => ?_, ?_⟩
  · rw [hseries] at hget
    obtain ⟨hid, hevent, hpinned, hsupply⟩ := h.series hget
    refine ⟨hid, hevent, hpinned, ?_⟩
    rwa [hbalance]
  · rw [hseries] at hnone
    rw [hbalance]
    exact h.unissued hnone
  · rw [hbalance]
    exact h.nonneg
  · rw [← h.collateral assetId]
    simp only [DemoState.totalOf, DemoState.locked, hbalance, hseries]
  · rw [← h.usdc]
    simp only [DemoState.totalUsdc, hbalance]

/-- **One series changes**, with the claims to it. -/
theorem Books.change (h : Books catalog initial s) (hkept : Kept catalog s' id series)
    (hseries : ∀ j, s'.series.get? j = if j = id then some series else s.series.get? j)
    (hclaims : ∀ walletId j side, j ≠ id →
      s'.balance (.claims walletId j side) = s.balance (.claims walletId j side))
    (hnonneg : ∀ walletId side, 0 ≤ s'.balance (.claims walletId id side))
    (hcollateral : ∀ assetId, s'.totalOf assetId = s.totalOf assetId)
    (husdc : s'.totalUsdc = s.totalUsdc) : Books catalog initial s' := by
  refine ⟨fun {j series'} hget => ?_, fun {j} hnone walletId side => ?_,
    fun walletId j side => ?_, fun assetId => ?_, ?_⟩
  · rw [hseries] at hget
    split at hget
    · rename_i hj
      cases hget
      rwa [hj]
    · rename_i hj
      obtain ⟨hid, hevent, hpinned, hsupply⟩ := h.series hget
      refine ⟨hid, hevent, hpinned, fun side => ?_⟩
      rw [hclaims _ _ _ hj, hclaims _ _ _ hj]
      exact hsupply side
  · rw [hseries] at hnone
    split at hnone
    · cases hnone
    · rename_i hj
      rw [hclaims _ _ _ hj]
      exact h.unissued hnone walletId side
  · by_cases hj : j = id
    · rw [hj]
      exact hnonneg walletId side
    · rw [hclaims _ _ _ hj]
      exact h.nonneg walletId j side
  · rw [hcollateral, h.collateral]
  · rw [husdc, h.usdc]

/-! ## Receipts -/

/-- A receipt's changes are the differences of the balances they name, and no other balance
differs. -/
structure Explains (changes : List AmountChange) (s s' : DemoState) : Prop where
  named : ∀ change ∈ changes, ∃ b, change.balance? = some b
    ∧ change.delta = s'.balance b - s.balance b
  rest : ∀ b, (∀ change ∈ changes, some b ≠ change.balance?) → s'.balance b = s.balance b

/-- A call has returned a receipt. -/
structure Posted (catalog : Catalog) (initial : DemoState) (c : Client) (r : DemoReceipt)
    (c' : Client) : Prop where
  books : Books catalog initial c'.state
  explains : Explains r.changes c.state c'.state
  receipts : c'.state.receipts = c.state.receipts ++ [r]
  version : c'.state.version = c.state.version + 1
  generation : c'.generation = c.generation
  quoteCounter : c'.quoteCounter = c.quoteCounter
  quotes : ∀ {id q}, c'.quotes.get? id = some q → c.quotes.get? id = some q

/-- What the assignments of a call have made of a client before its version goes up. -/
structure Moved (catalog : Catalog) (initial : DemoState) (c : Client) (changes : List AmountChange)
    (c' : Client) : Prop where
  books : Books catalog initial c'.state
  explains : Explains changes c.state c'.state
  receipts : c'.state.receipts = c.state.receipts
  version : c'.state.version = c.state.version
  generation : c'.generation = c.generation
  quoteCounter : c'.quoteCounter = c.quoteCounter
  quotes : ∀ {id q}, c'.quotes.get? id = some q → c.quotes.get? id = some q

/-- **The end of a call**: the version goes up, and a receipt is written. -/
theorem Moved.settles {c c' : Client} {changes : List AmountChange}
    (h : Moved catalog initial c changes c')
    (action : DemoAction) (seriesId summary : String) (now : Int) :
    Settles c
      (assign Client.nextVersion >>= fun _ => receipt action seriesId summary changes now) c'
      fun r c'' => Posted catalog initial c r c'' ∧ r.seriesId = seriesId ∧ r.changes = changes
        ∧ c''.quotes = c'.quotes ∧ c''.state.series = c'.state.series := by
  refine .assign
    (.assign (.this (.assign (.pure ⟨⟨?_, ?_, ?_, ?_, ?_, ?_, ?_⟩, rfl, rfl, rfl, rfl⟩))))
  · exact h.books.congr rfl rfl
  · obtain ⟨hnamed, hrest⟩ := h.explains
    refine ⟨fun change hmem => ?_, fun b hb => ?_⟩
    · exact hnamed change hmem
    · exact hrest b hb
  · simp [Client.update, Client.nextVersion, h.receipts]
  · simp [Client.update, Client.nextVersion, h.version]
  · exact h.generation
  · exact h.quoteCounter
  · exact h.quotes

end Demo

end DividendX
