import DividendX.Sdk.DemoFixtures

/-!
# The demo client

`createDemoClient` of `index.ts`: a rehearsal ledger of two wallets. Deposits turn collateral into
paired claims of a series, dividend claims are sold by quote, and after the cutoff a series is
settled into two pools and redeemed; paired claims recombine before that.

Calls are methods that throw (`Method`) on the variables the client closes over. Objects that the
source changes in place are written back under their key, snapshots and clones are the values
themselves, and every reading of the clock is an argument of the call that takes it.
-/

namespace DividendX

namespace Demo

open Method
open AnnualReference (ofDigits)

/-! ## Data -/

/-- `WalletId`. -/
inductive WalletId
  | seller
  | buyer
deriving DecidableEq, Repr

/-- The text of a wallet in messages. -/
def WalletId.text : WalletId → String
  | .seller => "seller"
  | .buyer => "buyer"

/-- `ClaimSide`. -/
inductive ClaimSide
  | pt
  | dr
deriving DecidableEq, Repr

/-- `side.toUpperCase()`. -/
def ClaimSide.upper : ClaimSide → String
  | .pt => "PT"
  | .dr => "DR"

/-- `SeriesPhase`. -/
inductive SeriesPhase
  | open
  | closed
  | settled
  | complete
  | cancelled
deriving DecidableEq, Repr

/-- `DemoCondition`. -/
inductive DemoCondition
  | ready
  | stale
  | paused
  | rejectedEvent
deriving DecidableEq, Repr

/-- The condition a text names. -/
def DemoCondition.ofText : String → Option DemoCondition
  | "ready" => some .ready
  | "stale" => some .stale
  | "paused" => some .paused
  | "rejected_event" => some .rejectedEvent
  | _ => none

/-- `ReplayClockStatus`. -/
inductive ReplayClockStatus
  | beforeEvent
  | atEvent
deriving DecidableEq, Repr

/-- `ClaimBalance`. -/
structure ClaimBalance where
  pt : Int
  dr : Int
deriving DecidableEq, Repr

namespace ClaimBalance

/-- `balance[side]`. -/
def get (balance : ClaimBalance) : ClaimSide → Int
  | .pt => balance.pt
  | .dr => balance.dr

/-- `balance[side] = value`. -/
def set (balance : ClaimBalance) (side : ClaimSide) (value : Int) : ClaimBalance :=
  match side with
  | .pt => { balance with pt := value }
  | .dr => { balance with dr := value }

@[simp] theorem get_set (balance : ClaimBalance) (side other : ClaimSide) (value : Int) :
    (balance.set side value).get other = if other = side then value else balance.get other := by
  cases side <;> cases other <;> rfl

end ClaimBalance

/-- `DemoWallet`. -/
structure DemoWallet where
  collateral : Record String Int
  usdc : Int
  claims : Record String ClaimBalance
deriving DecidableEq, Repr

/-- `Record<WalletId, DemoWallet>`. -/
structure Wallets where
  seller : DemoWallet
  buyer : DemoWallet
deriving DecidableEq, Repr

namespace Wallets

/-- `wallets[walletId]`. -/
def get (wallets : Wallets) : WalletId → DemoWallet
  | .seller => wallets.seller
  | .buyer => wallets.buyer

/-- `wallets[walletId] = wallet`. -/
def set (wallets : Wallets) (walletId : WalletId) (wallet : DemoWallet) : Wallets :=
  match walletId with
  | .seller => { wallets with seller := wallet }
  | .buyer => { wallets with buyer := wallet }

@[simp] theorem get_set (wallets : Wallets) (walletId other : WalletId) (wallet : DemoWallet) :
    (wallets.set walletId wallet).get other =
      if other = walletId then wallet else wallets.get other := by
  cases walletId <;> cases other <;> rfl

end Wallets

/-- `DemoSeries`. -/
structure DemoSeries where
  id : String
  assetId : String
  eventId : String
  phase : SeriesPhase
  accountedCollateralRaw : Int
  originalSupplyRaw : Int
  originalPtPoolRaw : Int
  originalDrPoolRaw : Int
  ptPoolRaw : Int
  drPoolRaw : Int
  ptSupplyRaw : Int
  drSupplyRaw : Int
  cumulativePtBurnedRaw : Int
  cumulativeDrBurnedRaw : Int
  replayClock : ReplayClockStatus
deriving DecidableEq, Repr

namespace DemoSeries

/-- The claims of a side that exist. -/
def supply (series : DemoSeries) : ClaimSide → Int
  | .pt => series.ptSupplyRaw
  | .dr => series.drSupplyRaw

/-- What is left of the pool of a side. -/
def pool (series : DemoSeries) : ClaimSide → Int
  | .pt => series.ptPoolRaw
  | .dr => series.drPoolRaw

/-- The pool of a side at settlement. -/
def originalPool (series : DemoSeries) : ClaimSide → Int
  | .pt => series.originalPtPoolRaw
  | .dr => series.originalDrPoolRaw

/-- The claims of a side that were redeemed. -/
def cumulativeBurned (series : DemoSeries) : ClaimSide → Int
  | .pt => series.cumulativePtBurnedRaw
  | .dr => series.cumulativeDrBurnedRaw

/-- The series object of a first deposit. -/
def fresh (eventId assetId : String) : DemoSeries where
  id := eventId
  assetId := assetId
  eventId := eventId
  phase := .open
  accountedCollateralRaw := 0
  originalSupplyRaw := 0
  originalPtPoolRaw := 0
  originalDrPoolRaw := 0
  ptPoolRaw := 0
  drPoolRaw := 0
  ptSupplyRaw := 0
  drSupplyRaw := 0
  cumulativePtBurnedRaw := 0
  cumulativeDrBurnedRaw := 0
  replayClock := .beforeEvent

end DemoSeries

/-- The field of an `AmountChange`. -/
inductive AmountField
  | collateral
  | usdc
  | pt
  | dr
  | accountedCollateral
deriving DecidableEq, Repr

/-- The field of a side. -/
def ClaimSide.field : ClaimSide → AmountField
  | .pt => .pt
  | .dr => .dr

/-- `AmountChange`. -/
structure AmountChange where
  walletId : Option WalletId := none
  assetId : Option String := none
  seriesId : Option String := none
  field : AmountField
  delta : Int
deriving DecidableEq, Repr

/-- `DemoAction`. -/
inductive DemoAction
  | deposit
  | sale
  | closeDeposits
  | settle
  | redeem
  | recombine
deriving DecidableEq, Repr

/-- `DemoReceipt`. -/
structure DemoReceipt where
  id : String
  action : DemoAction
  seriesId : String
  timestamp : Int
  summary : String
  changes : List AmountChange
deriving DecidableEq, Repr

/-- `DemoState`. -/
structure DemoState where
  version : Nat
  condition : DemoCondition
  wallets : Wallets
  series : Record String DemoSeries
  receipts : List DemoReceipt
deriving DecidableEq, Repr

/-- `AllocationPreview`. -/
structure AllocationPreview where
  assetId : String
  eventId : String
  input : String
  collateralRaw : Int
  ptPoolRaw : Int
  drPoolRaw : Int
  pairedClaimRaw : Int
deriving DecidableEq, Repr

/-- `SaleQuote`. -/
structure SaleQuote where
  id : String
  seriesId : String
  seller : WalletId := .seller
  buyer : WalletId := .buyer
  drRaw : Int
  usdcTotalRaw : Int
  version : Nat
  expiresAt : Int
deriving DecidableEq, Repr

/-- The variables a client closes over and assigns. -/
structure Client where
  generation : Nat
  quoteCounter : Nat
  receiptCounter : Nat
  quotes : Record String SaleQuote
  state : DemoState
deriving DecidableEq, Repr

/-! ## Reading and writing the state -/

namespace DemoState

/-- `wallets[walletId].collateral[assetId] ?? 0n`. -/
def collateralOf (s : DemoState) (walletId : WalletId) (assetId : String) : Int :=
  ((s.wallets.get walletId).collateral.get? assetId).getD 0

/-- `claimsFor`. -/
def claimsFor (s : DemoState) (walletId : WalletId) (seriesId : String) : ClaimBalance :=
  ((s.wallets.get walletId).claims.get? seriesId).getD ⟨0, 0⟩

/-- A wallet is changed. -/
def setWallet (s : DemoState) (walletId : WalletId) (wallet : DemoWallet) : DemoState :=
  { s with wallets := s.wallets.set walletId wallet }

/-- `wallets[walletId].collateral[assetId] = value`. -/
def setCollateral (s : DemoState) (walletId : WalletId) (assetId : String)
    (value : Int) : DemoState :=
  s.setWallet walletId { s.wallets.get walletId with
    collateral := (s.wallets.get walletId).collateral.set assetId value }

/-- `wallets[walletId].claims[seriesId] = balance`. -/
def setClaims (s : DemoState) (walletId : WalletId) (seriesId : String) (balance : ClaimBalance) :
    DemoState :=
  s.setWallet walletId { s.wallets.get walletId with
    claims := (s.wallets.get walletId).claims.set seriesId balance }

/-- `wallets[walletId].usdc = value`. -/
def setUsdc (s : DemoState) (walletId : WalletId) (value : Int) : DemoState :=
  s.setWallet walletId { s.wallets.get walletId with usdc := value }

/-- The series object under a key is changed. -/
def setSeries (s : DemoState) (seriesId : String) (series : DemoSeries) : DemoState :=
  { s with series := s.series.set seriesId series }

end DemoState

/-! ## Checks -/

/-- The event of an asset, an empty id counting as none. -/
def Catalog.eventIdOf (catalog : Catalog) (assetId : String) : Option String :=
  (catalog.eventForAsset.get? assetId).filter fun eventId => eventId ≠ ""

/-- `requireAssetEvent`. -/
def requireAssetEvent (catalog : Catalog) (assetId : String) :
    Thrown (AssetDescriptor × EventDescriptor) := do
  let asset ← Result.okOr (catalog.assets.get? assetId)
    (.demoError .missingAsset ("Unknown asset: " ++ assetId))
  let eventId ← Result.okOr (catalog.eventIdOf assetId)
    (.demoError .missingEvent ("No frozen replay event exists for " ++ asset.symbol))
  let event ← Result.okOr (catalog.events.get? eventId) .typeError
  return (asset, event)

/-- `requireSeries`. An inherited value passes for a series, one without a phase: `none`. -/
def requireSeries (s : DemoState) (seriesId : String) : Thrown (Option DemoSeries) :=
  match s.series.get? seriesId with
  | some series => .ok (some series)
  | none =>
    if seriesId ∈ Record.inheritedKeys then .ok none
    else .error (.demoError .missingEvent ("Unknown series: " ++ seriesId))

/-- `if (series.phase !== …) fail('WRONG_PHASE', message)`. -/
def inPhase (found : Option DemoSeries) (phases : List SeriesPhase) (message : String) :
    Thrown DemoSeries :=
  Result.okOr (found.filter fun series => series.phase ∈ phases) (.demoError .wrongPhase message)

/-- `requireReady`. -/
def requireReady (s : DemoState) : Thrown Unit := do
  demand (s.condition ≠ .stale) .staleData "Frozen event evidence is marked stale"
  demand (s.condition ≠ .paused) .pausedCollateral "Collateral movements are paused"
  demand (s.condition ≠ .rejectedEvent) .rejectedEvent "The event is rejected"

/-- `preview`. -/
def preview (catalog : Catalog) (assetId stockAmount : String) : Thrown AllocationPreview := do
  let (asset, event) ← requireAssetEvent catalog assetId
  let collateralRaw ← toRawAmount stockAmount asset.decimals event.m0
  let pools ← allocate collateralRaw event.m0 event.m1
  return {
    assetId := assetId, eventId := event.id, input := stockAmount, collateralRaw := collateralRaw
    ptPoolRaw := pools.ptPoolRaw, drPoolRaw := pools.drPoolRaw, pairedClaimRaw := collateralRaw }

/-- `previewRedemption`. -/
def previewRedemption (s : DemoState) (seriesId : String) (walletId : WalletId) (side : ClaimSide)
    (claimRaw : Int) : Thrown Int := do
  assertRaw claimRaw false
  let found ← requireSeries s seriesId
  let series ← inPhase found [.settled] "Series must be settled before redemption"
  demand (¬ (s.claimsFor walletId seriesId).get side < claimRaw) .insufficientBalance
    (walletId.text ++ " has insufficient " ++ side.upper)
  let burned := series.cumulativeBurned side
  let pool := series.originalPool side
  let later ← quotient ((burned + claimRaw) * pool) series.originalSupplyRaw
  let earlier ← quotient (burned * pool) series.originalSupplyRaw
  let payout := later - earlier
  demand (payout ≠ 0) .zeroPayout
    "This claim amount is too small to produce a raw collateral payout"
  return payout

/-- The series a deposit goes to, if there is one yet. -/
def depositSeries (s : DemoState) (eventId : String) : Thrown (Option DemoSeries) :=
  let closed := "Deposits are permanently closed for this series"
  match s.series.get? eventId with
  | some series => do
    demand (series.phase = .open) .depositsClosed closed
    return some series
  | none => do
    demand (eventId ∉ Record.inheritedKeys) .depositsClosed closed
    return none

/-- The last check of `recombine`. -/
def settleable (catalog : Catalog) (series : DemoSeries) (remainingAccounted : Int) :
    Thrown Unit := do
  let event ← Result.okOr (catalog.events.get? series.eventId) .typeError
  let pools ← allocate remainingAccounted event.m0 event.m1
  demand (pools.drPoolRaw ≠ 0) .invalidAmount
    "Recombination would leave a series too small to settle"

/-- The generation in a text that matches `^quote-(\d+)-\d+$`. -/
def quoteGeneration (quoteId : String) : Option Nat :=
  match quoteId.toList with
  | 'q' :: 'u' :: 'o' :: 't' :: 'e' :: '-' :: rest =>
    let generation := rest.takeWhile Char.isDigit
    match rest.dropWhile Char.isDigit with
    | '-' :: counter =>
      if generation ≠ [] ∧ counter ≠ [] ∧ counter.all Char.isDigit then some (ofDigits generation)
      else none
    | _ => none
  | _ => none

/-! ## The initial state -/

/-- What the seller holds of an asset at first. -/
def initialCollateral (catalog : Catalog) (asset : AssetDescriptor) : Thrown Int :=
  match catalog.eventIdOf asset.id with
  | some eventId => do
    let event ← Result.okOr (catalog.events.get? eventId) .typeError
    toRawAmount "1000" asset.decimals event.m0
  | none => .ok 0

/-- One turn of the loop over the assets: the seller's and the buyer's collateral. -/
def fillCollateral (catalog : Catalog) (filled : Record String Int × Record String Int)
    (asset : AssetDescriptor) : Thrown (Record String Int × Record String Int) := do
  let raw ← initialCollateral catalog asset
  return (filled.1.set asset.id raw, filled.2.set asset.id 0)

/-- `makeInitialState`. -/
def makeInitialState (catalog : Catalog) : Thrown DemoState := do
  let filled ← (catalog.assets.entries.map Prod.snd).foldlM (fillCollateral catalog) (∅, ∅)
  let usdc ← parseUsdc "1000"
  return {
    version := 0
    condition := .ready
    wallets := {
      seller := { collateral := filled.1, usdc := 0, claims := ∅ }
      buyer := { collateral := filled.2, usdc := usdc, claims := ∅ } }
    series := ∅
    receipts := [] }

/-- `createDemoClient`, up to the object it returns. -/
def createDemoClient (sourceAssets : List AssetDescriptor) (sourceEvents : List EventDescriptor) :
    Thrown Client := do
  validateFixtures sourceAssets sourceEvents
  let state ← makeInitialState (Catalog.of sourceAssets sourceEvents)
  return { generation := 1, quoteCounter := 0, receiptCounter := 0, quotes := ∅, state := state }

/-! ## Calls -/

/-- A method of a client. -/
abbrev Operate : Type → Type := Method Client Failure

namespace Client

/-- `state.version++`. -/
def nextVersion (c : Client) : Client :=
  { c with state := { c.state with version := c.state.version + 1 } }

/-- The state is changed. -/
def update (c : Client) (f : DemoState → DemoState) : Client := { c with state := f c.state }

/-- The id of the next receipt, its counter raised already. -/
def receiptId (c : Client) : String :=
  "demo-" ++ toString c.generation ++ "-" ++ toString c.receiptCounter

end Client

/-- The text `quote-generation-counter`. -/
def quoteId (generation counter : Nat) : String :=
  "quote-" ++ toString generation ++ "-" ++ toString counter

/-- `receipt`. -/
def receipt (action : DemoAction) (seriesId summary : String) (changes : List AmountChange)
    (now : Int) : Operate DemoReceipt := do
  assign fun c => { c with receiptCounter := c.receiptCounter + 1 }
  let c ← this
  let value : DemoReceipt := {
    id := c.receiptId, action := action, seriesId := seriesId, timestamp := now
    summary := summary, changes := changes }
  assign fun c => c.update fun s => { s with receipts := s.receipts ++ [value] }
  pure value

section Calls

variable (catalog : Catalog)

/-- `deposit`. -/
def deposit (assetId stockAmount : String) (now : Int) : Operate DemoReceipt := do
  let c ← this
  check (requireReady c.state)
  let allocation ← check (preview catalog assetId stockAmount)
  check (demand (allocation.collateralRaw ≠ 0) .invalidAmount
    "Deposit must be at least one raw collateral unit")
  check (demand (¬ c.state.collateralOf .seller assetId < allocation.collateralRaw)
    .insufficientBalance "Seller has insufficient demo collateral")
  let existing ← check (depositSeries c.state allocation.eventId)
  let currentAccounted := (existing.map DemoSeries.accountedCollateralRaw).getD 0
  let nextAccounted := currentAccounted + allocation.collateralRaw
  check (assertRaw nextAccounted)
  let found ← check (requireAssetEvent catalog assetId)
  let pools ← check (allocate nextAccounted found.2.m0 found.2.m1)
  check (demand (pools.drPoolRaw ≠ 0) .invalidAmount
    "Deposit is too small to produce a dividend allocation")
  let priorClaims := c.state.claimsFor .seller allocation.eventId
  let nextPt := priorClaims.pt + allocation.collateralRaw
  let nextDr := priorClaims.dr + allocation.collateralRaw
  check (assertRaw nextPt)
  check (assertRaw nextDr)
  let series := existing.getD (.fresh allocation.eventId assetId)
  assign fun c => c.update fun s =>
    s.setCollateral .seller assetId (s.collateralOf .seller assetId - allocation.collateralRaw)
  assign fun c => c.update fun s => s.setClaims .seller series.id ⟨nextPt, nextDr⟩
  assign fun c => c.update fun s => s.setSeries allocation.eventId { series with
    accountedCollateralRaw := nextAccounted
    ptSupplyRaw := series.ptSupplyRaw + allocation.collateralRaw
    drSupplyRaw := series.drSupplyRaw + allocation.collateralRaw }
  assign Client.nextVersion
  receipt .deposit series.id
    ("Deposited " ++ toString allocation.collateralRaw ++ " raw " ++ assetId
      ++ " and created paired claims")
    [{ walletId := some .seller, assetId := some assetId, field := .collateral
       delta := -allocation.collateralRaw },
     { walletId := some .seller, seriesId := some series.id, field := .pt
       delta := allocation.collateralRaw },
     { walletId := some .seller, seriesId := some series.id, field := .dr
       delta := allocation.collateralRaw },
     { seriesId := some series.id, field := .accountedCollateral
       delta := allocation.collateralRaw }] now

/-- `quoteSale`. -/
def quoteSale (seriesId : String) (drRaw usdcTotalRaw now : Int) : Operate SaleQuote := do
  let c ← this
  check (requireReady c.state)
  check (assertRaw drRaw false)
  check (assertRaw usdcTotalRaw false)
  let found ← check (requireSeries c.state seriesId)
  let _ ← check (inPhase found [.open] "DR sale quotes are only available while deposits are open")
  check (demand (¬ (c.state.claimsFor .seller seriesId).dr < drRaw) .insufficientBalance
    "Seller has insufficient DR")
  check (demand (¬ c.state.wallets.buyer.usdc < usdcTotalRaw) .insufficientBalance
    "Buyer has insufficient test USDC")
  assign fun c => { c with quoteCounter := c.quoteCounter + 1 }
  let c ← this
  let value : SaleQuote := {
    id := quoteId c.generation c.quoteCounter, seriesId := seriesId, drRaw := drRaw
    usdcTotalRaw := usdcTotalRaw, version := c.state.version, expiresAt := now + QUOTE_TTL_MS }
  assign fun c => { c with quotes := c.quotes.set value.id value }
  pure value

/-- `quotes.delete(quoteId)`. -/
def Client.dropQuote (c : Client) (quoteId : String) : Client :=
  { c with quotes := c.quotes.filter fun id _ => id ≠ quoteId }

/-- `acceptSale`. The clock is read twice, for the expiry and for the receipt. -/
def acceptSale (quoteId : String) (reject : Bool) (now stamp : Int) : Operate DemoReceipt :=
  if reject then do
    assign fun c => c.dropQuote quoteId
    check (.error (.demoError .userRejected "The buyer rejected the demo sale"))
  else do
    let c ← this
    check (demand (∀ generation ∈ quoteGeneration quoteId, generation = c.generation) .staleQuote
      "Quote belongs to an earlier demo session")
    let quote ← check (Result.okOr (c.quotes.get? quoteId)
      (.demoError .missingQuote "Quote does not exist or was already consumed"))
    check (requireReady c.state)
    check (demand (¬ quote.expiresAt ≤ now) .expiredQuote "Quote has expired")
    check (demand (quote.version = c.state.version) .staleQuote
      "Quote is stale because demo state changed")
    let found ← check (requireSeries c.state quote.seriesId)
    let _ ← check (inPhase found [.open] "DR sales are only available while deposits are open")
    let sellerClaims := c.state.claimsFor .seller quote.seriesId
    let buyerClaims := c.state.claimsFor .buyer quote.seriesId
    check
      (demand (¬ sellerClaims.dr < quote.drRaw) .insufficientBalance "Seller has insufficient DR")
    check (demand (¬ c.state.wallets.buyer.usdc < quote.usdcTotalRaw) .insufficientBalance
      "Buyer has insufficient test USDC")
    let nextBuyerDr := buyerClaims.dr + quote.drRaw
    let nextSellerUsdc := c.state.wallets.seller.usdc + quote.usdcTotalRaw
    check (assertRaw nextBuyerDr)
    check (assertRaw nextSellerUsdc)
    assign fun c => c.update fun s => s.setClaims .seller quote.seriesId
      { sellerClaims with dr := sellerClaims.dr - quote.drRaw }
    assign fun c => c.update fun s => s.setClaims .buyer quote.seriesId
      { buyerClaims with dr := nextBuyerDr }
    assign fun c => c.update fun s => s.setUsdc .buyer (s.wallets.buyer.usdc - quote.usdcTotalRaw)
    assign fun c => c.update fun s => s.setUsdc .seller (s.wallets.seller.usdc + quote.usdcTotalRaw)
    assign fun c => c.dropQuote quoteId
    assign Client.nextVersion
    receipt .sale quote.seriesId ("Sold " ++ toString quote.drRaw ++ " raw DR for "
        ++ toString quote.usdcTotalRaw ++ " raw test USDC")
      [{ walletId := some .seller, seriesId := some quote.seriesId, field := .dr
         delta := -quote.drRaw },
       { walletId := some .buyer, seriesId := some quote.seriesId, field := .dr
         delta := quote.drRaw },
       { walletId := some .buyer, field := .usdc, delta := -quote.usdcTotalRaw },
       { walletId := some .seller, field := .usdc, delta := quote.usdcTotalRaw }] stamp

/-- `closeDeposits`. -/
def closeDeposits (seriesId : String) (now : Int) : Operate DemoReceipt := do
  let c ← this
  let found ← check (requireSeries c.state seriesId)
  let series ← check (inPhase found [.open] "Only an open series can close deposits")
  assign fun c => c.update fun s => s.setSeries seriesId { series with
    phase := .closed, replayClock := .atEvent }
  assign Client.nextVersion
  receipt .closeDeposits seriesId
    "Closed deposits and advanced the local replay clock to the event" [] now

/-- `settle`. -/
def settle (seriesId : String) (now : Int) : Operate DemoReceipt := do
  let c ← this
  check (requireReady c.state)
  let found ← check (requireSeries c.state seriesId)
  check (demand (∀ series ∈ found, ¬ (series.phase = .settled ∨ series.phase = .complete))
    .alreadySettled "Series allocation is already settled")
  let series ← check (inPhase found [.closed] "Series must be closed before settlement")
  let mismatch := "Series no longer matches its pinned event fixture"
  let event ← check (Result.okOr (catalog.events.get? series.eventId)
    (.demoError .invalidFixture mismatch))
  let asset ← check (Result.okOr (catalog.assets.get? series.assetId)
    (.demoError .invalidFixture mismatch))
  check (demand (asset.eventFixtureId = some series.eventId ∧ event.assetId = series.assetId)
    .invalidFixture mismatch)
  let pools ← check (allocate series.accountedCollateralRaw event.m0 event.m1)
  check (demand (pools.drPoolRaw ≠ 0) .invalidFixture
    "A zero-dividend event cannot be settled in this rehearsal")
  check (demand (series.ptSupplyRaw = series.accountedCollateralRaw
      ∧ series.drSupplyRaw = series.accountedCollateralRaw) .invalidFixture
    "Paired claim supply does not match accounted collateral")
  assign fun c => c.update fun s => s.setSeries seriesId { series with
    originalSupplyRaw := series.accountedCollateralRaw
    originalPtPoolRaw := pools.ptPoolRaw
    originalDrPoolRaw := pools.drPoolRaw
    ptPoolRaw := pools.ptPoolRaw
    drPoolRaw := pools.drPoolRaw
    phase := .settled }
  assign Client.nextVersion
  receipt .settle seriesId ("Froze PT pool " ++ toString pools.ptPoolRaw ++ " and DR pool "
    ++ toString pools.drPoolRaw) [] now

/-- The fields of a series that a redemption of one side changes. -/
def DemoSeries.redeemed (series : DemoSeries) (side : ClaimSide) (claimRaw payout : Int) :
    DemoSeries :=
  match side with
  | .pt => { series with
      ptSupplyRaw := series.ptSupplyRaw - claimRaw
      ptPoolRaw := series.ptPoolRaw - payout
      cumulativePtBurnedRaw := series.cumulativePtBurnedRaw + claimRaw
      accountedCollateralRaw := series.accountedCollateralRaw - payout }
  | .dr => { series with
      drSupplyRaw := series.drSupplyRaw - claimRaw
      drPoolRaw := series.drPoolRaw - payout
      cumulativeDrBurnedRaw := series.cumulativeDrBurnedRaw + claimRaw
      accountedCollateralRaw := series.accountedCollateralRaw - payout }

/-- `if (… === 0n && …) series.phase = 'complete'`. -/
def DemoSeries.completed (series : DemoSeries) : DemoSeries :=
  if series.ptSupplyRaw = 0 ∧ series.drSupplyRaw = 0 ∧ series.ptPoolRaw = 0
    ∧ series.drPoolRaw = 0 then
    { series with phase := .complete }
  else series

/-- `redeem`. An inherited value does not get past the preview. -/
def redeem (seriesId : String) (walletId : WalletId) (side : ClaimSide) (claimRaw now : Int) :
    Operate DemoReceipt := do
  let c ← this
  check (demand (c.state.condition ≠ .paused) .pausedCollateral "Collateral movements are paused")
  let payout ← check (previewRedemption c.state seriesId walletId side claimRaw)
  let found ← check (requireSeries c.state seriesId)
  let series ← check (Result.okOr found .typeError)
  let balance := c.state.claimsFor walletId seriesId
  check (demand (¬ series.pool side < payout) .invalidFixture
    "Redemption exceeds the remaining frozen pool")
  let nextCollateral := c.state.collateralOf walletId series.assetId + payout
  check (assertRaw nextCollateral)
  assign fun c => c.update fun s =>
    s.setClaims walletId seriesId (balance.set side (balance.get side - claimRaw))
  assign fun c => c.update fun s => s.setCollateral walletId series.assetId nextCollateral
  assign fun c => c.update fun s =>
    s.setSeries seriesId (series.redeemed side claimRaw payout).completed
  assign Client.nextVersion
  receipt .redeem seriesId ("Burned " ++ toString claimRaw ++ " raw " ++ side.upper ++ " for "
      ++ toString payout ++ " raw collateral")
    [{ walletId := some walletId, seriesId := some seriesId, field := side.field,
       delta := -claimRaw },
     { walletId := some walletId, assetId := some series.assetId, field := .collateral
       delta := payout },
     { seriesId := some seriesId, field := .accountedCollateral, delta := -payout }] now

/-- `recombine`. -/
def recombine (seriesId : String) (walletId : WalletId) (claimRaw now : Int) :
    Operate DemoReceipt := do
  let c ← this
  check (demand (c.state.condition ≠ .paused) .pausedCollateral "Collateral movements are paused")
  check (assertRaw claimRaw false)
  let found ← check (requireSeries c.state seriesId)
  let series ← check (inPhase found [.open, .closed] "Claims can only recombine before settlement")
  let balance := c.state.claimsFor walletId seriesId
  check (demand (¬ (balance.pt < claimRaw ∨ balance.dr < claimRaw)) .insufficientBalance
    (walletId.text ++ " must own equal PT and DR to recombine"))
  let remainingAccounted := series.accountedCollateralRaw - claimRaw
  let nextCollateral := c.state.collateralOf walletId series.assetId + claimRaw
  check (assertRaw nextCollateral)
  check (Result.checkWhen (0 < remainingAccounted) (settleable catalog series remainingAccounted))
  assign fun c => c.update fun s =>
    s.setClaims walletId seriesId ⟨balance.pt - claimRaw, balance.dr - claimRaw⟩
  assign fun c => c.update fun s => s.setCollateral walletId series.assetId nextCollateral
  assign fun c => c.update fun s => s.setSeries seriesId { series with
    ptSupplyRaw := series.ptSupplyRaw - claimRaw
    drSupplyRaw := series.drSupplyRaw - claimRaw
    accountedCollateralRaw := remainingAccounted
    phase := if remainingAccounted = 0 then .cancelled else series.phase }
  assign Client.nextVersion
  receipt .recombine seriesId ("Recombined " ++ toString claimRaw
      ++ " paired claims for raw collateral")
    [{ walletId := some walletId, seriesId := some seriesId, field := .pt, delta := -claimRaw },
     { walletId := some walletId, seriesId := some seriesId, field := .dr, delta := -claimRaw },
     { walletId := some walletId, assetId := some series.assetId, field := .collateral
       delta := claimRaw },
     { seriesId := some seriesId, field := .accountedCollateral, delta := -claimRaw }] now

/-- `setCondition`. -/
def setCondition (condition : String) : Operate Unit := do
  let condition ← check (Result.okOr (DemoCondition.ofText condition)
    (.demoError .invalidFixture ("Unknown demo condition: " ++ condition)))
  assign fun c => c.update fun s => { s with condition := condition }
  assign Client.nextVersion

/-- `reset`. -/
def reset : Operate Unit := do
  assign fun c => { c with generation := c.generation + 1 }
  assign fun c => { c with quotes := ∅ }
  let state ← check (makeInitialState catalog)
  assign fun c => { c with state := state }

end Calls

/-- A call with its arguments and what its clock reads. -/
inductive Operation
  | getState
  | preview (assetId stockAmount : String)
  | deposit (assetId stockAmount : String) (now : Int)
  | quoteSale (seriesId : String) (drRaw usdcTotalRaw now : Int)
  | acceptSale (quoteId : String) (reject : Bool) (now stamp : Int)
  | closeDeposits (seriesId : String) (now : Int)
  | settle (seriesId : String) (now : Int)
  | previewRedemption (seriesId : String) (walletId : WalletId) (side : ClaimSide) (claimRaw : Int)
  | redeem (seriesId : String) (walletId : WalletId) (side : ClaimSide) (claimRaw now : Int)
  | recombine (seriesId : String) (walletId : WalletId) (claimRaw now : Int)
  | setCondition (condition : String)
  | reset
deriving DecidableEq

/-- What a call returns. -/
inductive Returned
  | nothing
  | state (s : DemoState)
  | allocation (a : AllocationPreview)
  | quote (q : SaleQuote)
  | receipt (r : DemoReceipt)
  | payout (raw : Int)
deriving DecidableEq

/-- Carry a call out. -/
def Operation.apply (catalog : Catalog) : Operation → Operate Returned
  | .getState => do
    let c ← this
    pure (.state c.state)
  | .preview assetId stockAmount => do
    let a ← check (Demo.preview catalog assetId stockAmount)
    pure (.allocation a)
  | .deposit assetId stockAmount now => do
    let r ← Demo.deposit catalog assetId stockAmount now
    pure (.receipt r)
  | .quoteSale seriesId drRaw usdcTotalRaw now => do
    let q ← Demo.quoteSale seriesId drRaw usdcTotalRaw now
    pure (.quote q)
  | .acceptSale quoteId reject now stamp => do
    let r ← Demo.acceptSale quoteId reject now stamp
    pure (.receipt r)
  | .closeDeposits seriesId now => do
    let r ← Demo.closeDeposits seriesId now
    pure (.receipt r)
  | .settle seriesId now => do
    let r ← Demo.settle catalog seriesId now
    pure (.receipt r)
  | .previewRedemption seriesId walletId side claimRaw => do
    let c ← this
    let payout ← check (Demo.previewRedemption c.state seriesId walletId side claimRaw)
    pure (.payout payout)
  | .redeem seriesId walletId side claimRaw now => do
    let r ← Demo.redeem seriesId walletId side claimRaw now
    pure (.receipt r)
  | .recombine seriesId walletId claimRaw now => do
    let r ← Demo.recombine catalog seriesId walletId claimRaw now
    pure (.receipt r)
  | .setCondition condition => do
    Demo.setCondition condition
    pure .nothing
  | .reset => do
    Demo.reset catalog
    pure .nothing

/-- The client after a sequence of calls, whether they returned or threw. -/
def Client.afterAll (catalog : Catalog) (c : Client) (operations : List Operation) : Client :=
  operations.foldl (fun c operation => (operation.apply catalog c).2) c

end Demo

end DividendX
