import DividendX.TokenProfile

/-!
# The world a transaction runs in

All accounts the program can read or write, one store for each kind, and the clock. Loading an
account is what Anchor does before a handler runs: an account of the expected kind must exist at
the address the caller supplied.

The account lists of the instructions (`contexts.rs`) are structures of addresses. Callers fill
the slots with any addresses they like; signers are key pairs, so a signer slot holds the bytes
of one.
-/

namespace DividendX

/-- Everything on chain that matters to the program. -/
structure World where
  clock : Clock
  /-- token accounts and mints -/
  bank : Bank
  /-- the program's own upgrade authority -/
  upgradeAuthority : Option Pubkey
  config : Option Config
  policies : Pubkey → Option AssetPolicy
  series : Pubkey → Option Series
  accumulators : Pubkey → Option Accumulator
  heads : Pubkey → Option EventHead
  revisions : Pubkey → Option EventRevision

namespace World

/-- Load a program account. -/
def load {α : Type} (store : Pubkey → Option α) (key : Pubkey) : Outcome α :=
  Result.okOr (store key) (.anchor .accountNotInitialized)

/-- `InterfaceAccount<Mint>`: a mint of either token program. -/
def loadMint (w : World) (key : Pubkey) : Outcome Mint := do
  let mint ← load w.bank.mints key
  Result.require (mint.isInitialized = true) (.anchor .accountNotInitialized)
  return mint

/-- `InterfaceAccount<TokenAccount>`: a token account of either token program. -/
def loadToken (w : World) (key : Pubkey) : Outcome TokenAccount := do
  let account ← load w.bank.tokens key
  Result.require (account.state ≠ .uninitialized) (.anchor .accountNotInitialized)
  return account

/-- `Account<Mint>`: an SPL Token mint. -/
def loadClaimMint (w : World) (key : Pubkey) : Outcome Mint := do
  let mint ← w.loadMint key
  Result.require (mint.tokenProgram = .token) (.anchor .constraintOwner)
  return mint

/-- `Account<TokenAccount>`: an SPL Token account. -/
def loadClaimToken (w : World) (key : Pubkey) : Outcome TokenAccount := do
  let account ← w.loadToken key
  Result.require (account.tokenProgram = .token) (.anchor .constraintOwner)
  return account

/-- An unchecked account whose owner must be Token-2022. -/
def loadCollateralMint (w : World) (key : Pubkey) : Outcome Mint := do
  let mint ← load w.bank.mints key
  Result.require (mint.tokenProgram = .token2022) (.anchor .constraintOwner)
  return mint

/-- Write a series. -/
def putSeries (w : World) (key : Pubkey) (s : Series) : World :=
  { w with series := Function.update w.series key (some s) }

/-- Write an accumulator. -/
def putAccumulator (w : World) (key : Pubkey) (a : Accumulator) : World :=
  { w with accumulators := Function.update w.accumulators key (some a) }

/-- Write an asset policy. -/
def putPolicy (w : World) (key : Pubkey) (p : AssetPolicy) : World :=
  { w with policies := Function.update w.policies key (some p) }

/-- Write an event head. -/
def putHead (w : World) (key : Pubkey) (h : EventHead) : World :=
  { w with heads := Function.update w.heads key (some h) }

/-- Write a revision. -/
def putRevision (w : World) (key : Pubkey) (r : EventRevision) : World :=
  { w with revisions := Function.update w.revisions key (some r) }

end World

/-! ## Account lists -/

/-- `RegisterAsset`. -/
structure RegisterAssetAccounts where
  admin : Bytes32
  collateralMint : Pubkey

/-- `SetAssetAdmission`. -/
structure SetAssetAdmissionAccounts where
  admin : Bytes32
  assetPolicy : Pubkey

/-- `RefreshObservation`. -/
structure RefreshObservationAccounts where
  attestor : Bytes32
  assetPolicy : Pubkey
  collateralMint : Pubkey

/-- `CreateSeries`; the created accounts sit at their derived addresses. -/
structure CreateSeriesAccounts where
  assetPolicy : Pubkey
  collateralMint : Pubkey

/-- `Deposit` and `Recombine`, which take the same accounts. -/
structure PairAccounts where
  holder : Bytes32
  assetPolicy : Pubkey
  series : Pubkey
  collateralMint : Pubkey
  vault : Pubkey
  holderCollateral : Pubkey
  ptMint : Pubkey
  drMint : Pubkey
  holderPt : Pubkey
  holderDr : Pubkey

/-- `UpsertEvent`; head and revision sit at their derived addresses. -/
structure UpsertEventAccounts where
  attestor : Bytes32
  assetPolicy : Pubkey
  series : Pubkey

/-- `BeginFinalization`. -/
structure BeginFinalizationAccounts where
  attestor : Bytes32
  assetPolicy : Pubkey
  series : Pubkey
  accumulator : Pubkey
  collateralMint : Pubkey
  vault : Pubkey
  ptMint : Pubkey
  drMint : Pubkey

/-- `AccumulateEvent`. -/
structure AccumulateEventAccounts where
  keeper : Bytes32
  series : Pubkey
  accumulator : Pubkey
  eventHead : Pubkey
  revision : Pubkey

/-- `CompleteFinalization`. -/
structure CompleteFinalizationAccounts where
  keeper : Bytes32
  assetPolicy : Pubkey
  series : Pubkey
  accumulator : Pubkey
  collateralMint : Pubkey
  vault : Pubkey
  ptMint : Pubkey
  drMint : Pubkey

/-- `AbortFinalization`. -/
structure AbortFinalizationAccounts where
  attestor : Bytes32
  assetPolicy : Pubkey
  series : Pubkey
  accumulator : Pubkey

/-- `Redeem`. -/
structure RedeemAccounts where
  holder : Bytes32
  assetPolicy : Pubkey
  series : Pubkey
  collateralMint : Pubkey
  vault : Pubkey
  holderCollateral : Pubkey
  claimMint : Pubkey
  holderClaim : Pubkey

end DividendX
