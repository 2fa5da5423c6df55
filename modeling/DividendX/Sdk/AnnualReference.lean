import DividendX.Calendar
import DividendX.Lib.Fraction
import DividendX.Lib.Method
import DividendX.Lib.Record

/-!
# The accounting reference

`annual-reference.ts`: the executable model of an annual series that the program was designed
against. It keeps the accounts of a fixed set of holders, a journal of events with decimal factors,
the index as a fraction in lowest terms, and pays redemptions out of two pools.

Operations are methods that throw (`Method`): they assign field after field, in the order of the
source, and some of their checks stand after the first assignment. Amounts are `bigint`, so they are
integers here and could become negative. A JavaScript number is an integer here: the checks refuse
any other number, with the error they refuse a negative one with.
-/

namespace DividendX

namespace AnnualReference

open Method

/-! ## Data -/

/-- `AnnualClaimSide`. -/
inductive AnnualClaimSide
  | pt
  | dr
deriving DecidableEq

/-- `AnnualEventStatus`. -/
inductive AnnualEventStatus
  | qualified
  | confirmedZero
  | cancelled
  | pending
  | unsupported
deriving DecidableEq

/-- The text of a status in messages. -/
def AnnualEventStatus.text : AnnualEventStatus → String
  | .qualified => "qualified"
  | .confirmedZero => "confirmed_zero"
  | .cancelled => "cancelled"
  | .pending => "pending"
  | .unsupported => "unsupported"

/-- `AnnualTermIdentity`. -/
structure AnnualTermIdentity where
  chain : String
  issuer : String
  mint : String
  symbol : String
  year : Int
deriving DecidableEq

/-- `AnnualEventRecord`. -/
structure AnnualEventRecord where
  id : String
  revision : Int
  chain : String
  issuer : String
  mint : String
  exDate : Option String
  status : AnnualEventStatus
  m0 : String
  m1 : String
  finalized : Bool
deriving DecidableEq

/-- `AnnualAccountState`. -/
structure AnnualAccountState where
  collateralRaw : Int
  ptRaw : Int
  drRaw : Int
deriving DecidableEq

namespace AnnualAccountState

/-- `account[field]`, where the side picks the field. -/
def claims (account : AnnualAccountState) : AnnualClaimSide → Int
  | .pt => account.ptRaw
  | .dr => account.drRaw

/-- `account[field] = value`. -/
def setClaims (account : AnnualAccountState) (side : AnnualClaimSide) (value : Int) :
    AnnualAccountState :=
  match side with
  | .pt => { account with ptRaw := value }
  | .dr => { account with drRaw := value }

@[simp] theorem claims_setClaims (account : AnnualAccountState) (side other : AnnualClaimSide)
    (value : Int) : (account.setClaims side value).claims other =
      if other = side then value else account.claims other := by
  cases side <;> cases other <;> rfl

end AnnualAccountState

/-- `RationalIndex`. -/
abbrev RationalIndex := Fraction

/-- `AnnualAllocation`. -/
structure AnnualAllocation where
  accountableRaw : Int
  index : RationalIndex
  ptPoolRaw : Int
  drPoolRaw : Int
deriving DecidableEq

/-- `AnnualFinalSnapshot`. -/
structure AnnualFinalSnapshot extends AnnualAllocation where
  supplyDenominatorRaw : Int
deriving DecidableEq

/-- `AnnualReferenceErrorCode`. -/
inductive AnnualReferenceErrorCode
  | invalidIdentity
  | invalidTime
  | invalidAmount
  | invalidAccount
  | invalidEvent
  | eventLimit
  | revisionConflict
  | depositsClosed
  | insufficientBalance
  | notMature
  | incompleteJournal
  | finalized
  | postFinalizedAmendment
  | zeroPayout
  | custodyBlocked
  | custodyDeficit
deriving DecidableEq

/-- `AnnualReferenceError`. -/
structure AnnualReferenceError where
  code : AnnualReferenceErrorCode
  message : String
deriving DecidableEq

/-- Computations that may `fail`. -/
abbrev Thrown (α : Type) := Except AnnualReferenceError α

/-- `if (!condition) fail(code, message)`. -/
def demand (condition : Prop) [Decidable condition] (code : AnnualReferenceErrorCode)
    (message : String) : Thrown Unit :=
  Result.require condition ⟨code, message⟩

@[simp] theorem demand_eq_ok {p : Prop} [Decidable p] {c : AnnualReferenceErrorCode} {m : String}
    {u : Unit} : demand p c m = .ok u ↔ p :=
  Result.require_eq_ok

/-! ## Checked values -/

def U64_MAX : Int := 18_446_744_073_709_551_615
def MAX_EVENT_IDS : Nat := 64
def MAX_TEXT_LENGTH : Nat := 128
def MAX_FACTOR_LENGTH : Nat := 64

/-- `value.length`: UTF-16 code units. -/
def textLength (value : String) : Nat :=
  (value.toList.map fun c => if c.toNat < 0x10000 then 1 else 2).sum

/-- `checkedText`. -/
def checkedText (value label : String) : Thrown String := do
  demand (textLength value ≠ 0 ∧ textLength value ≤ MAX_TEXT_LENGTH) .invalidIdentity
    (label ++ " must contain 1-128 characters")
  return value

/-- `checkedAccountId`. -/
def checkedAccountId (value : String) : Thrown String := do
  demand (textLength value ≠ 0 ∧ textLength value ≤ MAX_TEXT_LENGTH) .invalidAccount
    "Account ID must contain 1-128 characters"
  return value

/-- `checkedTermIdentity`. -/
def checkedTermIdentity (term : AnnualTermIdentity) : Thrown AnnualTermIdentity := do
  demand (¬ (term.year < 1970 ∨ 9998 < term.year)) .invalidIdentity
    "Term year must be an integer from 1970 through 9998"
  let chain ← checkedText term.chain "Chain"
  let issuer ← checkedText term.issuer "Issuer"
  let mint ← checkedText term.mint "Mint"
  let symbol ← checkedText term.symbol "Symbol"
  return { chain := chain, issuer := issuer, mint := mint, symbol := symbol, year := term.year }

/-- `checkedRaw`. -/
def checkedRaw (value : Int) (allowZero : Bool := false) : Thrown Int := do
  demand (¬ (value < 0 ∨ (allowZero = false ∧ value = 0) ∨ U64_MAX < value)) .invalidAmount
    ("Raw amount must be " ++ (if allowZero then "an" else "a positive") ++ " unsigned u64")
  return value

/-- `addU64`. -/
def addU64 (left right : Int) : Thrown Int := do
  let sum := left + right
  let _ ← checkedRaw sum true
  return sum

/-- `checkedNow`. -/
def checkedNow (nowSeconds : Int) : Thrown Int := do
  demand (nowSeconds.natAbs ≤ 2 ^ 53 - 1 ∧ ¬ nowSeconds < 0) .invalidTime
    "nowSeconds must be a non-negative integer UTC timestamp"
  return nowSeconds

/-! ## Factors and dates -/

/-- `reduce`. -/
def reduce (numerator denominator : Int) : Thrown RationalIndex := do
  demand (¬ (numerator < 0 ∨ denominator ≤ 0)) .invalidEvent "Invalid rational index"
  return Fraction.lowest ⟨numerator, denominator⟩

/-- The two groups of digits of a text that matches `^\d+(?:\.\d+)?$`. -/
def decimalParts (value : List Char) : Option (List Char × List Char) :=
  let whole := value.takeWhile Char.isDigit
  match whole, value.dropWhile Char.isDigit with
  | [], _ => none
  | _ :: _, [] => some (whole, [])
  | _ :: _, '.' :: fraction =>
    if fraction ≠ [] ∧ fraction.all Char.isDigit then some (whole, fraction) else none
  | _ :: _, _ :: _ => none

/-- `BigInt` of decimal digits. -/
def ofDigits (digits : List Char) : Nat :=
  digits.foldl (fun n c => 10 * n + (c.toNat - '0'.toNat)) 0

/-- `parsePositiveDecimal`. -/
def parsePositiveDecimal (value : String) : Thrown RationalIndex := do
  let message := "Multiplier must be a plain positive decimal of at most 64 characters"
  demand (textLength value ≠ 0 ∧ textLength value ≤ MAX_FACTOR_LENGTH) .invalidEvent message
  let (whole, fraction) ← Result.okOr (decimalParts value.toList) ⟨.invalidEvent, message⟩
  let numerator := ofDigits (whole ++ fraction)
  demand (numerator ≠ 0) .invalidEvent "Multiplier must be positive"
  reduce numerator (10 ^ fraction.length)

/-- `compare`. -/
def compare (left right : RationalIndex) : Int := Fraction.compare left right

/-- The last day of a month of the Gregorian calendar. -/
def lastDay (year month : Nat) : Nat :=
  if month = 2 then (if year % 4 = 0 ∧ (year % 100 ≠ 0 ∨ year % 400 = 0) then 29 else 28)
  else if month = 4 ∨ month = 6 ∨ month = 9 ∨ month = 11 then 30 else 31

/-- `validCivilDate`. `Date.UTC` takes a year below 100 as one of the twentieth century, so such a
date does not come back as it was written. -/
def validCivilDate (value : String) : Bool :=
  match value.toList with
  | [y₁, y₂, y₃, y₄, '-', m₁, m₂, '-', d₁, d₂] =>
    let year := ofDigits [y₁, y₂, y₃, y₄]
    let month := ofDigits [m₁, m₂]
    let day := ofDigits [d₁, d₂]
    [y₁, y₂, y₃, y₄, m₁, m₂, d₁, d₂].all Char.isDigit
      && decide (100 ≤ year ∧ 1 ≤ month ∧ month ≤ 12 ∧ 1 ≤ day ∧ day ≤ lastDay year month)
  | _ => false

/-- `civilYear` of a valid date. -/
def civilYear (value : String) : Int := ofDigits (value.toList.take 4)

/-! ## The model -/

/-- The fields of `AnnualReferenceModel` that its operations use. -/
structure AnnualReferenceModel where
  term : AnnualTermIdentity
  startSeconds : Int
  maturitySeconds : Int
  accountableRaw : Int
  ptSupplyRaw : Int
  drSupplyRaw : Int
  externallyBurnedPtRaw : Int
  externallyBurnedDrRaw : Int
  redeemedPtClaimsRaw : Int
  redeemedDrClaimsRaw : Int
  actualCustodyRaw : Int
  donationsRaw : Int
  custodyBlocked : Bool
  accounts : Record String AnnualAccountState
  events : Record String AnnualEventRecord
  snapshot : Option AnnualFinalSnapshot
  remainingPtPoolRaw : Int
  remainingDrPoolRaw : Int
deriving DecidableEq

namespace AnnualReferenceModel

/-- One turn of the loop over the account ids. -/
def addAccount (accounts : Record String AnnualAccountState) (rawId : String) :
    Thrown (Record String AnnualAccountState) := do
  let id ← checkedAccountId rawId
  demand (accounts.get? id = none) .invalidAccount ("Duplicate account: " ++ id)
  return accounts.set id ⟨0, 0, 0⟩

/-- `constructor`. -/
def new (term : AnnualTermIdentity) (accountIds : List String) : Thrown AnnualReferenceModel := do
  let term ← checkedTermIdentity term
  demand (¬ accountIds.length < 2) .invalidAccount "Reference model requires at least two accounts"
  let accounts ← accountIds.foldlM addAccount ∅
  return {
    term := term
    startSeconds := unixDays term.year 1 1 * 86_400
    maturitySeconds := unixDays (term.year + 1) 1 1 * 86_400
    accountableRaw := 0, ptSupplyRaw := 0, drSupplyRaw := 0
    externallyBurnedPtRaw := 0, externallyBurnedDrRaw := 0
    redeemedPtClaimsRaw := 0, redeemedDrClaimsRaw := 0
    actualCustodyRaw := 0, donationsRaw := 0, custodyBlocked := false
    accounts := accounts, events := ∅, snapshot := none
    remainingPtPoolRaw := 0, remainingDrPoolRaw := 0 }

/-- What custody must cover: the accountable amount, from finalization on the remaining pools. -/
def obligation (s : AnnualReferenceModel) : Int :=
  if s.snapshot.isSome then s.remainingPtPoolRaw + s.remainingDrPoolRaw else s.accountableRaw

/-- One turn of `currentIndex`. -/
def multiplyEvent (year : Int) (index : RationalIndex) (event : AnnualEventRecord) :
    Thrown RationalIndex :=
  match event.exDate with
  | none => .ok index
  | some exDate =>
    if civilYear exDate ≠ year ∨ event.status ≠ .qualified then .ok index
    else do
      let m0 ← parsePositiveDecimal event.m0
      let m1 ← parsePositiveDecimal event.m1
      reduce (index.numerator * m0.numerator * m1.denominator)
        (index.denominator * m0.denominator * m1.numerator)

/-- `currentIndex`. -/
def currentIndex (s : AnnualReferenceModel) : Thrown RationalIndex :=
  (s.events.entries.map Prod.snd).foldlM (multiplyEvent s.term.year) ⟨1, 1⟩

/-- `previewAllocation`. -/
def previewAllocation (s : AnnualReferenceModel) : Thrown AnnualAllocation :=
  match s.snapshot with
  | some snapshot => .ok snapshot.toAnnualAllocation
  | none => do
    let index ← s.currentIndex
    let drPoolRaw :=
      (s.accountableRaw * (index.denominator - index.numerator)).tdiv index.denominator
    return { accountableRaw := s.accountableRaw, index := index
             ptPoolRaw := s.accountableRaw - drPoolRaw, drPoolRaw := drPoolRaw }

/-- `requireAccount`. -/
def requireAccount (s : AnnualReferenceModel) (accountId : String) : Thrown AnnualAccountState := do
  let id ← checkedAccountId accountId
  Result.okOr (s.accounts.get? id) ⟨.invalidAccount, "Unknown account: " ++ id⟩

/-- `requireCustodyAvailable(true)`, as every caller calls it. -/
def requireCustodyAvailable (s : AnnualReferenceModel) : Thrown Unit := do
  demand (s.custodyBlocked = false) .custodyBlocked "Custody operations are blocked"
  demand (¬ s.actualCustodyRaw < s.obligation) .custodyDeficit
    "Actual custody is below accounted obligations"

/-- `validateEvent`. -/
def validateEvent (s : AnnualReferenceModel) (input : AnnualEventRecord) :
    Thrown AnnualEventRecord := do
  let id ← checkedText input.id "Event ID"
  demand (input.revision.natAbs ≤ 2 ^ 53 - 1 ∧ ¬ input.revision < 0) .invalidEvent
    "Event revision must be a non-negative integer"
  let chain ← checkedText input.chain "Event chain"
  let issuer ← checkedText input.issuer "Event issuer"
  let mint ← checkedText input.mint "Event mint"
  demand (chain = s.term.chain ∧ issuer = s.term.issuer ∧ mint = s.term.mint) .invalidEvent
    "Event identity does not match the annual series"
  demand (∀ exDate ∈ input.exDate, validCivilDate exDate = true) .invalidEvent
    "exDate must be a valid exchange civil date in YYYY-MM-DD form"
  let m0 ← parsePositiveDecimal input.m0
  let m1 ← parsePositiveDecimal input.m1
  demand (¬ (compare m1 m0 < 0 ∧ input.status ≠ .pending ∧ input.status ≠ .unsupported))
    .invalidEvent "A multiplier decrease must be rejected or quarantined as unsupported"
  return { input with id := id, chain := chain, issuer := issuer, mint := mint }

/-- `account.ptRaw = …` and the like: the account object of an id is changed in place. -/
def setAccount (s : AnnualReferenceModel) (id : String) (account : AnnualAccountState) :
    AnnualReferenceModel :=
  { s with accounts := s.accounts.set id account }

/-! ## Operations -/

/-- A method of the model. -/
abbrev Operate : Type → Type := Method AnnualReferenceModel AnnualReferenceError

/-- `deposit`. -/
def deposit (accountId : String) (raw nowSeconds : Int) : Operate Unit := do
  let s ← this
  let account ← check (s.requireAccount accountId)
  let amount ← check (checkedRaw raw)
  let now ← check (checkedNow nowSeconds)
  check (demand (s.snapshot = none) .finalized "Series is finalized")
  check (demand (¬ s.startSeconds ≤ now) .depositsClosed
    "Annual deposits close at the start of the calendar year")
  check s.requireCustodyAvailable
  let nextQ ← check (addU64 s.accountableRaw amount)
  let nextPtSupply ← check (addU64 s.ptSupplyRaw amount)
  let nextDrSupply ← check (addU64 s.drSupplyRaw amount)
  let nextCustody ← check (addU64 s.actualCustodyRaw amount)
  let nextPt ← check (addU64 account.ptRaw amount)
  let nextDr ← check (addU64 account.drRaw amount)
  assign fun s => { s with accountableRaw := nextQ }
  assign fun s => { s with ptSupplyRaw := nextPtSupply }
  assign fun s => { s with drSupplyRaw := nextDrSupply }
  assign fun s => { s with actualCustodyRaw := nextCustody }
  assign fun s => s.setAccount accountId { account with ptRaw := nextPt, drRaw := nextDr }

/-- What `recordEvent` returns. -/
inductive Recorded
  | accepted
  | idempotent
deriving DecidableEq

/-- `recordEvent`. Two records have the same canonical text if they are equal. -/
def recordEvent (input : AnnualEventRecord) : Operate Recorded := do
  let s ← this
  check (demand (s.snapshot = none) .postFinalizedAmendment "Finalized pools cannot be repriced")
  let record ← check (s.validateEvent input)
  match s.events.get? record.id with
  | some previous =>
    if record = previous then pure .idempotent
    else do
      check (demand (¬ record.revision ≤ previous.revision) .revisionConflict
        "Event correction must have a strictly higher revision")
      assign fun s => { s with events := s.events.set record.id record }
      pure .accepted
  | none => do
    check (demand (¬ MAX_EVENT_IDS ≤ s.events.entries.length) .eventLimit
      "Annual journal supports at most 64 unique event IDs")
    assign fun s => { s with events := s.events.set record.id record }
    pure .accepted

/-- `transfer`. -/
def transfer (fromId toId : String) (side : AnnualClaimSide) (raw : Int) : Operate Unit := do
  let s ← this
  let source ← check (s.requireAccount fromId)
  let target ← check (s.requireAccount toId)
  let amount ← check (checkedRaw raw)
  check (demand (fromId ≠ toId) .invalidAccount "Transfer accounts must differ")
  check (demand (¬ source.claims side < amount) .insufficientBalance "Insufficient claim balance")
  let nextTo ← check (addU64 (target.claims side) amount)
  assign fun s => s.setAccount fromId (source.setClaims side (source.claims side - amount))
  assign fun s => s.setAccount toId (target.setClaims side nextTo)

/-- `recombine`. -/
def recombine (accountId : String) (raw : Int) : Operate Unit := do
  let s ← this
  check (demand (s.snapshot = none) .finalized "Paired recombination ends at finalization")
  let account ← check (s.requireAccount accountId)
  let amount ← check (checkedRaw raw)
  check (demand (¬ (account.ptRaw < amount ∨ account.drRaw < amount)) .insufficientBalance
    "Recombination requires matching owned PT and DR")
  check s.requireCustodyAvailable
  let nextCollateral ← check (addU64 account.collateralRaw amount)
  assign fun s => s.setAccount accountId
    { collateralRaw := nextCollateral, ptRaw := account.ptRaw - amount
      drRaw := account.drRaw - amount }
  assign fun s => { s with ptSupplyRaw := s.ptSupplyRaw - amount }
  assign fun s => { s with drSupplyRaw := s.drSupplyRaw - amount }
  assign fun s => { s with accountableRaw := s.accountableRaw - amount }
  assign fun s => { s with actualCustodyRaw := s.actualCustodyRaw - amount }

/-- `burn`. The counter of burned claims is checked after balance and supply were changed. -/
def burn (accountId : String) (side : AnnualClaimSide) (raw : Int) : Operate Unit := do
  let s ← this
  let account ← check (s.requireAccount accountId)
  let amount ← check (checkedRaw raw)
  check (demand (¬ account.claims side < amount) .insufficientBalance "Insufficient claim balance")
  assign fun s => s.setAccount accountId (account.setClaims side (account.claims side - amount))
  match side with
  | .pt => do
    assign fun s => { s with ptSupplyRaw := s.ptSupplyRaw - amount }
    let burned ← check (addU64 s.externallyBurnedPtRaw amount)
    assign fun s => { s with externallyBurnedPtRaw := burned }
  | .dr => do
    assign fun s => { s with drSupplyRaw := s.drSupplyRaw - amount }
    let burned ← check (addU64 s.externallyBurnedDrRaw amount)
    assign fun s => { s with externallyBurnedDrRaw := burned }

/-- The journal's part of `finalize`, for one event. -/
def closable (event : AnnualEventRecord) : Thrown Unit := do
  demand (event.exDate ≠ none) .incompleteJournal
    ("Event " ++ event.id ++ " has no validated ex-date")
  demand (event.finalized = true) .incompleteJournal ("Event " ++ event.id ++ " is not final")
  demand (¬ (event.status = .pending ∨ event.status = .unsupported)) .incompleteJournal
    ("Event " ++ event.id ++ " remains " ++ event.status.text)

/-- `finalize`. -/
def finalize (nowSeconds : Int) (ledgerComplete : Bool) : Operate AnnualFinalSnapshot := do
  let s ← this
  let now ← check (checkedNow nowSeconds)
  check (demand (s.snapshot = none) .finalized "Series is already finalized")
  check (demand (¬ now < s.maturitySeconds) .notMature "Annual series has not reached maturity")
  check (demand (ledgerComplete = true) .incompleteJournal
    "A complete journal attestation is required")
  check ((s.events.entries.map Prod.snd).forM closable)
  check s.requireCustodyAvailable
  let allocation ← check s.previewAllocation
  let snapshot : AnnualFinalSnapshot :=
    { allocation with supplyDenominatorRaw := s.accountableRaw }
  assign fun s => { s with snapshot := some snapshot }
  assign fun s => { s with remainingPtPoolRaw := snapshot.ptPoolRaw }
  assign fun s => { s with remainingDrPoolRaw := snapshot.drPoolRaw }
  pure snapshot

/-- `previewRedemption`. -/
def previewRedemption (s : AnnualReferenceModel) (accountId : String) (side : AnnualClaimSide)
    (raw : Int) : Thrown Int := do
  let account ← s.requireAccount accountId
  let amount ← checkedRaw raw
  let snapshot ← Result.okOr s.snapshot
    ⟨.notMature, "Redemption requires a finalized annual journal"⟩
  demand (¬ account.claims side < amount) .insufficientBalance "Insufficient claim balance"
  let denominator := snapshot.supplyDenominatorRaw
  if denominator = 0 then return 0
  else
    let pool := match side with
      | .pt => snapshot.ptPoolRaw
      | .dr => snapshot.drPoolRaw
    let burned := match side with
      | .pt => s.redeemedPtClaimsRaw
      | .dr => s.redeemedDrClaimsRaw
    return ((burned + amount) * pool).tdiv denominator - (burned * pool).tdiv denominator

/-- `redeem`. The counter of redeemed claims is checked after balance and supply were changed. -/
def redeem (accountId : String) (side : AnnualClaimSide) (raw : Int) (allowZero : Bool) :
    Operate Int := do
  let s ← this
  let account ← check (s.requireAccount accountId)
  let amount ← check (checkedRaw raw)
  let payout ← check (s.previewRedemption accountId side amount)
  check (demand (¬ (payout = 0 ∧ allowZero = false)) .zeroPayout
    "Zero-output claim closure requires explicit allowZero consent")
  check s.requireCustodyAvailable
  let nextCollateral ← check (addU64 account.collateralRaw payout)
  match side with
  | .pt => do
    check (demand (¬ s.remainingPtPoolRaw < payout) .custodyDeficit "PT pool is insufficient")
    assign fun s => s.setAccount accountId { account with ptRaw := account.ptRaw - amount }
    assign fun s => { s with ptSupplyRaw := s.ptSupplyRaw - amount }
    -- The claims are taken by now: a refusal here would not give them back.
    let redeemed ← check (addU64 s.redeemedPtClaimsRaw amount)
    assign fun s => { s with redeemedPtClaimsRaw := redeemed }
    assign fun s => { s with remainingPtPoolRaw := s.remainingPtPoolRaw - payout }
  | .dr => do
    check (demand (¬ s.remainingDrPoolRaw < payout) .custodyDeficit "DR pool is insufficient")
    assign fun s => s.setAccount accountId { account with drRaw := account.drRaw - amount }
    assign fun s => { s with drSupplyRaw := s.drSupplyRaw - amount }
    let redeemed ← check (addU64 s.redeemedDrClaimsRaw amount)
    assign fun s => { s with redeemedDrClaimsRaw := redeemed }
    assign fun s => { s with remainingDrPoolRaw := s.remainingDrPoolRaw - payout }
  assign fun s => s.setAccount accountId
    { account.setClaims side (account.claims side - amount) with collateralRaw := nextCollateral }
  assign fun s => { s with actualCustodyRaw := s.actualCustodyRaw - payout }
  pure payout

/-- `donate`. -/
def donate (raw : Int) : Operate Unit := do
  let s ← this
  let amount ← check (checkedRaw raw)
  let nextActual ← check (addU64 s.actualCustodyRaw amount)
  let nextDonations ← check (addU64 s.donationsRaw amount)
  assign fun s => { s with actualCustodyRaw := nextActual }
  assign fun s => { s with donationsRaw := nextDonations }

/-- `setCustodyBlocked`. -/
def setCustodyBlocked (blocked : Bool) : Operate Unit :=
  assign fun s => { s with custodyBlocked := blocked }

/-- `reportActualCustody`. -/
def reportActualCustody (raw : Int) : Operate Unit := do
  let amount ← check (checkedRaw raw true)
  assign fun s => { s with actualCustodyRaw := amount }

end AnnualReferenceModel

/-- An operation with its arguments. -/
inductive Operation
  | deposit (accountId : String) (raw nowSeconds : Int)
  | recordEvent (input : AnnualEventRecord)
  | transfer (fromId toId : String) (side : AnnualClaimSide) (raw : Int)
  | recombine (accountId : String) (raw : Int)
  | burn (accountId : String) (side : AnnualClaimSide) (raw : Int)
  | finalize (nowSeconds : Int) (ledgerComplete : Bool)
  | redeem (accountId : String) (side : AnnualClaimSide) (raw : Int) (allowZero : Bool)
  | donate (raw : Int)
  | setCustodyBlocked (blocked : Bool)
  | reportActualCustody (raw : Int)

/-- What an operation returns. -/
inductive Returned
  | nothing
  | recorded (r : AnnualReferenceModel.Recorded)
  | snapshot (f : AnnualFinalSnapshot)
  | payout (raw : Int)
deriving DecidableEq

open AnnualReferenceModel in
/-- Carry an operation out. -/
def Operation.apply : Operation → Operate Returned
  | .deposit accountId raw nowSeconds => do
    AnnualReferenceModel.deposit accountId raw nowSeconds
    pure .nothing
  | .recordEvent input => do
    let r ← AnnualReferenceModel.recordEvent input
    pure (.recorded r)
  | .transfer fromId toId side raw => do
    AnnualReferenceModel.transfer fromId toId side raw
    pure .nothing
  | .recombine accountId raw => do
    AnnualReferenceModel.recombine accountId raw
    pure .nothing
  | .burn accountId side raw => do
    AnnualReferenceModel.burn accountId side raw
    pure .nothing
  | .finalize nowSeconds ledgerComplete => do
    let f ← AnnualReferenceModel.finalize nowSeconds ledgerComplete
    pure (.snapshot f)
  | .redeem accountId side raw allowZero => do
    let payout ← AnnualReferenceModel.redeem accountId side raw allowZero
    pure (.payout payout)
  | .donate raw => do
    AnnualReferenceModel.donate raw
    pure .nothing
  | .setCustodyBlocked blocked => do
    AnnualReferenceModel.setCustodyBlocked blocked
    pure .nothing
  | .reportActualCustody raw => do
    AnnualReferenceModel.reportActualCustody raw
    pure .nothing

/-- The state after a sequence of operations, whether they returned or threw. -/
def afterAll (s : AnnualReferenceModel) (operations : List Operation) : AnnualReferenceModel :=
  operations.foldl (fun s operation => (operation.apply s).2) s

end AnnualReference

end DividendX
