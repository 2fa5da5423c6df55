import DividendX.Lib.Result
import Mathlib.Data.Int.Order.Basic
import Mathlib.Logic.Relation
import Mathlib.Tactic.Linarith
import Mathlib.Tactic.Ring

/-!
# The accounting checks of the AMM integration

`accounting.ts` of `packages/amm-integration`: what is checked of the balances before and after each
step of the flow. A `bigint` is an integer, a `controlledTotal` that is `undefined` is `none`.

A swap and a withdrawal check conservation of the state after them; a recombination only compares.
Each of the three moves no backing on its own (`Accepted.backed`), and the residual that a
withdrawal is checked against is the other side of the provider's floor (`floor_add_ceilDiv`).
-/

namespace DividendX

namespace Amm

/-- `AmmIntegrationError`. -/
structure AmmIntegrationError where
  code : String
  message : String
deriving DecidableEq

/-- A check that may throw. -/
abbrev Checked (α : Type) := Except AmmIntegrationError α

/-- `invariant`. -/
def invariant (condition : Prop) [Decidable condition] (code : String) : Checked Unit :=
  Result.require condition ⟨code, code⟩

@[simp] theorem invariant_eq_ok {p : Prop} [Decidable p] {code : String} {u : Unit} :
    invariant p code = .ok u ↔ p :=
  Result.require_eq_ok

/-! ## Balances -/

structure CollateralBalances where
  provider : Int
  vault : Int
  supply : Int
deriving DecidableEq

structure PtBalances where
  provider : Int
  otherKnown : Int
  supply : Int
deriving DecidableEq

/-- What the pool holds of a token, with the fees in it. -/
structure PoolBalances where
  poolVault : Int
  poolProtocolFees : Int
  poolFundFees : Int
  poolCreatorFees : Int
deriving DecidableEq

structure DrBalances extends PoolBalances where
  provider : Int
  buyer : Int
  otherKnown : Int
  supply : Int
deriving DecidableEq

structure QuoteBalances extends PoolBalances where
  provider : Int
  buyer : Int
  otherKnown : Int
  supply : Int
  controlledTotal : Option Int
deriving DecidableEq

structure LpBalances where
  provider : Int
  mintSupply : Int
  internalPoolLpAmount : Int
deriving DecidableEq

/-- `AssetBalances`. -/
structure AssetBalances where
  collateral : CollateralBalances
  pt : PtBalances
  dr : DrBalances
  testQuote : QuoteBalances
  lp : LpBalances
deriving DecidableEq

namespace AssetBalances

variable (value : AssetBalances)

/-- The amounts that must not be negative. -/
def amounts : List Int :=
  [value.collateral.provider, value.collateral.vault, value.collateral.supply,
    value.pt.provider, value.pt.otherKnown, value.pt.supply,
    value.dr.provider, value.dr.buyer, value.dr.poolVault, value.dr.poolProtocolFees,
    value.dr.poolFundFees, value.dr.poolCreatorFees, value.dr.otherKnown, value.dr.supply,
    value.testQuote.provider, value.testQuote.buyer, value.testQuote.poolVault,
    value.testQuote.poolProtocolFees,
    value.testQuote.poolFundFees, value.testQuote.poolCreatorFees, value.testQuote.otherKnown,
    value.testQuote.supply, value.lp.provider, value.lp.mintSupply, value.lp.internalPoolLpAmount]

/-- No amount is negative. -/
def Nonnegative : Prop :=
  (∀ amount ∈ value.amounts, 0 ≤ amount) ∧ ∀ total,
    value.testQuote.controlledTotal = some total → 0 ≤ total

/-- `controlledTotal ?? supply`. -/
def quoteTotal : Int := value.testQuote.controlledTotal.getD value.testQuote.supply

end AssetBalances

/-! ## The checks -/

/-- The controlled total, when there is one. -/
def assertControlledTotal (value : AssetBalances) : Checked Unit :=
  match value.testQuote.controlledTotal with
  | some total => invariant (0 ≤ total) "NEGATIVE_ACCOUNTING_VALUE"
  | none => pure ()

/-- `assertControlledConservation`. -/
def assertControlledConservation (value : AssetBalances) : Checked Unit := do
  value.amounts.forM fun amount => invariant (0 ≤ amount) "NEGATIVE_ACCOUNTING_VALUE"
  assertControlledTotal value
  invariant (value.collateral.provider + value.collateral.vault = value.collateral.supply)
    "COLLATERAL_CONSERVATION_FAILED"
  invariant (value.pt.provider + value.pt.otherKnown = value.pt.supply) "PT_CONSERVATION_FAILED"
  invariant (value.dr.provider + value.dr.buyer + value.dr.poolVault + value.dr.otherKnown
    = value.dr.supply)
    "DR_CONSERVATION_FAILED"
  let controlledQuote :=
    value.testQuote.provider + value.testQuote.buyer + value.testQuote.poolVault
    + value.testQuote.otherKnown
  invariant (controlledQuote = value.quoteTotal) "QUOTE_CONSERVATION_FAILED"

/-- `sameQuoteScope`. -/
def sameQuoteScope (before after : AssetBalances) : Bool :=
  if before.testQuote.controlledTotal ≠ none ∨ after.testQuote.controlledTotal ≠ none then
    before.testQuote.controlledTotal ≠ none
      ∧ before.testQuote.controlledTotal = after.testQuote.controlledTotal
  else before.testQuote.supply = after.testQuote.supply

/-- `assertPrefinalBacking`. -/
def assertPrefinalBacking (value : AssetBalances) : Checked Unit := do
  assertControlledConservation value
  invariant (value.collateral.vault = value.pt.supply ∧ value.pt.supply = value.dr.supply)
    "PREFINAL_BACKING_FAILED"

/-- `ExactSwapExpectation`. -/
structure ExactSwapExpectation where
  inputQuote : Int
  outputDr : Int
  minimumDr : Int
  protocolFee : Int
  fundFee : Int

/-- `assertSwapDelta`. -/
def assertSwapDelta (before after : AssetBalances) (expected : ExactSwapExpectation) :
    Checked Int := do
  let received := after.dr.buyer - before.dr.buyer
  invariant (received = expected.outputDr ∧ received ≥ expected.minimumDr
    ∧ before.testQuote.buyer - after.testQuote.buyer = expected.inputQuote) "SWAP_DELTA_FAILED"
  invariant (before.dr.poolVault - after.dr.poolVault = received
    ∧ after.testQuote.poolVault - before.testQuote.poolVault = expected.inputQuote
    ∧ after.testQuote.poolProtocolFees - before.testQuote.poolProtocolFees = expected.protocolFee
    ∧ after.testQuote.poolFundFees - before.testQuote.poolFundFees = expected.fundFee
    ∧ after.testQuote.poolCreatorFees = before.testQuote.poolCreatorFees
    ∧ after.dr.poolProtocolFees = before.dr.poolProtocolFees
    ∧ after.dr.poolFundFees = before.dr.poolFundFees
    ∧ after.dr.poolCreatorFees = before.dr.poolCreatorFees
    ∧ after.dr.provider = before.dr.provider ∧ after.dr.otherKnown = before.dr.otherKnown
    ∧ after.dr.supply = before.dr.supply
    ∧ after.testQuote.provider = before.testQuote.provider
    ∧ after.testQuote.otherKnown = before.testQuote.otherKnown
    ∧ sameQuoteScope before after
    ∧ after.pt.provider = before.pt.provider ∧ after.pt.otherKnown = before.pt.otherKnown
    ∧ after.pt.supply = before.pt.supply
    ∧ after.collateral.provider = before.collateral.provider
    ∧ after.collateral.vault = before.collateral.vault
    ∧ after.collateral.supply = before.collateral.supply
    ∧ after.lp.provider = before.lp.provider ∧ after.lp.mintSupply = before.lp.mintSupply
    ∧ after.lp.internalPoolLpAmount = before.lp.internalPoolLpAmount) "SWAP_DELTA_FAILED"
  assertControlledConservation before
  assertControlledConservation after
  return received

/-- `assertRecombineDelta`. -/
def assertRecombineDelta (before after : AssetBalances) (amount : Int) : Checked Unit := do
  invariant (0 < amount) "RECOMBINE_AMOUNT_INVALID"
  invariant (after.collateral.provider - before.collateral.provider = amount
    ∧ before.collateral.vault - after.collateral.vault = amount
    ∧ before.pt.provider - after.pt.provider = amount
    ∧ before.dr.provider - after.dr.provider = amount
    ∧ before.pt.supply - after.pt.supply = amount
    ∧ before.dr.supply - after.dr.supply = amount
    ∧ after.collateral.supply = before.collateral.supply) "RECOMBINE_DELTA_FAILED"
  invariant (after.dr.buyer = before.dr.buyer ∧ after.dr.poolVault = before.dr.poolVault
    ∧ after.testQuote.provider = before.testQuote.provider
    ∧ after.testQuote.buyer = before.testQuote.buyer
    ∧ after.testQuote.poolVault = before.testQuote.poolVault
    ∧ after.pt.otherKnown = before.pt.otherKnown ∧ after.dr.otherKnown = before.dr.otherKnown
    ∧ after.testQuote.otherKnown = before.testQuote.otherKnown
    ∧ sameQuoteScope before after
    ∧ after.dr.poolProtocolFees = before.dr.poolProtocolFees
    ∧ after.dr.poolFundFees = before.dr.poolFundFees
    ∧ after.dr.poolCreatorFees = before.dr.poolCreatorFees
    ∧ after.testQuote.poolProtocolFees = before.testQuote.poolProtocolFees
    ∧ after.testQuote.poolFundFees = before.testQuote.poolFundFees
    ∧ after.testQuote.poolCreatorFees = before.testQuote.poolCreatorFees
    ∧ after.lp.provider = before.lp.provider ∧ after.lp.mintSupply = before.lp.mintSupply
    ∧ after.lp.internalPoolLpAmount
      = before.lp.internalPoolLpAmount) "RECOMBINE_UNRELATED_BALANCE_CHANGED"

/-- `assertWithdrawBoundary`. -/
def assertWithdrawBoundary (value : AssetBalances) : Checked Unit := do
  invariant (value.lp.provider = 0 ∧ value.lp.mintSupply = 0) "PROVIDER_LP_REMAINS"
  invariant (value.lp.internalPoolLpAmount = 100 ∧ 0 < value.dr.poolVault
    ∧ 0 < value.testQuote.poolVault)
    "LOCKED_LIQUIDITY_BOUNDARY_MISSING"

/-- `ceilDiv`. -/
def ceilDiv (numerator denominator : Int) : Checked Int := do
  invariant (0 ≤ numerator ∧ 0 < denominator) "WITHDRAW_ACCOUNTING_INVALID"
  return (numerator + denominator - 1).tdiv denominator

/-- The fees in the pool. -/
def PoolBalances.fees (value : PoolBalances) : Int :=
  value.poolProtocolFees + value.poolFundFees + value.poolCreatorFees

/-- `feeExcluded`. -/
def feeExcluded (value : PoolBalances) : Checked Int := do
  let result := value.poolVault - value.poolProtocolFees - value.poolFundFees
    - value.poolCreatorFees
  invariant (0 ≤ result) "WITHDRAW_ACCOUNTING_INVALID"
  return result

/-- What a withdrawal leaves in the pool: `ceilDiv(100n * feeExcluded(..), lp) + fees`. -/
def expectedResidual (value : PoolBalances) (internalPoolLpAmount : Int) : Checked Int := do
  let excluded ← feeExcluded value
  let residual ← ceilDiv (100 * excluded) internalPoolLpAmount
  return residual + value.fees

/-- `assertSoleProviderWithdrawal`. -/
def assertSoleProviderWithdrawal (before after : AssetBalances) : Checked Unit := do
  let burned := before.lp.provider
  invariant
    (0 < burned ∧ before.lp.mintSupply = burned ∧ before.lp.internalPoolLpAmount = burned + 100)
    "WITHDRAW_ACCOUNTING_INVALID"
  assertWithdrawBoundary after
  let expectedDr ← expectedResidual before.dr.toPoolBalances before.lp.internalPoolLpAmount
  let expectedQuote ← expectedResidual before.testQuote.toPoolBalances
    before.lp.internalPoolLpAmount
  invariant (after.dr.poolVault = expectedDr ∧ after.testQuote.poolVault = expectedQuote)
    "WITHDRAW_RESIDUAL_MISMATCH"
  invariant (after.dr.provider - before.dr.provider = before.dr.poolVault - after.dr.poolVault
    ∧ after.testQuote.provider - before.testQuote.provider
      = before.testQuote.poolVault - after.testQuote.poolVault) "WITHDRAW_DELTA_FAILED"
  invariant (after.lp.internalPoolLpAmount = before.lp.internalPoolLpAmount - burned
    ∧ after.dr.poolProtocolFees = before.dr.poolProtocolFees
    ∧ after.dr.poolFundFees = before.dr.poolFundFees
    ∧ after.dr.poolCreatorFees = before.dr.poolCreatorFees
    ∧ after.testQuote.poolProtocolFees = before.testQuote.poolProtocolFees
    ∧ after.testQuote.poolFundFees = before.testQuote.poolFundFees
    ∧ after.testQuote.poolCreatorFees = before.testQuote.poolCreatorFees
    ∧ after.dr.buyer = before.dr.buyer ∧ after.dr.otherKnown = before.dr.otherKnown
    ∧ after.dr.supply = before.dr.supply
    ∧ after.testQuote.buyer = before.testQuote.buyer
    ∧ after.testQuote.otherKnown = before.testQuote.otherKnown
    ∧ sameQuoteScope before after
    ∧ after.pt.provider = before.pt.provider ∧ after.pt.supply = before.pt.supply
    ∧ after.collateral.provider = before.collateral.provider
    ∧ after.collateral.vault = before.collateral.vault
    ∧ after.collateral.supply = before.collateral.supply) "WITHDRAW_UNRELATED_BALANCE_CHANGED"
  assertControlledConservation after

/-! ## What the checks say -/

/-- Every token is where the checks look for it, and no amount is negative. -/
structure Conserved (value : AssetBalances) : Prop where
  nonnegative : value.Nonnegative
  collateral : value.collateral.provider + value.collateral.vault = value.collateral.supply
  pt : value.pt.provider + value.pt.otherKnown = value.pt.supply
  dr : value.dr.provider + value.dr.buyer + value.dr.poolVault + value.dr.otherKnown
    = value.dr.supply
  quote : value.testQuote.provider + value.testQuote.buyer + value.testQuote.poolVault
    + value.testQuote.otherKnown = value.quoteTotal

/-- The vault holds one unit of collateral for each pair of claims. -/
structure Backed (value : AssetBalances) : Prop where
  conserved : Conserved value
  pt : value.collateral.vault = value.pt.supply
  dr : value.pt.supply = value.dr.supply

theorem assertControlledTotal_eq_ok {value : AssetBalances} {u : Unit} :
    assertControlledTotal value = .ok u ↔ ∀ total, value.testQuote.controlledTotal = some total →
      0 ≤ total := by
  rw [assertControlledTotal]
  cases value.testQuote.controlledTotal with
  | none => exact iff_of_true rfl fun _ h => by cases h
  | some total => simp

theorem assertControlledConservation_eq_ok {value : AssetBalances} {u : Unit} :
    assertControlledConservation value = .ok u ↔ Conserved value := by
  simp only [assertControlledConservation, Result.bind_eq_ok, Result.exists_unit, Result.forM_eq_ok,
    invariant_eq_ok, assertControlledTotal_eq_ok]
  constructor
  · rintro ⟨hamounts, htotal, hcollateral, hpt, hdr, hquote⟩
    exact ⟨⟨hamounts, htotal⟩, hcollateral, hpt, hdr, hquote⟩
  · rintro ⟨⟨hamounts, htotal⟩, hcollateral, hpt, hdr, hquote⟩
    exact ⟨hamounts, htotal, hcollateral, hpt, hdr, hquote⟩

theorem assertPrefinalBacking_eq_ok {value : AssetBalances} {u : Unit} :
    assertPrefinalBacking value = .ok u ↔ Backed value := by
  simp only [assertPrefinalBacking, Result.bind_eq_ok, Result.exists_unit, invariant_eq_ok,
    assertControlledConservation_eq_ok]
  exact ⟨fun ⟨hconserved, hpt, hdr⟩ => ⟨hconserved, hpt, hdr⟩,
    fun ⟨hconserved, hpt, hdr⟩ => ⟨hconserved, hpt, hdr⟩⟩

/-- The same scope: the total that the quote is conserved against does not move. -/
theorem quoteTotal_eq_of_sameQuoteScope {before after : AssetBalances}
    (h : sameQuoteScope before after = true) :
    after.quoteTotal = before.quoteTotal := by
  simp only [sameQuoteScope] at h
  split at h
  · obtain ⟨-, hsame⟩ := of_decide_eq_true h
    obtain ⟨total, htotal⟩ := Option.ne_none_iff_exists'.mp (of_decide_eq_true h).1
    simp only [AssetBalances.quoteTotal, ← hsame, htotal, Option.getD_some]
  · rename_i hnone
    have hnone := not_or.mp hnone
    simp only [not_not] at hnone
    simp only [AssetBalances.quoteTotal, hnone, Option.getD_none]
    exact (of_decide_eq_true h).symm

/-! ## Accepted steps -/

/-- One of the three checks accepts the pair. -/
inductive Accepted (before after : AssetBalances) : Prop
  | swap (expected : ExactSwapExpectation) (received : Int) :
      assertSwapDelta before after expected = .ok received → Accepted before after
  | recombine (amount : Int) : assertRecombineDelta before after amount = .ok () →
    Accepted before after
  | withdrawal : assertSoleProviderWithdrawal before after = .ok () → Accepted before after

/-- A swap moves DR and quote between the buyer and the pool, and nothing else. -/
theorem swap_backed {before after : AssetBalances} {expected : ExactSwapExpectation}
    {received : Int}
    (h : Backed before) (haccepted : assertSwapDelta before after expected = .ok received) :
    Backed after := by
  simp only [assertSwapDelta, Result.bind_eq_ok, Result.exists_unit, invariant_eq_ok,
    assertControlledConservation_eq_ok] at haccepted
  obtain ⟨-, ⟨-, -, -, -, -, -, -, -, -, -, hdr, -, -, -, -, -, hpt, -, hvault, -⟩, -, hafter, -⟩ :=
    haccepted
  refine ⟨hafter, ?_, ?_⟩
  · rw [hvault, hpt]
    exact h.pt
  · rw [hpt, hdr]
    exact h.dr

/-- A recombination takes the same amount out of the vault and of both supplies. -/
theorem recombine_backed {before after : AssetBalances} {amount : Int} (h : Backed before)
    (hnonnegative : after.Nonnegative)
    (haccepted : assertRecombineDelta before after amount = .ok ()) :
    Backed after := by
  simp only [assertRecombineDelta, Result.bind_eq_ok, Result.exists_unit,
    invariant_eq_ok] at haccepted
  obtain ⟨-, ⟨hprovider, hvault, hptProvider, hdrProvider, hptSupply, hdrSupply, hcollateral⟩,
    hbuyer, hpool, hquoteProvider, hquoteBuyer, hquotePool, hptOther, hdrOther, hquoteOther,
    hscope, -⟩ := haccepted
  obtain ⟨⟨-, hcollateral', hpt', hdr', hquote'⟩, hbackedPt, hbackedDr⟩ := h
  have htotal := quoteTotal_eq_of_sameQuoteScope hscope
  refine ⟨⟨hnonnegative, ?_, ?_, ?_, ?_⟩, ?_, ?_⟩
  · omega
  · omega
  · omega
  · rw [hquoteProvider, hquoteBuyer, hquotePool, hquoteOther, htotal]
    exact hquote'
  · omega
  · omega

/-- A withdrawal leaves both supplies and the vault as they are. -/
theorem withdrawal_backed {before after : AssetBalances} (h : Backed before)
    (haccepted : assertSoleProviderWithdrawal before after = .ok ()) : Backed after := by
  simp only [assertSoleProviderWithdrawal, Result.bind_eq_ok, Result.exists_unit, invariant_eq_ok,
    assertControlledConservation_eq_ok] at haccepted
  obtain ⟨-, -, _, -, _, -, -, -, ⟨-, -, -, -, -, -, -, -, -, hdr, -, -, -, -, hpt, -, hvault, -⟩,
    hafter⟩ := haccepted
  refine ⟨hafter, ?_, ?_⟩
  · rw [hvault, hpt]
    exact h.pt
  · rw [hpt, hdr]
    exact h.dr

/-- **One accepted step** keeps the backing. -/
theorem Accepted.backed {before after : AssetBalances} (h : Backed before)
    (hnonnegative : after.Nonnegative)
    (haccepted : Accepted before after) : Backed after := by
  cases haccepted with
  | swap expected received hswap => exact swap_backed h hswap
  | recombine amount hrecombine => exact recombine_backed h hnonnegative hrecombine
  | withdrawal hwithdrawal => exact withdrawal_backed h hwithdrawal

/-- Any number of accepted steps, through balances that are not negative. -/
def Steps : AssetBalances → AssetBalances → Prop :=
  Relation.ReflTransGen fun before after => after.Nonnegative ∧ Accepted before after

theorem Steps.backed {start s : AssetBalances} (h : Backed start)
    (hsteps : Steps start s) : Backed s := by
  induction hsteps with
  | refl => exact h
  | tail _ hstep ih => exact hstep.2.backed ih hstep.1

/-! ## What a withdrawal pays -/

/-- `floor(lp * (poolVault - fees) / (lp + 100))`: the provider's share of a pool. -/
def share (pool : PoolBalances) (lp : Int) : Int := lp * (pool.poolVault - pool.fees) / (lp + 100)

/-- The floor of one part and the ceiling of the other make up the whole. -/
theorem floor_add_ceilDiv {lp excluded residual : Int}
    (h : ceilDiv (100 * excluded) (lp + 100) = .ok residual) :
    lp * excluded / (lp + 100) + residual = excluded := by
  simp only [ceilDiv, Result.bind_eq_ok, Result.exists_unit, invariant_eq_ok,
    Result.pure_eq_ok] at h
  obtain ⟨⟨hnumerator, hdenominator⟩, rfl⟩ := h
  rw [Int.tdiv_eq_ediv_of_nonneg (by omega)]
  -- the ceiling is the floor of the negation
  have hsum : 100 * excluded + (lp + 100) - 1 = -(lp * excluded) - 1
      + (lp + 100) * (excluded + 1) := by ring
  rw [hsum, Int.add_mul_ediv_left _ _ hdenominator.ne']
  have hneg : (-(lp * excluded) - 1) / (lp + 100) = -(lp * excluded / (lp + 100)) - 1 := by
    rw [Int.ediv_eq_iff_of_pos hdenominator]
    have hdiv := Int.ediv_mul_add_emod (lp * excluded) (lp + 100)
    have hlow := Int.emod_nonneg (lp * excluded) hdenominator.ne'
    have hhigh := Int.emod_lt_of_pos (lp * excluded) hdenominator
    constructor
    · linarith
    · linarith
  rw [hneg]
  ring

/-- What is left in a pool is what the provider is not paid. -/
theorem expectedResidual_eq_ok {pool : PoolBalances} {lp residual : Int}
    (h : expectedResidual pool (lp + 100) = .ok residual) :
    pool.poolVault - residual = share pool lp ∧ pool.fees ≤ residual := by
  simp only [expectedResidual, feeExcluded, Result.bind_eq_ok, Result.exists_unit, invariant_eq_ok,
    Result.pure_eq_ok] at h
  obtain ⟨excluded, ⟨hnonneg, rfl⟩, left, hleft, rfl⟩ := h
  have hfloor := floor_add_ceilDiv hleft
  have hexcluded : pool.poolVault - pool.poolProtocolFees - pool.poolFundFees - pool.poolCreatorFees
      = pool.poolVault - pool.fees := by
    rw [PoolBalances.fees]
    ring
  rw [hexcluded] at hfloor hnonneg hleft
  simp only [ceilDiv, Result.bind_eq_ok, Result.exists_unit, invariant_eq_ok,
    Result.pure_eq_ok] at hleft
  obtain ⟨⟨-, hdenominator⟩, hleft⟩ := hleft
  have hnonnegLeft : 0 ≤ left := by
    rw [← hleft]
    exact Int.tdiv_nonneg (by omega) hdenominator.le
  constructor
  · rw [share]
    omega
  · omega

/-- The provider is paid this much of a token, and the fees stay in the pool. -/
structure Pays (lp : Int) (before after : PoolBalances)
    (providerBefore providerAfter : Int) : Prop where
  paid : providerAfter - providerBefore = share before lp
  left : before.poolVault - after.poolVault = share before lp
  fees : after.poolProtocolFees = before.poolProtocolFees ∧ after.poolFundFees = before.poolFundFees
    ∧ after.poolCreatorFees = before.poolCreatorFees
  covered : after.fees ≤ after.poolVault

/-- **The accounting checks.** A pair that one of them accepts keeps the exact backing, so every
state that is reached by accepted steps has it; and a withdrawal that is accepted pays the provider
the floor of its share of each token and leaves the fees in the pool. -/
theorem accounting_backed_and_prorata :
    (∀ before after, assertPrefinalBacking before = .ok () → after.Nonnegative →
      Accepted before after → assertPrefinalBacking after = .ok ())
    ∧ (∀ start s, assertPrefinalBacking start = .ok () → Steps start s →
      assertPrefinalBacking s = .ok ())
    ∧ ∀ before after, assertSoleProviderWithdrawal before after = .ok () →
      after.lp.provider = 0
      ∧ Pays before.lp.provider before.dr.toPoolBalances after.dr.toPoolBalances
        before.dr.provider after.dr.provider
      ∧ Pays before.lp.provider before.testQuote.toPoolBalances after.testQuote.toPoolBalances
        before.testQuote.provider after.testQuote.provider := by
  simp only [assertPrefinalBacking_eq_ok]
  refine ⟨fun before after h hnonnegative haccepted => haccepted.backed h hnonnegative,
    fun start s h hsteps => hsteps.backed h, fun before after haccepted => ?_⟩
  simp only [assertSoleProviderWithdrawal, assertWithdrawBoundary,
    Result.bind_eq_ok, Result.exists_unit, invariant_eq_ok] at haccepted
  obtain ⟨⟨-, -, hlp⟩, ⟨⟨hprovider, -⟩, -⟩, dr, hdr, quote, hquote, ⟨hdrVault, hquoteVault⟩,
    ⟨hdrDelta, hquoteDelta⟩,
      ⟨-, hdrProtocol, hdrFund, hdrCreator, hquoteProtocol, hquoteFund, hquoteCreator, -⟩, -⟩ :=
    haccepted
  rw [hlp] at hdr hquote
  obtain ⟨hdrShare, hdrFees⟩ := expectedResidual_eq_ok hdr
  obtain ⟨hquoteShare, hquoteFees⟩ := expectedResidual_eq_ok hquote
  refine ⟨hprovider, ⟨?_, ?_, ⟨hdrProtocol, hdrFund, hdrCreator⟩, ?_⟩,
    ⟨?_, ?_, ⟨hquoteProtocol, hquoteFund, hquoteCreator⟩, ?_⟩⟩
  · rw [hdrDelta, hdrVault]
    exact hdrShare
  · rw [hdrVault]
    exact hdrShare
  · rw [PoolBalances.fees, hdrProtocol, hdrFund, hdrCreator, hdrVault]
    exact hdrFees
  · rw [hquoteDelta, hquoteVault]
    exact hquoteShare
  · rw [hquoteVault]
    exact hquoteShare
  · rw [PoolBalances.fees, hquoteProtocol, hquoteFund, hquoteCreator, hquoteVault]
    exact hquoteFees

/-! ## A swap, a recombination and a withdrawal -/

namespace Sample

/-- 10,000 pairs, the provider's but for the 9,900 DR in the pool; a buyer has 1,000 of the
quote. -/
def minted : AssetBalances where
  collateral := ⟨0, 10000, 10000⟩
  pt := ⟨10000, 0, 10000⟩
  dr := ⟨⟨9900, 0, 0, 0⟩, 100, 0, 0, 10000⟩
  testQuote := ⟨⟨10000, 0, 0, 0⟩, 0, 1000, 0, 11000, none⟩
  lp := ⟨900, 900, 1000⟩

/-- The buyer has bought 900 DR, for fees of 8. -/
def swapped : AssetBalances :=
  { minted with
    dr := ⟨⟨9000, 0, 0, 0⟩, 100, 900, 0, 10000⟩
    testQuote := ⟨⟨11000, 6, 2, 0⟩, 0, 0, 0, 11000, none⟩ }

/-- The provider has recombined 100 pairs. -/
def recombined : AssetBalances :=
  { swapped with
    collateral := ⟨100, 9900, 10000⟩
    pt := ⟨9900, 0, 9900⟩
    dr := ⟨⟨9000, 0, 0, 0⟩, 0, 900, 0, 9900⟩ }

/-- The provider has withdrawn: 9,892 of the 10,992 quote and 8,100 of the 9,000 DR. -/
def withdrawn : AssetBalances :=
  { recombined with
    dr := ⟨⟨900, 0, 0, 0⟩, 8100, 900, 0, 9900⟩
    testQuote := ⟨⟨1108, 6, 2, 0⟩, 9892, 0, 0, 11000, none⟩
    lp := ⟨0, 0, 100⟩ }

/-- None of the steps overdraws anything. -/
theorem nonnegative : swapped.Nonnegative ∧ recombined.Nonnegative ∧ withdrawn.Nonnegative := by
  simp only [AssetBalances.Nonnegative]
  decide

end Sample

open Sample in
/-- The vault backs both supplies after each of the three steps, and the provider is paid its
share. -/
theorem accounting_backed_and_prorata_sample :
    assertPrefinalBacking swapped = .ok () ∧ assertPrefinalBacking recombined = .ok ()
    ∧ Steps minted withdrawn ∧ assertPrefinalBacking withdrawn = .ok ()
    ∧ Pays 900 recombined.dr.toPoolBalances withdrawn.dr.toPoolBalances 0 8100
    ∧ Pays 900 recombined.testQuote.toPoolBalances withdrawn.testQuote.toPoolBalances 0 9892 := by
  obtain ⟨hstep, hrun, hpaid⟩ := accounting_backed_and_prorata
  obtain ⟨hswapped, hrecombined, hwithdrawn⟩ := nonnegative
  have hminted : assertPrefinalBacking minted = .ok () := by decide
  have hswap : Accepted minted swapped := .swap ⟨1000, 900, 890, 6, 2⟩ 900 (by decide)
  have hrecombine : Accepted swapped recombined := .recombine 100 (by decide)
  have hwithdrawal : assertSoleProviderWithdrawal recombined withdrawn = .ok () := by decide
  have hbacked := hstep _ _ hminted hswapped hswap
  have hsteps : Steps minted withdrawn :=
    .tail (.tail (.single ⟨hswapped, hswap⟩) ⟨hrecombined, hrecombine⟩)
      ⟨hwithdrawn, .withdrawal hwithdrawal⟩
  obtain ⟨-, hdr, hquote⟩ := hpaid _ _ hwithdrawal
  exact ⟨hbacked, hstep _ _ hbacked hrecombined hrecombine, hsteps, hrun _ _ hminted hsteps, hdr,
    hquote⟩

end Amm

end DividendX
