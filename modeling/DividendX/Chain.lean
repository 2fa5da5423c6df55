import DividendX.Handlers
import DividendX.Lib.Run
import DividendX.Lib.Tally

/-!
# Histories of the chain

What can happen between two looks at a series: any instruction of the program by anyone with any
accounts, and everything the program does not control. Holders move and burn claims directly,
collateral is donated into vaults, the issuer changes its mint, freezes a vault or takes tokens
out of it with a permanent delegate, other token accounts change at will, the clock advances.

A history is a `Run` of `World.act` from a `Genesis` world, in which the program has no account
yet. Only accepted actions are part of it: a failed transaction changes nothing.
-/

namespace DividendX

variable (host : Host)

/-! ## Instructions -/

/-- The thirteen instructions with their accounts and arguments. -/
inductive Instruction : Type where
  | initializeConfig (upgradeAuthority domain : Bytes32) : Instruction
  | registerAsset (acc : RegisterAssetAccounts) (issuerId : Bytes32) (symbol : String)
      (attestor : Pubkey) (policyDigest : Bytes32) : Instruction
  | setAssetAdmission (acc : SetAssetAdmissionAccounts) (enabled : Bool) : Instruction
  | refreshObservation (acc : RefreshObservationAccounts) (evidenceDigest : Bytes32)
      (validUntil : Int64) : Instruction
  | createSeries (acc : CreateSeriesAccounts) (year : UInt16) : Instruction
  | deposit (acc : PairAccounts) (amount : UInt64) (guard : Guard) : Instruction
  | recombine (acc : PairAccounts) (amount : UInt64) (guard : Guard) : Instruction
  | upsertEvent (acc : UpsertEventAccounts) (input : EventInput) : Instruction
  | beginFinalization (acc : BeginFinalizationAccounts) (expectedJournalVersion : UInt64)
      (expectedJournalHash coverageDigest : Bytes32) : Instruction
  | accumulateEvent (acc : AccumulateEventAccounts) : Instruction
  | completeFinalization (acc : CompleteFinalizationAccounts) : Instruction
  | abortFinalization (acc : AbortFinalizationAccounts) (reasonDigest : Bytes32) : Instruction
  | redeem (acc : RedeemAccounts) (side : RedeemSide) (amount : UInt64) (allowZero : Bool)
      (guard : Guard) : Instruction

/-- Run an instruction. -/
def World.execute (w : World) : Instruction → Outcome World
  | .initializeConfig upgradeAuthority domain => initializeConfig w upgradeAuthority domain
  | .registerAsset acc issuerId symbol attestor policyDigest =>
      registerAsset host w acc issuerId symbol attestor policyDigest
  | .setAssetAdmission acc enabled => setAssetAdmission w acc enabled
  | .refreshObservation acc evidenceDigest validUntil =>
      refreshObservation host w acc evidenceDigest validUntil
  | .createSeries acc year => createSeries host w acc year
  | .deposit acc amount guard => deposit host w acc amount guard
  | .recombine acc amount guard => recombine host w acc amount guard
  | .upsertEvent acc input => upsertEvent host w acc input
  | .beginFinalization acc version hash coverage =>
      beginFinalization host w acc version hash coverage
  | .accumulateEvent acc => accumulateEvent w acc
  | .completeFinalization acc => completeFinalization host w acc
  | .abortFinalization acc reasonDigest => abortFinalization w acc reasonDigest
  | .redeem acc side amount allowZero guard => redeem host w acc side amount allowZero guard

/-! ## What the program does not control -/

/-- The mints of claims sit at addresses only the program derives. -/
def Pubkey.isClaimMint : Pubkey → Bool
  | .pt _ => true
  | .dr _ => true
  | _ => false

/-- The address is the vault of a series. -/
def World.isVault (w : World) : Pubkey → Bool
  | .ata k mint =>
    match w.series k with
    | some s => s.vault == .ata k mint
    | none => false
  | _ => false

/-- A token account that holds no claims. -/
def TokenAccount.isForeign (t : TokenAccount) : Bool := !t.mint.isClaimMint

/-- An empty claim account. -/
def emptyClaimAccount (mint owner : Pubkey) : TokenAccount :=
  { tokenProgram := .token, mint := mint, owner := owner, amount := 0, delegate := none,
    state := .initialized, closeAuthority := none }

/-- One thing that happens on chain. -/
inductive Action : Type where
  /-- a transaction that invokes the program -/
  | instruction : Instruction → Action
  /-- a plain transfer of claims: mint, source, destination, authority, amount, decimals -/
  | transfer : Pubkey → Pubkey → Pubkey → Pubkey → UInt64 → UInt8 → Action
  /-- a direct burn of claims: mint, source, authority, amount -/
  | burn : Pubkey → Pubkey → Pubkey → UInt64 → Action
  /-- a new, empty claim account: address, mint, owner -/
  | open : Pubkey → Pubkey → Pubkey → Action
  /-- collateral sent to a vault from outside the program -/
  | donate : Pubkey → UInt64 → Action
  /-- collateral taken out of a vault by the issuer's permanent delegate -/
  | seize : Pubkey → UInt64 → Action
  /-- the issuer freezes or thaws a vault -/
  | setFrozen : Pubkey → Bool → Action
  /-- any change to an account that is neither a vault nor holds claims -/
  | foreignToken : Pubkey → Option TokenAccount → Action
  /-- any change to a mint the program does not derive, its decimals and program apart -/
  | foreignMint : Pubkey → Mint → Action
  /-- the clock advances -/
  | tick : Clock → Action

namespace World

/-- The world with another bank. -/
def setBank (w : World) (bank : Bank) : World := { w with bank := bank }

/-- The clock does not go back. -/
def clockLe (c c' : Clock) : Bool := c.slot ≤ c'.slot && c.unixTimestamp ≤ c'.unixTimestamp

/-- A mint keeps its decimals and its token program for life. -/
def mintMayBecome : Option Mint → Mint → Bool
  | none, _ => true
  | some m, m' => m'.decimals == m.decimals && m'.tokenProgram == m.tokenProgram

/-- What an action does, if it is accepted. -/
def act (w : World) : Action → Option World
  | .instruction ix => (w.execute host ix).toOption
  | .transfer mint source destination authority amount decimals =>
    if mint.isClaimMint then
      (host.invoke w.bank (.transferChecked source mint destination authority amount decimals)
        ).toOption.map w.setBank
    else none
  | .burn mint source authority amount =>
    if mint.isClaimMint then
      (host.invoke w.bank (.burn mint source authority amount)).toOption.map w.setBank
    else none
  | .open key mint owner =>
    if mint.isClaimMint && (w.bank.tokens key).isNone && (w.bank.mints mint).isSome then
      some (w.setBank { w.bank with
        tokens := Function.update w.bank.tokens key (some (emptyClaimAccount mint owner)) })
    else none
  | .donate vault amount =>
    match w.bank.tokens vault with
    | some v =>
      if w.isVault vault && decide (v.amount.toNat + amount.toNat < 2 ^ 64) then
        some (w.setBank (w.bank.credit vault amount))
      else none
    | none => none
  | .seize vault amount =>
    match w.bank.tokens vault with
    | some v =>
      if w.isVault vault && decide (amount.toNat ≤ v.amount.toNat) then
        some (w.setBank (w.bank.debit vault amount))
      else none
    | none => none
  | .setFrozen vault frozen =>
    if w.isVault vault then
      some (w.setBank (w.bank.modifyToken vault fun v =>
        { v with state := if frozen then .frozen else .initialized }))
    else none
  | .foreignToken key account =>
    if !w.isVault key && (w.bank.tokens key).all TokenAccount.isForeign
        && account.all TokenAccount.isForeign then
      some (w.setBank { w.bank with tokens := Function.update w.bank.tokens key account })
    else none
  | .foreignMint key mint =>
    if key.isWallet && mintMayBecome (w.bank.mints key) mint then
      some (w.setBank { w.bank with mints := Function.update w.bank.mints key (some mint) })
    else none
  | .tick clock => if clockLe w.clock clock then some { w with clock := clock } else none

/-- The program has no account yet, nobody holds claims and the clock is past the epoch. -/
structure Genesis (w : World) : Prop where
  config : w.config = none
  policies : ∀ key, w.policies key = none
  series : ∀ key, w.series key = none
  accumulators : ∀ key, w.accumulators key = none
  heads : ∀ key, w.heads key = none
  revisions : ∀ key, w.revisions key = none
  mints : ∀ key m, w.bank.mints key = some m → key.isWallet = true
  tokens : ∀ key t, w.bank.tokens key = some t → t.isForeign = true
  clock : 0 ≤ w.clock.unixTimestamp

/-- A history: the actions accepted since genesis. -/
def History (w₀ : World) (tr : List Action) (w : World) : Prop :=
  Genesis w₀ ∧ Run (act host) w₀ tr w

end World

/-! ## Counting along a history -/

namespace Action

/-- The instruction of an action, if it is one. -/
def instruction? : Action → Option Instruction
  | instruction ix => some ix
  | _ => none

/-- What an action donates to a vault. -/
def donation (vault : Pubkey) : Action → Nat
  | donate v amount => if v = vault then amount.toNat else 0
  | _ => 0

/-- What an action takes out of a vault behind the program's back. -/
def seizure (vault : Pubkey) : Action → Nat
  | seize v amount => if v = vault then amount.toNat else 0
  | _ => 0

/-- What an action burns of a claim mint outside the program. -/
def directBurn (mint : Pubkey) : Action → Nat
  | burn m _ _ amount => if m = mint then amount.toNat else 0
  | _ => 0

/-- What an action redeems of one side of a series. -/
def redemption (k : Pubkey) (side : RedeemSide) : Action → Nat
  | instruction (.redeem acc side' amount _ _) =>
    if acc.series = k ∧ side' = side then amount.toNat else 0
  | _ => 0

/-- The action begins the finalization of a series. -/
def begins (k : Pubkey) : Action → Bool
  | instruction (.beginFinalization acc _ _ _) => acc.series == k
  | _ => false

/-- The action completes the finalization of a series. -/
def completes (k : Pubkey) : Action → Bool
  | instruction (.completeFinalization acc) => acc.series == k
  | _ => false

end Action

/-- The number of instructions in a history. -/
def instructionCount (tr : List Action) : Nat := (tr.filterMap Action.instruction?).length

/-- All donations to a vault. -/
def donated (vault : Pubkey) (tr : List Action) : Nat := (tr.map (Action.donation vault)).sum

/-- All claims of a mint burned outside the program. -/
def directlyBurned (mint : Pubkey) (tr : List Action) : Nat := (tr.map (Action.directBurn mint)).sum

/-- All claims of one side of a series redeemed. -/
def redeemedInTotal (k : Pubkey) (side : RedeemSide) (tr : List Action) : Nat :=
  (tr.map (Action.redemption k side)).sum

/-- Nothing but the program takes tokens out of the vault. -/
def Untouched (vault : Pubkey) (tr : List Action) : Prop := ∀ a ∈ tr, a.seizure vault = 0

section Counting

variable {tr : List Action} {a : Action} {key : Pubkey}

/-- One more action is counted if it is an instruction. -/
theorem instructionCount_snoc : instructionCount (tr ++ [a]) =
    instructionCount tr + if a.instruction?.isSome then 1 else 0 := by
  rw [instructionCount, instructionCount, List.filterMap_append, List.length_append]
  cases h : a.instruction? <;> simp [h]

/-- Donations add up. -/
theorem donated_snoc : donated key (tr ++ [a]) = donated key tr + a.donation key := by
  simp [donated]

/-- So do direct burns. -/
theorem directlyBurned_snoc :
    directlyBurned key (tr ++ [a]) = directlyBurned key tr + a.directBurn key := by
  simp [directlyBurned]

/-- So do redemptions. -/
theorem redeemedInTotal_snoc {side : RedeemSide} :
    redeemedInTotal key side (tr ++ [a]) = redeemedInTotal key side tr + a.redemption key side := by
  simp [redeemedInTotal]

/-- A vault is untouched if no action seized from it. -/
theorem untouched_snoc : Untouched key (tr ++ [a]) ↔ Untouched key tr ∧ a.seizure key = 0 := by
  simp [Untouched, or_imp, forall_and]

end Counting

end DividendX
