import DividendX.Devnet.Changes
import DividendX.Lib.Async
import DividendX.Lib.CasStore

/-!
# The durable journal

`DurableJournal` of `ledger.ts` with `mutateJson` of `json-store.ts`, as programs that await the
clock, the store and the chain. Between any two awaits other instances may write.

A call to the store is answered by the register or throws; a write that threw may still take effect
later (`CasStore`). That covers every failure of the store, the refusal of an oversize document
among them. The pause between two attempts of `mutateJson` is not a call here: it does nothing.
-/

namespace DividendX

namespace Devnet

/-- What the service awaits: the clock, random ids, the flag `writeDisabled` of an instance, the
store, and the methods of `ChainAdapter`. The id in `sendExact` says for which operation the call is
made; the adapter gets the attempt alone. -/
inductive Call
  | now
  | randomUUID
  | writeDisabled (service : Nat)
  | disableWrites (service : Nat)
  | read
  | put (p : Put Change HostedDevnetLedger)
  | prepareFaucet (request : FaucetRequest) (reservationLamports : Nat)
  | prepareObservation (assetId : String) (reservationLamports : Nat)
  | verifyPrepared (operation : DurableOperation)
  | sendExact (operationId : OperationId) (attempt : SignedAttempt)
  | transactionStatus (attempt : SignedAttempt)
  | blockHeight
  | verifyOutcome (operation : DurableOperation)

/-- The answers; calls that may be rejected are answered with the failure. -/
abbrev Answer : Call → Type
  | .now => Instant
  | .randomUUID => String
  | .writeDisabled _ => Bool
  | .disableWrites _ => Unit
  | .read => Except Failure (Option (Versioned HostedDevnetLedger))
  | .put _ => Except Failure Bool
  | .prepareFaucet _ _ => Except Failure SignedAttempt
  | .prepareObservation _ _ => Except Failure SignedAttempt
  | .verifyPrepared _ => Except Failure Unit
  | .sendExact _ _ => Except Failure Unit
  | .transactionStatus _ => Except Failure TransactionStatus
  | .blockHeight => Except Failure Nat
  | .verifyOutcome _ => Except Failure Bool

/-- An `async` function of the service. -/
abbrev Service : Type → Type := ExceptT Failure (Async Call Answer)

namespace Service

variable {α : Type}

/-- Await a call that is not rejected. -/
def ask (c : Call) : Service (Answer c) := ExceptT.mk (.await c fun x => .done (.ok x))

/-- Await a call that may be rejected. -/
def call (c : Call) (outcome : Answer c → Except Failure α) : Service α :=
  ExceptT.mk (.await c fun x => .done (outcome x))

/-- Synchronous code that may throw. -/
def sync (x : Except Failure α) : Service α := ExceptT.mk (.done x)

/-- A promise with what it was rejected with, as a value. -/
def settle (p : Service α) : Service (Except Failure α) := ExceptT.lift p.run

end Service

/-- Reading a property of `undefined`. -/
def typeError : Failure := .other "TypeError"

namespace DurableJournal

open Service HostedDevnetLedger Result

/-- `store.read`. -/
def storeRead : Service (Option (Versioned HostedDevnetLedger)) := call .read id

/-- `store.create` when nothing is expected, `store.compareAndSwap` otherwise. -/
def storePut (p : Put Change HostedDevnetLedger) : Service Bool := call (.put p) id

/-- `mutateJson`: read, change, write, and start over when another write came in between. The change
is made anew in every attempt, since it reads the clock. -/
def mutateJson (change : Service Change) : Nat → Service HostedDevnetLedger
  | 0 => throw (.store "JSON_LEDGER_BUSY")
  | attempts + 1 => do
    let current ← storeRead
    let c ← change
    let next ← sync (c.mutate (CasStore.content emptyLedger current))
    let saved ← storePut ⟨c, CasStore.etag current, next⟩
    if saved then pure next else mutateJson change attempts

/-- `mutate`. -/
def mutate (change : Service Change) : Service HostedDevnetLedger := mutateJson change 8

/-- `read`. -/
def read : Service HostedDevnetLedger := do
  let current ← storeRead
  let ledger := CasStore.content emptyLedger current
  sync ledger.validate
  pure ledger

/-- `structuredClone(ledger.operations[id]!)`. -/
def operationOf (ledger : HostedDevnetLedger) (id : OperationId) : Service DurableOperation :=
  sync (okOr (ledger.operations.get? id) typeError)

/-- `reserveGrant`. -/
def reserveGrant (owner assetId : String) (visitorHash ipHash : Digest) :
    Service DurableOperation := do
  let now ← ask .now
  let day := utcDay now
  let ledger ← mutate do
    let createdAt ← ask .now
    pure (.reserveGrant owner assetId visitorHash ipHash day createdAt)
  operationOf ledger (grantOperationId owner assetId day)

/-- `reserveObservation`. -/
def reserveObservation (assetId : String) : Service DurableOperation := do
  let now ← ask .now
  let ledger ← mutate (pure (.reserveObservation assetId now))
  operationOf ledger (observationOperationId assetId (observationBucket now))

/-- `acquire`. -/
def acquire (operation : DurableOperation) : Service PreparationLease :=
  if operation.state.terminal then throw (operationState "operation is not active")
  else do
    let holder ← ask .randomUUID
    let now ← ask .now
    let ledger ← mutate (pure (.acquire operation.id operation.kind holder now))
    sync (okOr (ledger.leases.get operation.kind) typeError)

/-- `persistPrepared`. -/
def persistPrepared (operationId : OperationId) (lease : PreparationLease)
    (attempt : SignedAttempt) : Service DurableOperation := do
  let now ← ask .now
  let ledger ← mutate (pure (.persistPrepared operationId lease attempt now))
  operationOf ledger operationId

/-- The check of `assertSendFence` on the ledger it has read. -/
def sendFence (ledger : HostedDevnetLedger) (operationId : OperationId) (lease : PreparationLease)
    (now : Instant) : Except Failure Unit := do
  let operation ← okOr (ledger.operations.get? operationId) leaseLost
  let current ← okOr (ledger.leases.get operation.kind) leaseLost
  require (operation.state.signed = true ∧ operation.fence = some lease.fence
    ∧ current.operationId = operationId ∧ current.holder = lease.holder
    ∧ current.fence = lease.fence ∧ ¬ current.expiresAt.ms ≤ now.ms) leaseLost

/-- `assertSendFence`. -/
def assertSendFence (operationId : OperationId) (lease : PreparationLease) : Service Unit := do
  let ledger ← read
  let now ← ask .now
  sync (sendFence ledger operationId lease now)

/-- `release`. -/
def release (lease : PreparationLease) (state : Option OperationState)
    (errorCode : Option String) : Service DurableOperation := do
  let ledger ← mutate do
    let checkedAt ← ask .now
    let stampedAt ← ask .now
    pure (.release lease state errorCode checkedAt stampedAt)
  operationOf ledger lease.operationId

/-- `transition`. -/
def transition (operationId : OperationId) (state : OperationState)
    (errorCode : Option String) : Service DurableOperation := do
  let ledger ← mutate do
    let stampedAt ← ask .now
    pure (.transition operationId state errorCode stampedAt)
  operationOf ledger operationId

/-- `disableFaucet`. -/
def disableFaucet (reason : String) : Service Unit := do
  let _ ← mutate (pure (.disableFaucet reason))
  pure ()

end DurableJournal

end Devnet

end DividendX
