import DividendX.Lib.Base64
import DividendX.Lib.Record
import DividendX.Lib.Solo
import Mathlib.Data.Vector.Basic

/-!
# Resumable bootstrap steps

`packages/devnet-runtime/src/transactions.ts`, with `writePrivateJson` of `private-state.ts`: a step
signs a transaction, keeps the attempt in the private state before it sends it, and on a later call
first asks what became of the attempt that is kept.

The private state is in memory and on disk; a crash leaves what is on disk. Statements on
`context.state` are calls of their own. What `check` finds, what the RPC answers and the clock are
left open, but for the status of a transaction at a final level.
-/

namespace DividendX

namespace Bootstrap

/-! ## Transactions -/

/-- `BASE58`. -/
def BASE58 : List Char := "123456789ABCDEFGHJKLMNPQRSTUVWXYZabcdefghijkmnopqrstuvwxyz".toList

/-- The carry left over, as digits; a carry is as good a bound of their number as any. -/
def spill : Nat → Nat → List Nat
  | 0, _ => []
  | bound + 1, carry => if carry = 0 then [] else carry % 58 :: spill bound (carry / 58)

/-- The digits, lowest first, times 256 plus a byte. -/
def addByte : List Nat → Nat → List Nat
  | [], carry => spill carry carry
  | digit :: digits, carry =>
    (carry + digit * 256) % 58 :: addByte digits ((carry + digit * 256) / 58)

/-- `base58Encode`. -/
def base58Encode (input : List UInt8) : String :=
  if input = [] then ""
  else
    let digits := input.foldl (fun digits byte => addByte digits byte.toNat) [0]
    let leading := (input.dropLast.takeWhile (· = 0)).length
    String.ofList (List.replicate leading '1' ++ digits.reverse.map (BASE58.getD · '1'))

/-- The 64 bytes of a signature. -/
abbrev Signature : Type := List.Vector UInt8 64

/-- A `VersionedTransaction` that is signed: the payer's signature is the first. -/
structure VersionedTransaction where
  payer : Signature
  others : List Signature
  message : List UInt8
deriving DecidableEq

/-- The transaction library, and what the chain makes of serialized bytes: the signature by which it
knows them, which is the payer's, and the last height at which it takes them. -/
structure WireFormat where
  serialize : VersionedTransaction → List UInt8
  signatureOf : List UInt8 → String
  validUntil : List UInt8 → Nat
  signatureOf_serialize : ∀ t, signatureOf (serialize t) = base58Encode t.payer.toList

/-! ## The private state -/

/-- `StoredAttempt`. -/
structure StoredAttempt where
  signature : String
  blockhash : String
  lastValidBlockHeight : Nat
  serializedTransactionBase64 : String
  preparedAt : String
  submittedAt : Option String
deriving DecidableEq

/-- `Buffer.from(previous.serializedTransactionBase64, 'base64')`. -/
def StoredAttempt.raw (a : StoredAttempt) : List UInt8 :=
  Base64.decode a.serializedTransactionBase64.toList

/-- `PrivateRuntimeState`, as far as a step reads it. -/
structure PrivateRuntimeState where
  initialAdminLamports : Option String
  steps : Record String (List StoredAttempt)

namespace PrivateRuntimeState

variable (state : PrivateRuntimeState) (name : String)

/-- `state.steps[name]?.attempts ?? []`. -/
def attempts : List StoredAttempt := (state.steps.get? name).getD []

/-- `(state.steps[name] ??= { attempts: [] }).attempts.push(attempt)`. An inherited value has no
attempts to push to. -/
def push (attempt : StoredAttempt) : Option PrivateRuntimeState :=
  if state.steps.get? name = none ∧ name ∈ Record.inheritedKeys then none
  else some { state with steps := state.steps.set name (state.attempts name ++ [attempt]) }

/-- `submittedAt = date` of the last attempt, or `submittedAt ??= date`. -/
def stamp (date : String) (keep : Bool) : PrivateRuntimeState :=
  { state with steps := state.steps.set name ((state.attempts name).modifyLast fun a =>
      { a with submittedAt := if keep then a.submittedAt.or (some date) else some date }) }

end PrivateRuntimeState

/-! ## Calls -/

/-- What a step may be rejected with. -/
inductive Failure
  /-- `DevnetRuntimeError` -/
  | runtime (code message : String)
  | other (message : String)
deriving DecidableEq

/-- `TransactionConfirmationStatus`. -/
inductive ConfirmationStatus
  | processed
  | confirmed
  | finalized
deriving DecidableEq

/-- `SignatureStatus`; an error is kept as its JSON. -/
structure SignatureStatus where
  err : Option String
  confirmationStatus : Option ConfirmationStatus
deriving DecidableEq

namespace SignatureStatus

/-- The truth value of `status.err`. -/
def failed (status : SignatureStatus) : Bool :=
  match status.err with
  | none => false
  | some err => err ≠ "\"\""

/-- `confirmationStatus === 'confirmed' || confirmationStatus === 'finalized'`. -/
def final (status : SignatureStatus) : Bool :=
  status.confirmationStatus = some .confirmed ∨ status.confirmationStatus = some .finalized

end SignatureStatus

/-- What `getLatestBlockhash` answers. -/
structure LatestBlockhash where
  blockhash : String
  lastValidBlockHeight : Nat

/-- What `simulateTransaction` answers, with the lamports of the first account if they are a
number. -/
structure Simulation where
  err : Option String
  logs : Option (List String)
  lamports : Option Int

/-- What a step awaits, and its statements on `context.state`. The name at `sendRawTransaction` is
not sent: it tells whose transaction it is. -/
inductive Call
  | check
  | lastAttempt (name : String)
  | getSignatureStatuses (signature : String)
  | getBlockHeight (commitment : String)
  | getLatestBlockhash (commitment : String)
  | simulateTransaction (signed : VersionedTransaction) (commitment adminAddress : String)
  | initialAdminLamports
  | now
  | push (name : String) (attempt : StoredAttempt)
  | stamp (name date : String) (keep : Bool)
  | writePrivateJson
  | sendRawTransaction (name : String) (raw : List UInt8)
  | confirmTransaction (signature blockhash : String) (lastValidBlockHeight : Nat)
  (commitment : String)

/-- What a call is answered with. -/
@[reducible] def Answer : Call → Type
  | .check => Except Failure Bool
  | .lastAttempt _ => Option StoredAttempt
  | .getSignatureStatuses _ => Except Failure (Option SignatureStatus)
  | .getBlockHeight _ => Except Failure Nat
  | .getLatestBlockhash _ => Except Failure LatestBlockhash
  | .simulateTransaction _ _ _ => Except Failure Simulation
  | .initialAdminLamports => Option String
  | .now => String
  | .push _ _ => Except Failure Unit
  | .stamp _ _ _ => Unit
  | .writePrivateJson => Except Failure Unit
  | .sendRawTransaction _ _ => Except Failure String
  | .confirmTransaction _ _ _ _ => Except Failure (Option String)

/-- Code that awaits. -/
abbrev Resumable (α : Type) : Type := ExceptT Failure (Async Call Answer) α

/-- The arguments of `executeResumableStep`, with what it reads of its context. `sign` compiles and
signs the instructions for a blockhash. -/
structure StepCall where
  name : String
  sign : LatestBlockhash → Except Failure VersionedTransaction
  repeatableAfterConfirmed : Bool
  commitment : String
  adminAddress : String
  /-- `context.budget`: the lamports before, and what may be spent of them -/
  budget : Option (Int × Int)

open Async

/-- `invariant`. -/
def invariant (condition : Bool) (code message : String) : Resumable Unit :=
  sync (if condition then .ok () else .error (.runtime code message))

/-! ## The budget -/

/-- `MAX_BOOTSTRAP_SPEND_LAMPORTS`. -/
def MAX_BOOTSTRAP_SPEND_LAMPORTS : Int := 150_000_000

/-- `assertBootstrapBudget`. -/
def assertBootstrapBudget (initialLamports projectedLamports maxSpendLamports : Int) :
    Resumable Unit :=
  invariant
    (initialLamports ≥ projectedLamports ∧ initialLamports - projectedLamports ≤ maxSpendLamports)
    "BOOTSTRAP_BUDGET_EXCEEDED" "BOOTSTRAP_BUDGET_EXCEEDED"

/-- White space of `BigInt` texts. -/
def isSpace (c : Char) : Bool :=
  (9 ≤ c.toNat ∧ c.toNat ≤ 13) ∨ (0x2000 ≤ c.toNat ∧ c.toNat ≤ 0x200a)
    ∨ c.toNat ∈ [0x20, 0xa0, 0x1680, 0x2028, 0x2029, 0x202f, 0x205f, 0x3000, 0xfeff]

/-- The number of digits of a radix. -/
def numeral (radix : Nat) (digits : List Char) : Option Nat :=
  if digits = [] then none
  else digits.foldlM (fun n c =>
    let digit :=
      if '0' ≤ c ∧ c ≤ '9' then c.toNat - 48
      else if 'a' ≤ c ∧ c ≤ 'f' then c.toNat - 87
      else if 'A' ≤ c ∧ c ≤ 'F' then c.toNat - 55 else radix
    if digit < radix then some (radix * n + digit) else none) 0

/-- `BigInt` of a text. -/
def bigInt (text : String) : Except Failure Int :=
  let trimmed := ((text.toList.dropWhile isSpace).reverse.dropWhile isSpace).reverse
  let value : Option Int := match trimmed with
    | [] => some 0
    | '0' :: 'x' :: digits | '0' :: 'X' :: digits => (numeral 16 digits).map Int.ofNat
    | '0' :: 'o' :: digits | '0' :: 'O' :: digits => (numeral 8 digits).map Int.ofNat
    | '0' :: 'b' :: digits | '0' :: 'B' :: digits => (numeral 2 digits).map Int.ofNat
    | '-' :: digits => (numeral 10 digits).map fun n => -Int.ofNat n
    | '+' :: digits => (numeral 10 digits).map Int.ofNat
    | digits => (numeral 10 digits).map Int.ofNat
  match value with
  | some n => .ok n
  | none => .error (.other ("Cannot convert " ++ text ++ " to a BigInt"))

/-- `context.budget?.initialLamports ?? BigInt(context.state.initialAdminLamports ?? '-1')`. -/
def initialLamports (step : StepCall) : Resumable Int :=
  match step.budget with
  | some (initial, _) => pure initial
  | none => do
    let text : Option String ← ask Call.initialAdminLamports
    sync (bigInt (text.getD "-1"))

/-- `simulation.value.accounts?.[0]?.lamports`, which has to be a safe integer. -/
def projectedLamports (simulation : Simulation) : Resumable Int :=
  match simulation.lamports with
  | some lamports => do
    invariant (lamports.natAbs < 2 ^ 53) "BUDGET_SIMULATION_MISSING" "BUDGET_SIMULATION_MISSING"
    pure lamports
  | none => throw (.runtime "BUDGET_SIMULATION_MISSING" "BUDGET_SIMULATION_MISSING")

/-! ## A step -/

/-- The end of both ways to send: the confirmation, and the state expected of it. -/
def confirmStep (step : StepCall) (signature blockhash : String) (lastValidBlockHeight : Nat) :
    Resumable Unit := do
  let err ← call (.confirmTransaction signature blockhash lastValidBlockHeight step.commitment) id
  invariant (err = none) "TRANSACTION_FAILED" (step.name ++ ": " ++ err.getD "null")
  let reached ← call .check id
  invariant reached "STEP_RECONCILIATION_FAILED" (step.name ++ " confirmed without expected state")

/-- An attempt that is confirmed: the step is done, or may be done again. -/
def reconcileConfirmed (step : StepCall) (previous : StoredAttempt) (message : String) :
    Resumable (Option String) := do
  let reached ← call .check id
  if reached then pure (some previous.signature)
  else do
    invariant step.repeatableAfterConfirmed "CONFIRMED_STEP_RECONCILIATION_FAILED" message
    pure none

/-- An attempt that can no longer be included: it is looked up once more. -/
def reconcileExpired (step : StepCall) (previous : StoredAttempt) : Resumable (Option String) := do
  let finalStatus ← call (.getSignatureStatuses previous.signature) id
  if finalStatus.any SignatureStatus.failed then pure none
  else if finalStatus.any SignatureStatus.final then
    reconcileConfirmed step previous "CONFIRMED_STEP_RECONCILIATION_FAILED"
  else throw (.runtime "EXPIRED_SIGNATURE_UNRESOLVED"
    (step.name ++ " expired without a conclusive status; refusing a newly signed duplicate"))

/-- The bytes that are kept are sent again. -/
def resend (step : StepCall) (previous : StoredAttempt) : Resumable (Option String) := do
  let returned ← call (.sendRawTransaction step.name previous.raw) id
  invariant (returned = previous.signature) "SIGNATURE_RETRY_MISMATCH" "SIGNATURE_RETRY_MISMATCH"
  let date : String ← ask Call.now
  ask (Call.stamp step.name date true)
  call .writePrivateJson id
  confirmStep step previous.signature previous.blockhash previous.lastValidBlockHeight
  pure (some previous.signature)

/-- `reconcilePersistedAttempt`, for an attempt that is kept. -/
def reconcileAttempt (step : StepCall) (previous : StoredAttempt) : Resumable (Option String) := do
  let status ← call (.getSignatureStatuses previous.signature) id
  if status.any SignatureStatus.failed then pure none
  else if status.any SignatureStatus.final then
    reconcileConfirmed step previous (step.name ++ " confirmed but expected state is absent")
  else do
    let blockHeight ← call (.getBlockHeight step.commitment) id
    if blockHeight > previous.lastValidBlockHeight then reconcileExpired step previous
    else resend step previous

/-- `reconcilePersistedAttempt`. -/
def reconcilePersistedAttempt (step : StepCall) : Resumable (Option String) := do
  let last : Option StoredAttempt ← ask (Call.lastAttempt step.name)
  match last with
  | none => pure none
  | some previous => reconcileAttempt step previous

/-- The simulation, and the budget it has to keep to. -/
def simulateWithinBudget (step : StepCall) (signed : VersionedTransaction) : Resumable Unit := do
  let simulation ← call (.simulateTransaction signed step.commitment step.adminAddress) id
  let logs := simulation.logs.getD []
  invariant (simulation.err = none) "SIMULATION_FAILED"
    (step.name ++ ": " ++ simulation.err.getD "null" ++ "; "
    ++ " | ".intercalate (logs.drop (logs.length - 10)))
  let projected ← projectedLamports simulation
  let initial ← initialLamports step
  invariant (initial ≥ 0) "BOOTSTRAP_BUDGET_MISSING" "BOOTSTRAP_BUDGET_MISSING"
  assertBootstrapBudget initial projected
    ((step.budget.map Prod.snd).getD MAX_BOOTSTRAP_SPEND_LAMPORTS)

/-- The attempt that is kept for a signed transaction. -/
def prepareAttempt (wire : WireFormat) (latest : LatestBlockhash) (signed : VersionedTransaction)
    (preparedAt : String) : StoredAttempt where
  signature := base58Encode signed.payer.toList
  blockhash := latest.blockhash
  lastValidBlockHeight := latest.lastValidBlockHeight
  serializedTransactionBase64 := String.ofList (Base64.encode (wire.serialize signed))
  preparedAt := preparedAt
  submittedAt := none

/-- The attempt is kept, and then it is sent. -/
def submit (wire : WireFormat) (step : StepCall) (latest : LatestBlockhash)
    (signed : VersionedTransaction) : Resumable (Option String) := do
  let signature := base58Encode signed.payer.toList
  let preparedAt : String ← ask Call.now
  call (.push step.name (prepareAttempt wire latest signed preparedAt)) id
  call .writePrivateJson id
  let returned ← call (.sendRawTransaction step.name (wire.serialize signed)) id
  invariant (returned = signature) "SIGNATURE_SUBMISSION_MISMATCH" "SIGNATURE_SUBMISSION_MISMATCH"
  let submittedAt : String ← ask Call.now
  ask (Call.stamp step.name submittedAt false)
  call .writePrivateJson id
  confirmStep step signature latest.blockhash latest.lastValidBlockHeight
  pure (some signature)

/-- A new attempt, unless the step is done by now. -/
def attemptStep (wire : WireFormat) (step : StepCall) : Resumable (Option String) := do
  let present ← call .check id
  if present then pure none
  else do
    let latest ← call (.getLatestBlockhash step.commitment) id
    let signed ← sync (step.sign latest)
    simulateWithinBudget step signed
    submit wire step latest signed

/-- `executeResumableStep`. -/
def executeResumableStep (wire : WireFormat) (step : StepCall) : Resumable (Option String) := do
  let present ← call .check id
  if present then pure none
  else do
    let reconciled ← reconcilePersistedAttempt step
    if reconciled.any (· ≠ "") then pure reconciled else attemptStep wire step

/-! ## The process, its disk and the chain -/

/-- The private state in memory and on disk, the transactions ever sent, each with the name of its
step, and the chain: what was executed there, and whether it succeeded. -/
structure World where
  memory : PrivateRuntimeState
  disk : PrivateRuntimeState
  sent : List (String × List UInt8)
  landed : String → Option Bool
  height : Nat

/-- A status at a final level tells what the chain holds. -/
def World.Truthful (w : World) (signature : String)
    (x : Except Failure (Option SignatureStatus)) : Prop :=
  ∀ status, x = .ok (some status) → status.final = true →
    w.landed signature = some status.err.isNone

/-- How a call may be answered. A write that is rejected may or may not have replaced the file. -/
inductive Answers : (c : Call) → World → Answer c → World → Prop
  | check {w : World} (x : Except Failure Bool) : Answers .check w x w
  | lastAttempt {w : World} {name : String} :
      Answers (.lastAttempt name) w (w.memory.attempts name).getLast? w
  | getSignatureStatuses {w : World} {signature : String}
    {x : Except Failure (Option SignatureStatus)} :
      w.Truthful signature x → Answers (.getSignatureStatuses signature) w x w
  | getBlockHeight {w : World} {commitment : String} (x : Except Failure Nat) :
      Answers (.getBlockHeight commitment) w x w
  | getLatestBlockhash {w : World} {commitment : String} (x : Except Failure LatestBlockhash) :
      Answers (.getLatestBlockhash commitment) w x w
  | simulateTransaction {w : World} {signed : VersionedTransaction}
    {commitment adminAddress : String}
      (x : Except Failure Simulation) :
    Answers (.simulateTransaction signed commitment adminAddress) w x w
  | initialAdminLamports {w : World} :
    Answers .initialAdminLamports w w.memory.initialAdminLamports w
  | now {w : World} (date : String) : Answers .now w date w
  | push {w : World} {name : String} {attempt : StoredAttempt} {memory : PrivateRuntimeState} :
      w.memory.push name attempt = some memory →
      Answers (.push name attempt) w (.ok ()) { w with memory := memory }
  | pushFails {w : World} {name : String} {attempt : StoredAttempt} :
    w.memory.push name attempt = none →
      Answers (.push name attempt) w (.error (.other "TypeError")) w
  | stamp {w : World} {name date : String} {keep : Bool} :
      Answers (.stamp name date keep) w () { w with memory := w.memory.stamp name date keep }
  | write {w : World} {x : Except Failure Unit} :
      Answers .writePrivateJson w x { w with disk := w.memory }
  | writeFails {w : World} (e : Failure) : Answers .writePrivateJson w (.error e) w
  | send {w : World} {name : String} {raw : List UInt8} (x : Except Failure String) :
      Answers (.sendRawTransaction name raw) w x { w with sent := w.sent ++ [(name, raw)] }
  | confirmTransaction {w : World} {signature blockhash : String} {lastValidBlockHeight : Nat}
      {commitment : String} (x : Except Failure (Option String)) :
      Answers (.confirmTransaction signature blockhash lastValidBlockHeight commitment) w x w

/-- The chain goes on: it executes a transaction that was sent, once and while its blockhash is
good, or adds a block. -/
inductive Drift
  | lands (raw : List UInt8) (succeeds : Bool)
  | block

/-- The chain. -/
inductive Drifts (wire : WireFormat) : Drift → World → World → Prop
  | lands {w : World} {name : String} {raw : List UInt8} {succeeds : Bool} :
      (name, raw) ∈ w.sent → w.landed (wire.signatureOf raw) = none →
      w.height ≤ wire.validUntil raw → Drifts wire (.lands raw succeeds) w
        { w with landed := Function.update w.landed (wire.signatureOf raw) (some succeeds) }
  | block {w : World} : Drifts wire .block w { w with height := w.height + 1 }

/-- `executeResumableStep` is called with any arguments, but the step `name` never as one that may
be repeated. -/
inductive Starts (wire : WireFormat) (name : String) : Async Call Answer Unit → Prop
  | execute (step : StepCall) : (step.name = name → step.repeatableAfterConfirmed = false) →
      Starts wire name (executeResumableStep wire step).run.forget

/-- The bootstrap process. -/
def machine (name : String) (wire : WireFormat) : Machine World Call Answer Drift :=
  ⟨Answers, Drifts wire, Starts wire name⟩

/-- A restart reads the private state from disk. -/
def restart (w : World) : World := { w with memory := w.disk }

/-- A private state without attempts, and nothing sent. -/
def start (initialAdminLamports : Option String) (height : Nat) : Process World Call Answer where
  world :=
    { memory := ⟨initialAdminLamports, ∅⟩, disk := ⟨initialAdminLamports, ∅⟩, sent := []
      landed := fun _ => none, height := height }
  running := .done ()

end Bootstrap

end DividendX
