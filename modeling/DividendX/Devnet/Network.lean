import DividendX.Bootstrap.Transactions
import DividendX.Devnet.Service
import DividendX.Gateway.Base58

/-!
# The service and its chain

`sendExact` and `transactionStatus` of `chain.ts`, and the machine on which the service runs beside
the chain: blocks are confirmed at any moment, and what the RPC answers is held against them.

Only what is confirmed is final. A status below that level may say anything; a transaction is in a
block up to its last valid height or in none; and once that height has passed, one that is in a
block is reported as confirmed or failed. What `verifyOutcome` answered is written down beside the
chain; no program reads it.
-/

namespace DividendX

namespace Devnet

open Bootstrap (Signature SignatureStatus)
open Result

/-- A `VersionedTransaction`. -/
structure VersionedTransaction where
  signatures : List Signature
  message : List UInt8
deriving DecidableEq

/-- The transaction library: `serialize` and `deserialize`. -/
structure WireFormat where
  serialize : VersionedTransaction → List UInt8
  deserialize : List UInt8 → Option VersionedTransaction

namespace SolanaChainAdapter

/-- The error of bytes that are not those that were signed. -/
def signedBytesInvalid (message : String) : Failure :=
  .service ⟨503, message, "SIGNED_BYTES_INVALID", none⟩

/-- The error of a signature that is not that of the bytes. -/
def signatureMismatch : Failure :=
  .service ⟨503, "RPC returned a different signature", "SIGNATURE_MISMATCH", none⟩

/-- `sendExact`: what the library makes of the bytes, and what `sendRawTransaction` returns for
them. -/
def sendExact (wire : WireFormat) (attempt : SignedAttempt)
    (sendRawTransaction : Except Failure String) : Except Failure Unit := do
  let raw := Base64.decode attempt.serializedTransactionBase64.toList
  let transaction ← okOr (wire.deserialize raw)
    (signedBytesInvalid "persisted transaction is invalid")
  require (transaction.signatures.length = 1
      ∧ (transaction.signatures.head?.map fun s => base58Encode s.toList) = some attempt.signature
      ∧ String.ofList (Base64.encode (wire.serialize transaction))
        = attempt.serializedTransactionBase64)
    (signedBytesInvalid "persisted transaction identity changed")
  let returned ← sendRawTransaction
  require (returned = attempt.signature) signatureMismatch

/-- `transactionStatus`, of what `getSignatureStatuses` finds. -/
def transactionStatus : Option SignatureStatus → TransactionStatus
  | none => ⟨.missing, none⟩
  | some status =>
    if status.failed then ⟨.failed, some "TRANSACTION_FAILED"⟩
    else if status.final then ⟨.confirmed, none⟩ else ⟨.pending, none⟩

end SolanaChainAdapter

/-! ## The chain -/

/-- The service and the chain: the confirmed height, the transactions in confirmed blocks with
whether they succeeded, and every answer of `verifyOutcome`. -/
structure Network where
  service : World
  height : Nat
  confirmed : List (SignedAttempt × Bool)
  verified : List (OperationId × Bool)

namespace Network

/-- Whether a transaction succeeded, once it is confirmed. -/
def fate (n : Network) (a : SignedAttempt) : Option Bool :=
  (n.confirmed.find? (·.1 = a)).map Prod.snd

/-- The transaction is in no block, and none may take it any more. -/
def Dead (n : Network) (a : SignedAttempt) : Prop := n.fate a = none
  ∧ a.lastValidBlockHeight < n.height

/-- The transaction has failed, or is in no block for good. -/
def CannotSucceed (n : Network) (a : SignedAttempt) : Prop := n.fate a = some false ∨ n.Dead a

/-- A status the RPC may report. -/
structure Lawful (n : Network) (a : SignedAttempt) (raw : Option SignatureStatus) : Prop where
  final : ∀ status ∈ raw, status.final = true → n.fate a = some !status.failed
  reported : n.fate a ≠ none → a.lastValidBlockHeight < n.height →
    (SolanaChainAdapter.transactionStatus raw).state = .confirmed
      ∨ (SolanaChainAdapter.transactionStatus raw).state = .failed

variable (wire : WireFormat)

/-- What the chain has to do with an answer. -/
def Reports (n : Network) : (c : Call) → Answer c → Prop
  | .sendExact _ attempt, x => ∃ returned, x = SolanaChainAdapter.sendExact wire attempt returned
  | .transactionStatus attempt, x =>
    ∀ status, x = .ok status → ∃ raw, n.Lawful attempt raw
      ∧ status = SolanaChainAdapter.transactionStatus raw
  | .blockHeight, x => ∀ height, x = .ok height → height ≤ n.height
  | _, _ => True

/-- What is written down of an answer. -/
def noted : (c : Call) → Answer c → List (OperationId × Bool)
  | .verifyOutcome operation, .ok verified => [(operation.id, verified)]
  | _, _ => []

/-- How a call may be answered. -/
inductive Answers (c : Call) (n : Network) (x : Answer c) : Network → Prop
  | mk {service : World} : Devnet.Answers c n.service x service → n.Reports wire c x →
      Answers c n x { n with service := service, verified := n.verified ++ noted c x }

/-- What happens without the service. -/
inductive Progress
  | lands (p : Put Change HostedDevnetLedger)
  | block (transactions : List (SignedAttempt × Bool))

/-- A write takes effect late, or a block is confirmed. -/
inductive Drifts : Progress → Network → Network → Prop
  | lands {n : Network} {p : Put Change HostedDevnetLedger} {service : World} :
      Devnet.Drifts p n.service service → Drifts (.lands p) n { n with service := service }
  | block {n : Network} {transactions : List (SignedAttempt × Bool)} :
      (∀ t ∈ transactions, n.height + 1 ≤ t.1.lastValidBlockHeight) →
      Drifts (.block transactions) n
        { n with height := n.height + 1, confirmed := n.confirmed ++ transactions }

/-- The service beside its chain. -/
def machine : Machine Network Call Answer Progress := ⟨Answers wire, Drifts, Starts⟩

/-- The store is empty and nothing runs; the chain is as it is. -/
def opening (height : Nat) (confirmed : List (SignedAttempt × Bool)) : Site Network Call Answer :=
  ⟨⟨start.world, height, confirmed, []⟩, []⟩

/-! ## What stays true -/

variable {n n' n'' : Network} {a : SignedAttempt}

/-- The chain goes on: nothing confirmed is taken back, and what is too late stays out. -/
structure Onward (n n' : Network) : Prop where
  height : n.height ≤ n'.height
  fate : ∀ {a r}, n.fate a = some r → n'.fate a = some r
  dead : ∀ {a}, n.Dead a → n'.fate a = none
  verified : n.verified ⊆ n'.verified

theorem Onward.refl (n : Network) : n.Onward n :=
  ⟨Nat.le_refl _, fun h => h, fun h => h.1, fun _ h => h⟩

/-- A transaction that has expired unseen stays so. -/
theorem Dead.onward (h : n.Dead a) (ho : n.Onward n') : n'.Dead a :=
  ⟨ho.dead h, h.2.trans_le ho.height⟩

/-- What cannot succeed never will. -/
theorem CannotSucceed.onward (h : n.CannotSucceed a) (ho : n.Onward n') : n'.CannotSucceed a := by
  rcases h with hfailed | hdead
  · exact .inl (ho.fate hfailed)
  · exact .inr (hdead.onward ho)

/-- What cannot succeed has not succeeded. -/
theorem CannotSucceed.fate_ne (h : n.CannotSucceed a) : n.fate a ≠ some true := by
  rcases h with hfailed | hdead
  · rw [hfailed]
    decide
  · rw [hdead.1]
    exact nofun

theorem Onward.trans (h : n.Onward n') (h' : n'.Onward n'') : n.Onward n'' :=
  ⟨h.height.trans h'.height, fun hfate => h'.fate (h.fate hfate),
    fun hdead => h'.dead (hdead.onward h), fun _ hx => h'.verified (h.verified hx)⟩

/-- The fate of a transaction after a block. -/
theorem fate_append {transactions : List (SignedAttempt × Bool)} {height : Nat}
    (n : Network) (a : SignedAttempt) :
    fate { n with height := height, confirmed := n.confirmed ++ transactions } a
      = (n.fate a).or ((transactions.find? (·.1 = a)).map Prod.snd) := by
  simp only [fate, List.find?_append]
  cases n.confirmed.find? (·.1 = a) <;> rfl

/-- A transaction that is taken into a block has the outcome it had there. -/
theorem fate_taken {height : Nat} (h : n.fate a = none) (succeeded : Bool) :
    fate { n with height := height, confirmed := n.confirmed ++ [(a, succeeded)] } a
      = some succeeded := by
  rw [fate_append, h]
  simp

/-- No answer takes anything off the chain. -/
theorem onward_answered {c : Call} {x : Answer c} (h : Answers wire c n x n') : n.Onward n' := by
  cases h with
  | mk hx hreports =>
    exact ⟨Nat.le_refl _, fun h => h, fun h => h.1, fun _ h => List.mem_append_left _ h⟩

/-- Nor does anything else that happens. -/
theorem onward_drifted {d : Progress} (h : Drifts d n n') : n.Onward n' := by
  cases h with
  | lands hlands => exact ⟨Nat.le_refl _, fun h => h, fun h => h.1, fun _ h => h⟩
  | @block _ transactions hvalid =>
    refine ⟨Nat.le_succ _, fun hfate => ?_, fun hdead => ?_, fun _ h => h⟩
    · rw [fate_append, hfate, Option.some_or]
    · -- a block that took it would be too high
      rw [fate_append, hdead.1, Option.none_or, Option.map_eq_none_iff, List.find?_eq_none]
      intro t ht heq
      have hlate := hdead.2
      have hheight := hvalid t ht
      rw [of_decide_eq_true heq] at hheight
      omega

/-- **In every run** the chain goes on. -/
theorem onward_steps {s s' : Site Network Call Answer} (h : (machine wire).Steps s s') :
    s.world.Onward s'.world := by
  induction h with
  | refl => exact .refl _
  | tail _ hstep ih =>
    obtain ⟨e, hstep⟩ := hstep
    refine ih.trans ?_
    cases hstep with
    | start | crash => exact .refl _
    | answer hx => exact onward_answered _ hx
    | drift hx => exact onward_drifted hx

end Network

end Devnet

end DividendX
