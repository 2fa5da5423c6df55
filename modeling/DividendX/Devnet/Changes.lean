import DividendX.Devnet.Contract
import DividendX.Lib.Result

/-!
# Changes of the ledger

What the methods of `DurableJournal` in `ledger.ts` do to the ledger inside `mutate`: each either
throws, and then nothing is written, or gives the ledger to write. A change carries its arguments
and the readings of the clock it makes, so that it can be written down beside the write it causes.

`Change.Effect` says once what a change can do to operations, counters, leases and fences; every
invariant is read off it.
-/

namespace DividendX

namespace Devnet

open Result

namespace HostedDevnetLedger

/-- `validate`; that the parts of the ledger are there is in its type. -/
def validate (v : HostedDevnetLedger) : Except Failure Unit :=
  require (v.schemaVersion = 1 ∧ v.revision ≤ maxSafeInteger ∧ v.nextFence ≤ maxSafeInteger)
    (.service ⟨503, "The devnet ledger is invalid.", "LEDGER_INVALID", none⟩)

/-- `new ServiceError(409, 'operation changed', 'OPERATION_STATE')` and its siblings. -/
def operationState (message : String) : Failure := .service ⟨409, message, "OPERATION_STATE", none⟩

/-- `new ServiceError(409, 'preparation lease was lost', 'LEASE_LOST')`. -/
def leaseLost : Failure := .service ⟨409, "preparation lease was lost", "LEASE_LOST", none⟩

/-- `new Date(ms).toISOString()` throws on an invalid date. -/
def dateAt (ms : Int) : Except Failure Instant :=
  okOr (Instant.ofMs? ms) (.other "RangeError: Invalid time value")

/-- `value.daily[day] ??= { grants: 0, lamports: 0, visitors: {}, ips: {} }`. -/
def quotaOf (v : HostedDevnetLedger) (day : String) : DailyQuota := (v.daily.get? day).getD .empty

/-- The quota after one more grant. -/
def chargeQuota (quota : DailyQuota) (visitorHash ipHash : Digest) : DailyQuota :=
  { grants := quota.grants + 1
    lamports := quota.lamports + faucetReservationLamports
    visitors := quota.visitors.set visitorHash ((quota.visitors.get? visitorHash).getD 0 + 1)
    ips := quota.ips.set ipHash ((quota.ips.get? ipHash).getD 0 + 1) }

/-- The operation `reserveGrant` records. -/
def grantOperation (owner assetId : String) (visitorHash ipHash : Digest) (day : String)
    (createdAt : Instant) : DurableOperation :=
  { id := grantOperationId owner assetId day, kind := .faucet, state := .reserved
    reservationLamports := faucetReservationLamports, createdAt := createdAt, day := day
    owner := some owner, assetId := assetId, visitorHash := some visitorHash
    ipHash := some ipHash, bucket := none, fence := none, attempt := none
    submittedAt := none, completedAt := none, errorCode := none }

/-- The operation `reserveObservation` records. -/
def observationOperation (assetId : String) (now : Instant) : DurableOperation :=
  { id := observationOperationId assetId (observationBucket now), kind := .observation
    state := .reserved, reservationLamports := observationReservationLamports, createdAt := now
    day := utcDay now, owner := none, assetId := assetId, visitorHash := none, ipHash := none
    bucket := some (observationBucket now), fence := none, attempt := none, submittedAt := none
    completedAt := none, errorCode := none }

/-- The change of `reserveGrant`; `day` was read from the clock before, `createdAt` is read
inside. -/
def reserveGrant (v : HostedDevnetLedger) (owner assetId : String) (visitorHash ipHash : Digest)
    (day : String) (createdAt : Instant) : Except Failure HostedDevnetLedger := do
  require (v.faucetDisabledReason.getD "" = "")
    (.service ⟨503, "The test faucet is disabled.", "FAUCET_DISABLED", none⟩)
  let id := grantOperationId owner assetId day
  if (v.operations.get? id).isSome then return v
  let quota := v.quotaOf day
  require (¬ (quota.grants ≥ faucetDailyGrants
      ∨ quota.lamports + faucetReservationLamports > faucetDailyLamports
      ∨ v.faucetLifetimeLamports + faucetReservationLamports > Devnet.faucetLifetimeLamports))
    (.service ⟨429, "The public test faucet budget is exhausted.", "GLOBAL_QUOTA", some 3_600⟩)
  require (¬ (quota.visitors.get? visitorHash).getD 0 ≥ visitorDailyGrants)
    (.service ⟨429, "The visitor test-faucet limit is reached.", "VISITOR_QUOTA", some 3_600⟩)
  require (¬ (quota.ips.get? ipHash).getD 0 ≥ ipDailyGrants)
    (.service ⟨429, "The network test-faucet limit is reached.", "IP_QUOTA", some 3_600⟩)
  return { v with
    daily := v.daily.set day (chargeQuota quota visitorHash ipHash)
    faucetLifetimeLamports := v.faucetLifetimeLamports + faucetReservationLamports
    operations := v.operations.set id
      (grantOperation owner assetId visitorHash ipHash day createdAt) }

/-- The change of `reserveObservation`. -/
def reserveObservation (v : HostedDevnetLedger) (assetId : String) (now : Instant) :
    Except Failure HostedDevnetLedger := do
  let id := observationOperationId assetId (observationBucket now)
  if (v.operations.get? id).isSome then return v
  require (¬ v.observationLifetimeLamports + observationReservationLamports
      > Devnet.observationLifetimeLamports)
    (.service ⟨503, "The observation refresh budget is exhausted.", "OBSERVATION_BUDGET", none⟩)
  return { v with
    observationLifetimeLamports := v.observationLifetimeLamports + observationReservationLamports
    operations := v.operations.set id (observationOperation assetId now) }

/-- The change of `acquire`. -/
def acquire (v : HostedDevnetLedger) (operationId : OperationId) (kind : OperationKind)
    (holder : String) (now : Instant) : Except Failure HostedDevnetLedger := do
  let current ← okOr (v.operations.get? operationId) (operationState "operation changed")
  require (current.state.terminal = false) (operationState "operation changed")
  require (∀ lease ∈ v.leases.get kind, ¬ lease.expiresAt.ms > now.ms) .leaseBusy
  let fence := v.nextFence + 1
  let expiresAt ← dateAt (now.ms + preparationLeaseMs)
  return { v with
    nextFence := fence
    leases := v.leases.set kind (some ⟨operationId, holder, fence, expiresAt⟩)
    -- A reserved operation takes its fence when its attempt is persisted.
    operations := if current.state = .reserved then v.operations
      else v.operations.set operationId { current with fence := some fence } }

/-- The stored lease is the one the caller holds. -/
def sameLease (lease : PreparationLease) (current : PreparationLease) : Bool :=
  current.operationId = lease.operationId ∧ current.holder = lease.holder
    ∧ current.fence = lease.fence

/-- The change of `persistPrepared`. -/
def persistPrepared (v : HostedDevnetLedger) (operationId : OperationId) (lease : PreparationLease)
    (attempt : SignedAttempt) (now : Instant) : Except Failure HostedDevnetLedger := do
  let operation ← okOr (v.operations.get? operationId) (operationState "operation changed")
  require (operation.state = .reserved) (operationState "operation changed")
  let current ← okOr (v.leases.get operation.kind) leaseLost
  require (current.operationId = operationId ∧ current.holder = lease.holder
    ∧ current.fence = lease.fence ∧ ¬ current.expiresAt.ms ≤ now.ms) leaseLost
  return { v with
    operations := v.operations.set operationId
      { operation with state := .prepared, fence := some lease.fence, attempt := some attempt } }

/-- An operation moved to a state, with its time stamps and error code. -/
def settled (operation : DurableOperation) (state : OperationState) (errorCode : Option String)
    (submittedAt : Option Instant) (stampedAt : Instant) : DurableOperation :=
  { operation with
    state := state
    submittedAt := if state = .submitted then submittedAt else operation.submittedAt
    completedAt := if state.terminal then some stampedAt else operation.completedAt
    errorCode := errorCode }

/-- `if (sameLease) value.leases[operation.kind] = null`. -/
def releasedLeases (v : HostedDevnetLedger) (lease : PreparationLease) (kind : OperationKind) :
    Leases :=
  if (v.leases.get kind).any (sameLease lease) then v.leases.set kind none else v.leases

/-- The change of `release`; the clock is read for the fence and again for the time stamp. -/
def release (v : HostedDevnetLedger) (lease : PreparationLease) (state : Option OperationState)
    (errorCode : Option String) (checkedAt stampedAt : Instant) :
    Except Failure HostedDevnetLedger := do
  let operation ← okOr (v.operations.get? lease.operationId) (operationState "operation missing")
  let current := v.leases.get operation.kind
  let ownsFence := current.any (sameLease lease) && (operation.fence = some lease.fence
    && current.any fun l => l.expiresAt.ms > checkedAt.ms)
  let leases := v.releasedLeases lease operation.kind
  match state with
  | none => return { v with leases := leases }
  | some state =>
    -- What is settled stays as it is, and only the lease goes.
    if operation.state.terminal then return { v with leases := leases }
    require (ownsFence = true) leaseLost
    require (operation.state.signed = true) (operationState "operation changed")
    return { v with
      leases := leases
      operations := v.operations.set lease.operationId
        (settled operation state errorCode (some stampedAt) stampedAt) }

/-- The change of `transition`. -/
def transition (v : HostedDevnetLedger) (operationId : OperationId) (state : OperationState)
    (errorCode : Option String) (stampedAt : Instant) : Except Failure HostedDevnetLedger := do
  let operation ← okOr (v.operations.get? operationId) (operationState "operation missing")
  if operation.state.terminal then return v
  require (operation.attempt.isSome = true ∧ (state = .submitted ∨ state.terminal = true))
    (operationState "operation changed")
  return { v with
    operations := v.operations.set operationId
      (settled operation state errorCode (some (operation.submittedAt.getD stampedAt)) stampedAt) }

/-- The change of `disableFaucet`. -/
def disableFaucet (v : HostedDevnetLedger) (reason : String) : HostedDevnetLedger :=
  { v with faucetDisabledReason := some (v.faucetDisabledReason.getD reason) }

end HostedDevnetLedger

/-- A change of the ledger with its arguments. -/
inductive Change
  | reserveGrant (owner assetId : String) (visitorHash ipHash : Digest) (day : String)
      (createdAt : Instant)
  | reserveObservation (assetId : String) (now : Instant)
  | acquire (operationId : OperationId) (kind : OperationKind) (holder : String) (now : Instant)
  | persistPrepared (operationId : OperationId) (lease : PreparationLease) (attempt : SignedAttempt)
      (now : Instant)
  | release (lease : PreparationLease) (state : Option OperationState) (errorCode : Option String)
      (checkedAt stampedAt : Instant)
  | transition (operationId : OperationId) (state : OperationState) (errorCode : Option String)
      (stampedAt : Instant)
  | disableFaucet (reason : String)

namespace Change

/-- Carry a change out. -/
def apply : Change → HostedDevnetLedger → Except Failure HostedDevnetLedger
  | .reserveGrant owner assetId visitorHash ipHash day createdAt, v =>
    v.reserveGrant owner assetId visitorHash ipHash day createdAt
  | .reserveObservation assetId now, v => v.reserveObservation assetId now
  | .acquire operationId kind holder now, v => v.acquire operationId kind holder now
  | .persistPrepared operationId lease attempt now, v =>
    v.persistPrepared operationId lease attempt now
  | .release lease state errorCode checkedAt stampedAt, v =>
    v.release lease state errorCode checkedAt stampedAt
  | .transition operationId state errorCode stampedAt, v =>
    v.transition operationId state errorCode stampedAt
  | .disableFaucet reason, v => .ok (v.disableFaucet reason)

/-- What `mutate` makes of a ledger: validate, change, count the revision. -/
def mutate (c : Change) (v : HostedDevnetLedger) : Except Failure HostedDevnetLedger := do
  v.validate
  let next ← c.apply v
  return { next with revision := next.revision + 1 }

/-- A change that goes through counts up the revision. -/
theorem mutate_eq_ok {c : Change} {v v' : HostedDevnetLedger} (h : c.mutate v = .ok v') :
    ∃ next, c.apply v = .ok next ∧ v' = { next with revision := next.revision + 1 } := by
  rw [mutate] at h
  simp only [bind_eq_ok, exists_unit, pure_eq_ok] at h
  obtain ⟨-, next, hnext, rfl⟩ := h
  exact ⟨next, hnext, rfl⟩

/-- A ledger that is changed passed `validate`. -/
theorem validate_of_mutate {c : Change} {v v' : HostedDevnetLedger} (h : c.mutate v = .ok v') :
    v.schemaVersion = 1 ∧ v.revision ≤ maxSafeInteger ∧ v.nextFence ≤ maxSafeInteger := by
  rw [mutate, HostedDevnetLedger.validate] at h
  simp only [bind_eq_ok, exists_unit, require_eq_ok] at h
  exact h.1

theorem mutate_of_apply {c : Change} {v next : HostedDevnetLedger} (h : c.apply v = .ok next)
    (hschema : v.schemaVersion = 1) (hrevision : v.revision ≤ maxSafeInteger)
    (hfence : v.nextFence ≤ maxSafeInteger) :
    c.mutate v = .ok { next with revision := next.revision + 1 } := by
  rw [mutate, HostedDevnetLedger.validate]
  simp only [bind_eq_ok, exists_unit, require_eq_ok, pure_eq_ok]
  exact ⟨⟨hschema, hrevision, hfence⟩, next, h, rfl⟩

end Change

/-! ## What a change can do -/

namespace HostedDevnetLedger

variable {v next : HostedDevnetLedger}

/-- The counters of both budgets. -/
structure SameBudgets (v next : HostedDevnetLedger) : Prop where
  faucet : next.faucetLifetimeLamports = v.faucetLifetimeLamports
  observation : next.observationLifetimeLamports = v.observationLifetimeLamports
  daily : next.daily = v.daily

/-- A grant is recorded: there was room for it, and every counter it belongs to moved. -/
structure Grants (v next : HostedDevnetLedger) (owner assetId : String)
    (visitorHash ipHash : Digest)
    (day : String) (createdAt : Instant) : Prop where
  fresh : v.operations.get? (grantOperationId owner assetId day) = none
  grants : (v.quotaOf day).grants < faucetDailyGrants
  lamports : (v.quotaOf day).lamports + faucetReservationLamports ≤ faucetDailyLamports
  lifetime : v.faucetLifetimeLamports + faucetReservationLamports ≤ Devnet.faucetLifetimeLamports
  visitor : ((v.quotaOf day).visitors.get? visitorHash).getD 0 < visitorDailyGrants
  ip : ((v.quotaOf day).ips.get? ipHash).getD 0 < ipDailyGrants
  next : next = { v with
    daily := v.daily.set day (chargeQuota (v.quotaOf day) visitorHash ipHash)
    faucetLifetimeLamports := v.faucetLifetimeLamports + faucetReservationLamports
    operations := v.operations.set (grantOperationId owner assetId day)
      (grantOperation owner assetId visitorHash ipHash day createdAt) }

/-- An observation is recorded. -/
structure Observes (v next : HostedDevnetLedger) (assetId : String) (now : Instant) : Prop where
  fresh : v.operations.get? (observationOperationId assetId (observationBucket now)) = none
  lifetime : v.observationLifetimeLamports + observationReservationLamports
    ≤ Devnet.observationLifetimeLamports
  next : next = { v with
    observationLifetimeLamports := v.observationLifetimeLamports + observationReservationLamports
    operations := v.operations.set (observationOperationId assetId (observationBucket now))
      (observationOperation assetId now) }

/-- A grant is there already, or new and charged to its budgets. -/
theorem reserveGrant_eq_ok {owner assetId : String} {visitorHash ipHash : Digest} {day : String}
    {createdAt : Instant}
    (h : v.reserveGrant owner assetId visitorHash ipHash day createdAt = .ok next) :
    (next = v ∧ (v.operations.get? (grantOperationId owner assetId day)).isSome) ∨
      Grants v next owner assetId visitorHash ipHash day createdAt := by
  rw [reserveGrant] at h
  simp only [bind_eq_ok, exists_unit, require_eq_ok] at h
  obtain ⟨-, h⟩ := h
  split at h
  · rename_i hknown
    exact .inl ⟨(pure_eq_ok.mp h).symm, hknown⟩
  · rename_i hfresh
    simp only [bind_eq_ok, exists_unit, require_eq_ok, pure_eq_ok] at h
    obtain ⟨hglobal, hvisitor, hip, rfl⟩ := h
    simp only [not_or, not_le, not_lt, ge_iff_le, gt_iff_lt] at hglobal hvisitor hip
    obtain ⟨hgrants, hlamports, hlifetime⟩ := hglobal
    exact .inr ⟨by simpa using hfresh, hgrants, hlamports, hlifetime, hvisitor, hip, rfl⟩

/-- So is an observation. -/
theorem reserveObservation_eq_ok {assetId : String} {now : Instant}
    (h : v.reserveObservation assetId now = .ok next) :
    (next = v ∧ (v.operations.get? (observationOperationId assetId (observationBucket now))).isSome)
      ∨ Observes v next assetId now := by
  unfold reserveObservation at h
  dsimp only at h
  split at h
  · rename_i hknown
    exact .inl ⟨(pure_eq_ok.mp h).symm, hknown⟩
  · rename_i hfresh
    simp only [bind_eq_ok, exists_unit, require_eq_ok, pure_eq_ok] at h
    obtain ⟨hlifetime, rfl⟩ := h
    exact .inr ⟨by simpa using hfresh, not_lt.mp hlifetime, rfl⟩

/-- A lease is acquired for an operation that is there and not settled. -/
theorem acquire_eq_ok {operationId : OperationId} {kind : OperationKind} {holder : String}
    {now : Instant} (h : v.acquire operationId kind holder now = .ok next) :
    ∃ current expiresAt, v.operations.get? operationId = some current
      ∧ current.state.terminal = false
      ∧ next = { v with
        nextFence := v.nextFence + 1
        leases := v.leases.set kind (some ⟨operationId, holder, v.nextFence + 1, expiresAt⟩)
        operations := if current.state = .reserved then v.operations
          else v.operations.set operationId { current with fence := some (v.nextFence + 1) } } := by
  rw [acquire] at h
  simp only [bind_eq_ok, exists_unit, require_eq_ok, okOr_eq_ok, pure_eq_ok] at h
  obtain ⟨current, hcurrent, hstate, -, expiresAt, -, rfl⟩ := h
  exact ⟨current, expiresAt, hcurrent, hstate, rfl⟩

/-- An attempt is kept under the lease, for a reserved operation. -/
theorem persistPrepared_eq_ok {operationId : OperationId} {lease : PreparationLease}
    {attempt : SignedAttempt} {now : Instant}
    (h : v.persistPrepared operationId lease attempt now = .ok next) :
    ∃ operation current, v.operations.get? operationId = some operation
      ∧ operation.state = .reserved ∧ v.leases.get operation.kind = some current
      ∧ (current.operationId = operationId ∧ current.holder = lease.holder
        ∧ current.fence = lease.fence)
      ∧ next = { v with
        operations := v.operations.set operationId { operation with
          state := .prepared, fence := some lease.fence, attempt := some attempt } } := by
  rw [persistPrepared] at h
  simp only [bind_eq_ok, exists_unit, require_eq_ok, okOr_eq_ok, pure_eq_ok] at h
  obtain ⟨operation, hoperation, hstate, current, hcurrent, ⟨hid, hholder, hfence, -⟩, rfl⟩ := h
  exact ⟨operation, current, hoperation, hstate, hcurrent, ⟨hid, hholder, hfence⟩, rfl⟩

/-- A release clears its own lease; it moves the operation only under its own fence. -/
theorem release_eq_ok {lease : PreparationLease} {state : Option OperationState}
    {errorCode : Option String} {checkedAt stampedAt : Instant}
    (h : v.release lease state errorCode checkedAt stampedAt = .ok next) :
    ∃ operation, v.operations.get? lease.operationId = some operation
      ∧ (next = { v with leases := v.releasedLeases lease operation.kind } ∨ ∃ target,
        state = some target ∧ operation.state.signed = true
        ∧ (v.leases.get operation.kind).any (sameLease lease) = true
        ∧ next = { v with
          leases := v.releasedLeases lease operation.kind
          operations := v.operations.set lease.operationId
            (settled operation target errorCode (some stampedAt) stampedAt) }) := by
  rw [release] at h
  simp only [bind_eq_ok, okOr_eq_ok] at h
  obtain ⟨operation, hoperation, h⟩ := h
  refine ⟨operation, hoperation, ?_⟩
  cases state with
  | none => exact .inl (pure_eq_ok.mp h).symm
  | some target =>
    dsimp only at h
    split at h
    · exact .inl (pure_eq_ok.mp h).symm
    · simp only [bind_eq_ok, exists_unit, require_eq_ok, pure_eq_ok, Bool.and_eq_true] at h
      obtain ⟨⟨hsame, -⟩, hsigned, rfl⟩ := h
      exact .inr ⟨target, rfl, hsigned, hsame, rfl⟩

/-- An operation moves to a state that may come next. -/
theorem transition_eq_ok {operationId : OperationId} {state : OperationState}
    {errorCode : Option String} {stampedAt : Instant}
    (h : v.transition operationId state errorCode stampedAt = .ok next) :
    ∃ operation, v.operations.get? operationId = some operation
      ∧ ((operation.state.terminal = true ∧ next = v) ∨ operation.state.terminal = false
        ∧ operation.attempt.isSome = true ∧ (state = .submitted ∨ state.terminal = true)
        ∧ next = { v with
          operations := v.operations.set operationId (settled operation state errorCode
            (some (operation.submittedAt.getD stampedAt)) stampedAt) }) := by
  rw [transition] at h
  simp only [bind_eq_ok, okOr_eq_ok] at h
  obtain ⟨operation, hoperation, h⟩ := h
  refine ⟨operation, hoperation, ?_⟩
  split at h
  · rename_i hterminal
    exact .inl ⟨hterminal, (pure_eq_ok.mp h).symm⟩
  · rename_i hactive
    simp only [bind_eq_ok, exists_unit, require_eq_ok, pure_eq_ok] at h
    obtain ⟨⟨hattempt, hstate⟩, rfl⟩ := h
    exact .inr ⟨by simpa using hactive, hattempt, hstate, rfl⟩

/-! ## Changes that pass their checks -/

/-- A new observation within the budget. -/
theorem reserveObservation_ok {assetId : String} {now : Instant}
    (hfresh : v.operations.get? (observationOperationId assetId (observationBucket now)) = none)
    (hlifetime : v.observationLifetimeLamports + observationReservationLamports
      ≤ Devnet.observationLifetimeLamports) :
    v.reserveObservation assetId now = .ok { v with
      observationLifetimeLamports := v.observationLifetimeLamports + observationReservationLamports
      operations := v.operations.set (observationOperationId assetId (observationBucket now))
        (observationOperation assetId now) } := by
  rw [reserveObservation]
  simp only [hfresh, Option.isSome_none, Bool.false_eq_true, if_false, bind_eq_ok, exists_unit,
    require_eq_ok, pure_eq_ok]
  exact ⟨not_lt.mpr hlifetime, trivial⟩

/-- The lease is acquired if none is in force. -/
theorem acquire_ok {operationId : OperationId} {kind : OperationKind} {holder : String}
    {now expiresAt : Instant} {current : DurableOperation}
    (hcurrent : v.operations.get? operationId = some current)
    (hactive : current.state.terminal = false)
    (hfree : ∀ lease ∈ v.leases.get kind, lease.expiresAt.ms ≤ now.ms)
    (hexpires : Instant.ofMs? (now.ms + preparationLeaseMs) = some expiresAt) :
    v.acquire operationId kind holder now = .ok { v with
      nextFence := v.nextFence + 1
      leases := v.leases.set kind (some ⟨operationId, holder, v.nextFence + 1, expiresAt⟩)
      operations := if current.state = .reserved then v.operations
        else v.operations.set operationId { current with fence := some (v.nextFence + 1) } } := by
  rw [acquire, dateAt]
  simp only [bind_eq_ok, exists_unit, require_eq_ok, okOr_eq_ok, pure_eq_ok]
  exact ⟨current, hcurrent, hactive, fun l hl => not_lt.mpr (hfree l hl), expiresAt, hexpires, rfl⟩

/-- An attempt for an operation without one. -/
theorem persistPrepared_ok {operationId : OperationId} {lease : PreparationLease}
    {attempt : SignedAttempt} {now : Instant} {operation : DurableOperation}
    (hoperation : v.operations.get? operationId = some operation)
    (hstate : operation.state = .reserved) (hlease : v.leases.get operation.kind = some lease)
    (hid : lease.operationId = operationId) (hlive : now.ms < lease.expiresAt.ms) :
    v.persistPrepared operationId lease attempt now = .ok { v with
      operations := v.operations.set operationId
        { operation with state := .prepared, fence := some lease.fence, attempt := some attempt }
          } := by
  rw [persistPrepared]
  simp only [bind_eq_ok, exists_unit, require_eq_ok, okOr_eq_ok, pure_eq_ok]
  exact ⟨operation, hoperation, hstate, lease, hlease, ⟨hid, rfl, rfl, not_le.mpr hlive⟩, rfl⟩

/-- The holder of a lease moves its signed operation and gives the lease back. -/
theorem release_ok {lease : PreparationLease} {target : OperationState} {errorCode : Option String}
    {checkedAt stampedAt : Instant} {operation : DurableOperation}
    (hoperation : v.operations.get? lease.operationId = some operation)
    (hsigned : operation.state.signed = true) (hlease : v.leases.get operation.kind = some lease)
    (hfence : operation.fence = some lease.fence) (hlive : checkedAt.ms < lease.expiresAt.ms) :
    v.release lease (some target) errorCode checkedAt stampedAt = .ok { v with
      leases := v.leases.set operation.kind none
      operations := v.operations.set lease.operationId
        (settled operation target errorCode (some stampedAt) stampedAt) } := by
  have hactive : operation.state.terminal = false := by
    cases h : operation.state <;> simp_all [OperationState.signed, OperationState.terminal]
  have hsame : sameLease lease lease = true := by simp [sameLease]
  simp only [release, releasedLeases]
  simp only [bind_eq_ok, okOr_eq_ok]
  refine ⟨operation, hoperation, ?_⟩
  simp [hlease, hsame, hfence, hlive, hactive, hsigned, require, bind,
    Except.bind, pure, Except.pure]

/-- A move that is allowed. -/
theorem transition_ok {operationId : OperationId} {state : OperationState}
    {errorCode : Option String} {stampedAt : Instant} {operation : DurableOperation}
    (hoperation : v.operations.get? operationId = some operation)
    (hactive : operation.state.terminal = false) (hattempt : operation.attempt.isSome = true)
    (hstate : state = .submitted ∨ state.terminal = true) :
    v.transition operationId state errorCode stampedAt = .ok { v with
      operations := v.operations.set operationId (settled operation state errorCode
        (some (operation.submittedAt.getD stampedAt)) stampedAt) } := by
  rw [transition]
  simp only [bind_eq_ok, okOr_eq_ok]
  refine ⟨operation, hoperation, ?_⟩
  simp only [hactive, Bool.false_eq_true, if_false, bind_eq_ok, exists_unit, require_eq_ok,
    pure_eq_ok]
  exact ⟨⟨hattempt, hstate⟩, trivial⟩

end HostedDevnetLedger

end Devnet

end DividendX
