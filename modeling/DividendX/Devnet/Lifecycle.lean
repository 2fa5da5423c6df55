import DividendX.Devnet.Changes
import Mathlib.Logic.Relation

/-!
# The life of an operation

An operation is recorded as reserved, gets its one signed attempt when it is prepared, and ends
confirmed, failed or expired. `Change.effect` reads off the changes of the ledger that nothing else
happens to it; `HostedDevnetLedger.Evolves` is what that leaves between any two ledgers of one
history.
-/

namespace DividendX

namespace Devnet

/-- The forward steps of an operation's state. -/
inductive OperationState.Follows : OperationState → OperationState → Prop
  | prepare : Follows .reserved .prepared
  | submit : Follows .prepared .submitted
  | finish {s t : OperationState} : s.signed = true → t.terminal = true → Follows s t

/-- A change is used as the service uses it: a release with a target submits or finishes. -/
def Change.Permitted : Change → Prop
  | .release _ (some state) _ _ _ => state = .submitted ∨ state.terminal = true
  | _ => True

namespace DurableOperation

/-- The operation is well-formed: it has its signed attempt from being prepared on. -/
def Coherent (op : DurableOperation) : Prop := op.attempt = none ↔ op.state = .reserved

/-- What an operation keeps for good. -/
structure SameEntry (op op' : DurableOperation) : Prop where
  id : op'.id = op.id
  kind : op'.kind = op.kind
  reservationLamports : op'.reservationLamports = op.reservationLamports
  day : op'.day = op.day
  owner : op'.owner = op.owner
  assetId : op'.assetId = op.assetId
  visitorHash : op'.visitorHash = op.visitorHash
  ipHash : op'.ipHash = op.ipHash

/-- One change of an operation. -/
structure Moves (op op' : DurableOperation) : Prop where
  entry : op.SameEntry op'
  active : op.state.terminal = false
  state : op'.state = op.state ∨ op.state.Follows op'.state
  attempt : ∀ a, op.attempt = some a → op'.attempt = some a
  coherent : op'.Coherent

/-- Any number of changes. -/
structure Advances (op op' : DurableOperation) : Prop where
  entry : op.SameEntry op'
  state : Relation.ReflTransGen OperationState.Follows op.state op'.state
  attempt : ∀ a, op.attempt = some a → op'.attempt = some a
  terminal : op.state.terminal = true → op' = op

variable {op op' op'' : DurableOperation}

theorem SameEntry.refl (op : DurableOperation) : op.SameEntry op :=
  ⟨rfl, rfl, rfl, rfl, rfl, rfl, rfl, rfl⟩

theorem SameEntry.trans (h : op.SameEntry op') (h' : op'.SameEntry op'') : op.SameEntry op'' :=
  ⟨h'.id.trans h.id, h'.kind.trans h.kind, h'.reservationLamports.trans h.reservationLamports,
    h'.day.trans h.day, h'.owner.trans h.owner, h'.assetId.trans h.assetId,
    h'.visitorHash.trans h.visitorHash, h'.ipHash.trans h.ipHash⟩

theorem Advances.refl (op : DurableOperation) : op.Advances op :=
  ⟨.refl op, .refl, fun _ h => h, fun _ => rfl⟩

theorem Advances.trans (h : op.Advances op') (h' : op'.Advances op'') : op.Advances op'' := by
  refine ⟨h.entry.trans h'.entry, h.state.trans h'.state, fun a ha => h'.attempt a (h.attempt a ha),
    fun hterminal => ?_⟩
  have heq := h.terminal hterminal
  rw [← heq] at hterminal
  rw [h'.terminal hterminal, heq]

/-- One move is an advance. -/
theorem Moves.advances (h : op.Moves op') : op.Advances op' := by
  refine ⟨h.entry, ?_, h.attempt, fun hterminal => ?_⟩
  · rcases h.state with heq | hfollows
    · rw [heq]
    · exact .single hfollows
  · rw [h.active] at hterminal
    cases hterminal

end DurableOperation

namespace HostedDevnetLedger

open DurableOperation

/-- Every operation is stored under its own id and well-formed. -/
structure Valid (v : HostedDevnetLedger) : Prop where
  keyed : ∀ {id op}, v.operations.get? id = some op → op.id = id
  coherent : ∀ {id op}, v.operations.get? id = some op → op.Coherent

/-- What a change does: it leaves operations and budgets alone, or moves one operation, or records
a grant or an observation against its budget. -/
inductive Effect (v next : HostedDevnetLedger) : Prop
  | kept : SameBudgets v next → next.operations = v.operations → Effect v next
  | moved {id : OperationId} {op op' : DurableOperation} : SameBudgets v next →
      v.operations.get? id = some op → op.Moves op' → next.operations = v.operations.set id op' →
      Effect v next
  | granted {owner assetId : String} {visitorHash ipHash : Digest} {day : String}
      {createdAt : Instant} : Grants v next owner assetId visitorHash ipHash day createdAt →
      Effect v next
  | observed {assetId : String} {now : Instant} : Observes v next assetId now → Effect v next

/-- Two ledgers of one history. -/
structure Evolves (v v' : HostedDevnetLedger) : Prop where
  fence : v.nextFence ≤ v'.nextFence
  operation : ∀ {id op}, v.operations.get? id = some op →
    ∃ op', v'.operations.get? id = some op' ∧ op.Advances op'
  lease : ∀ {k cur}, v'.leases.get k = some cur → v.leases.get k = some cur ∨
    v.nextFence < cur.fence

variable {v v' v'' next : HostedDevnetLedger}

theorem valid_emptyLedger : Valid emptyLedger :=
  ⟨fun h => by simp [emptyLedger] at h, fun h => by simp [emptyLedger] at h⟩

theorem Evolves.refl (v : HostedDevnetLedger) : v.Evolves v :=
  ⟨Nat.le_refl _, fun {_ op} h => ⟨op, h, .refl op⟩, fun h => .inl h⟩

theorem Evolves.trans (h : v.Evolves v') (h' : v'.Evolves v'') : v.Evolves v'' := by
  refine ⟨h.fence.trans h'.fence, fun hop => ?_, fun hcur => ?_⟩
  · obtain ⟨op', hop', hadv⟩ := h.operation hop
    obtain ⟨op'', hop'', hadv'⟩ := h'.operation hop'
    exact ⟨op'', hop'', hadv.trans hadv'⟩
  · rcases h'.lease hcur with hcur' | hlt
    · exact h.lease hcur'
    · exact .inr (h.fence.trans_lt hlt)

/-! ## Operations under an effect -/

/-- A stored operation is replaced or a new one is stored. -/
theorem Valid.set {id : OperationId} {op : DurableOperation} (hv : v.Valid) (hid : op.id = id)
    (hcoherent : op.Coherent) (heq : next.operations = v.operations.set id op) : next.Valid := by
  refine ⟨fun {j op'} h => ?_, fun {j op'} h => ?_⟩
  · rw [heq, Record.get?_set] at h
    split at h
    · cases h
      simp_all
    · exact hv.keyed h
  · rw [heq, Record.get?_set] at h
    split at h
    · cases h
      exact hcoherent
    · exact hv.coherent h

/-- What a change does keeps the ledger valid. -/
theorem Effect.valid (h : Effect v next) (hv : v.Valid) : next.Valid := by
  cases h with
  | kept _ heq => exact ⟨fun h => hv.keyed (heq ▸ h), fun h => hv.coherent (heq ▸ h)⟩
  | moved _ hop hmoves heq =>
    exact hv.set (hmoves.entry.id.trans (hv.keyed hop)) hmoves.coherent heq
  | granted hgrants =>
    have hcoherent : ∀ {owner assetId visitorHash ipHash day createdAt}, Coherent
        (grantOperation owner assetId visitorHash ipHash day createdAt) := by
      simp [Coherent, grantOperation]
    exact hv.set rfl hcoherent (congrArg operations hgrants.next)
  | observed hobserves =>
    have hcoherent : ∀ {assetId now}, Coherent (observationOperation assetId now) := by
      simp [Coherent, observationOperation]
    exact hv.set rfl hcoherent (congrArg operations hobserves.next)

/-- What was recorded is still there, and has at most moved. -/
theorem Effect.operation {id : OperationId} {op : DurableOperation} (h : Effect v next)
    (hop : v.operations.get? id = some op) :
    ∃ op', next.operations.get? id = some op' ∧ (op' = op ∨ op.Moves op') := by
  -- another entry is as before
  have hother : ∀ {j new}, next.operations = v.operations.set j new → id ≠ j →
      ∃ op', next.operations.get? id = some op' ∧ (op' = op ∨ op.Moves op') := by
    intro j new heq hne
    refine ⟨op, ?_, .inl rfl⟩
    rw [heq, Record.get?_set, if_neg hne]
    exact hop
  have hfresh : ∀ {j}, v.operations.get? j = none → id ≠ j := by
    rintro j hfresh rfl
    rw [hfresh] at hop
    cases hop
  cases h with
  | kept _ heq => exact ⟨op, heq ▸ hop, .inl rfl⟩
  | @moved j old new _ hold hmoves heq =>
    by_cases hj : id = j
    · subst hj
      rw [hold] at hop
      cases hop
      exact ⟨new, by rw [heq]; simp, .inr hmoves⟩
    · exact hother heq hj
  | granted hgrants => exact hother (congrArg operations hgrants.next) (hfresh hgrants.fresh)
  | observed hobserves => exact hother (congrArg operations hobserves.next) (hfresh hobserves.fresh)

end HostedDevnetLedger

/-! ## The effect of each change -/

namespace Change

open HostedDevnetLedger DurableOperation

variable {v next : HostedDevnetLedger} {c : Change}

/-- A signed operation that is submitted or finished moves. -/
theorem moves_settled {op : DurableOperation} {target : OperationState} {errorCode : Option String}
    {submittedAt : Option Instant} {stampedAt : Instant} (hcoherent : op.Coherent)
    (hsigned : op.state.signed = true) (htarget : target = .submitted ∨ target.terminal = true) :
    op.Moves (settled op target errorCode submittedAt stampedAt) := by
  have hactive : op.state.terminal = false := by
    cases hstate : op.state <;> simp_all [OperationState.signed, OperationState.terminal]
  refine ⟨⟨rfl, rfl, rfl, rfl, rfl, rfl, rfl, rfl⟩, hactive, ?_, fun a h => h, ?_⟩
  · change target = op.state ∨ op.state.Follows target
    rcases htarget with rfl | hterminal
    · cases hstate : op.state with
      | prepared => exact .inr .submit
      | submitted => exact .inl rfl
      | reserved | confirmed | failed | expired => simp [hstate, OperationState.signed] at hsigned
    · exact .inr (.finish hsigned hterminal)
  · have hreserved : op.state ≠ .reserved := fun h => by simp [h, OperationState.signed] at hsigned
    have htarget' : target ≠ .reserved := by
      rintro rfl
      rcases htarget with h | h <;> cases h
    have hattempt : op.attempt ≠ none := fun h => hreserved (hcoherent.mp h)
    simp [Coherent, settled, hattempt, htarget']

/-- An operation with an attempt that is not terminal is signed. -/
theorem signed_of_attempt {op : DurableOperation} (hcoherent : op.Coherent)
    (hactive : op.state.terminal = false) (hattempt : op.attempt.isSome = true) :
    op.state.signed = true := by
  have hreserved : op.state ≠ .reserved := by
    intro h
    rw [hcoherent.mpr h] at hattempt
    cases hattempt
  cases hstate : op.state <;> simp_all [OperationState.signed, OperationState.terminal]

/-- **What a change can do.** -/
theorem effect (hv : v.Valid) (hp : c.Permitted) (h : c.apply v = .ok next) : Effect v next := by
  cases c with
  | reserveGrant owner assetId visitorHash ipHash day createdAt =>
    rcases reserveGrant_eq_ok h with ⟨rfl, -⟩ | hgrants
    · exact .kept ⟨rfl, rfl, rfl⟩ rfl
    · exact .granted hgrants
  | reserveObservation assetId now =>
    rcases reserveObservation_eq_ok h with ⟨rfl, -⟩ | hobserves
    · exact .kept ⟨rfl, rfl, rfl⟩ rfl
    · exact .observed hobserves
  | acquire operationId kind holder now =>
    obtain ⟨current, expiresAt, hcurrent, hactive, rfl⟩ := acquire_eq_ok h
    -- A reserved operation gets its fence only with its attempt.
    by_cases hreserved : current.state = .reserved
    · exact .kept ⟨rfl, rfl, rfl⟩ (if_pos hreserved)
    · have hcoherent := hv.coherent hcurrent
      have hmoves : current.Moves { current with fence := some (v.nextFence + 1) } :=
        ⟨⟨rfl, rfl, rfl, rfl, rfl, rfl, rfl, rfl⟩, hactive, .inl rfl, fun a ha => ha, hcoherent⟩
      exact .moved ⟨rfl, rfl, rfl⟩ hcurrent hmoves (if_neg hreserved)
  | persistPrepared operationId lease attempt now =>
    obtain ⟨operation, current, hoperation, hstate, -, -, rfl⟩ := persistPrepared_eq_ok h
    refine .moved ⟨rfl, rfl, rfl⟩ hoperation ?_ rfl
    have hnone := (hv.coherent hoperation).mpr hstate
    refine ⟨⟨rfl, rfl, rfl, rfl, rfl, rfl, rfl, rfl⟩, by rw [hstate]; rfl, ?_, ?_, ?_⟩
    · rw [hstate]
      exact .inr .prepare
    · intro a ha
      rw [hnone] at ha
      cases ha
    · simp [Coherent]
  | release lease state errorCode checkedAt stampedAt =>
    obtain ⟨operation, hoperation, rfl | ⟨target, rfl, hsigned, -, rfl⟩⟩ := release_eq_ok h
    · exact .kept ⟨rfl, rfl, rfl⟩ rfl
    · exact .moved ⟨rfl, rfl, rfl⟩ hoperation
        (moves_settled (hv.coherent hoperation) hsigned hp) rfl
  | transition operationId state errorCode stampedAt =>
    obtain ⟨operation, hoperation, ⟨-, rfl⟩ | ⟨hactive, hattempt, hstate, rfl⟩⟩ :=
      transition_eq_ok h
    · exact .kept ⟨rfl, rfl, rfl⟩ rfl
    · have hsigned := signed_of_attempt (hv.coherent hoperation) hactive hattempt
      exact .moved ⟨rfl, rfl, rfl⟩ hoperation
        (moves_settled (hv.coherent hoperation) hsigned hstate) rfl
  | disableFaucet reason =>
    cases h
    exact .kept ⟨rfl, rfl, rfl⟩ rfl

/-- **What a change can do to fences and leases**: a lease that was not there before has the next
fence. -/
theorem fences (h : c.apply v = .ok next) : v.nextFence ≤ next.nextFence ∧
    ∀ k cur, next.leases.get k = some cur → v.leases.get k = some cur ∨
      v.nextFence < cur.fence := by
  cases c with
  | reserveGrant owner assetId visitorHash ipHash day createdAt =>
    rcases reserveGrant_eq_ok h with ⟨rfl, -⟩ | hgrants
    · exact ⟨Nat.le_refl _, fun _ _ hcur => .inl hcur⟩
    · rw [hgrants.next]
      exact ⟨Nat.le_refl _, fun _ _ hcur => .inl hcur⟩
  | reserveObservation assetId now =>
    rcases reserveObservation_eq_ok h with ⟨rfl, -⟩ | hobserves
    · exact ⟨Nat.le_refl _, fun _ _ hcur => .inl hcur⟩
    · rw [hobserves.next]
      exact ⟨Nat.le_refl _, fun _ _ hcur => .inl hcur⟩
  | acquire operationId kind holder now =>
    obtain ⟨current, expiresAt, -, -, rfl⟩ := acquire_eq_ok h
    refine ⟨Nat.le_succ _, fun k cur hcur => ?_⟩
    rw [Leases.get_set] at hcur
    split at hcur
    · cases hcur
      exact .inr (Nat.lt_succ_self _)
    · exact .inl hcur
  | persistPrepared operationId lease attempt now =>
    obtain ⟨operation, current, -, -, -, -, rfl⟩ := persistPrepared_eq_ok h
    exact ⟨Nat.le_refl _, fun _ _ hcur => .inl hcur⟩
  | release lease state errorCode checkedAt stampedAt =>
    -- A release takes a lease away and gives none.
    have hreleased : ∀ kind k cur, (v.releasedLeases lease kind).get k = some cur →
        v.leases.get k = some cur := by
      intro kind k cur hcur
      rw [releasedLeases] at hcur
      split at hcur
      · rw [Leases.get_set] at hcur
        split at hcur
        · cases hcur
        · exact hcur
      · exact hcur
    obtain ⟨operation, -, rfl | ⟨target, -, -, -, rfl⟩⟩ := release_eq_ok h
    · exact ⟨Nat.le_refl _, fun k cur hcur => .inl (hreleased _ k cur hcur)⟩
    · exact ⟨Nat.le_refl _, fun k cur hcur => .inl (hreleased _ k cur hcur)⟩
  | transition operationId state errorCode stampedAt =>
    obtain ⟨operation, -, ⟨-, rfl⟩ | ⟨-, -, -, rfl⟩⟩ := transition_eq_ok h
    · exact ⟨Nat.le_refl _, fun _ _ hcur => .inl hcur⟩
    · exact ⟨Nat.le_refl _, fun _ _ hcur => .inl hcur⟩
  | disableFaucet reason =>
    cases h
    exact ⟨Nat.le_refl _, fun _ _ hcur => .inl hcur⟩

/-- A ledger that a change leaves is one of the same history. -/
theorem evolves (hv : v.Valid) (hp : c.Permitted) (h : c.apply v = .ok next) : v.Evolves next := by
  refine ⟨(fences h).1, fun hop => ?_, fun hcur => (fences h).2 _ _ hcur⟩
  obtain ⟨op', hop', rfl | hmoves⟩ := (effect hv hp h).operation hop
  · exact ⟨_, hop', .refl _⟩
  · exact ⟨op', hop', hmoves.advances⟩

end Change

end Devnet

end DividendX
