import DividendX.Devnet.Safety

/-!
# Exactly once

What the durable journal promises about an operation over every interleaving of any number of
instances, with leases that expire at any time, conflicting and failing writes, and crashes: one
signed attempt, sent only as it is stored, a state that only moves forward, fences that only grow,
and no effect of a holder whose lease has been given to another.
-/

namespace DividendX

namespace Devnet

open HostedDevnetLedger

/-- The write that takes effect at a moment. -/
def landed : Event Call Answer (Put Change HostedDevnetLedger) →
  Option (Put Change HostedDevnetLedger)
  | .answered (.put p) (.ok true) => some p
  | .drifted p => some p
  | _ => none

/-- A lease of a kind is handed out. -/
def Hands (e : Event Call Answer (Put Change HostedDevnetLedger)) (kind : OperationKind)
    (lease : PreparationLease) : Prop :=
  ∃ p operationId holder now, landed e = some p ∧ p.change = .acquire operationId kind holder now
    ∧ p.value.leases.get kind = some lease

/-- The operation a lease holder sets out to change, and the lease it holds: `persistPrepared`, or
`release` with a target state. -/
def Change.heldBy : Change → Option (OperationId × PreparationLease)
  | .persistPrepared operationId lease _ _ => some (operationId, lease)
  | .release lease (some _) _ _ _ => some (lease.operationId, lease)
  | _ => none

variable {s s' : Site World Call Answer} {e : Event Call Answer (Put Change HostedDevnetLedger)}
  {p : Put Change HostedDevnetLedger}

/-- The ledger moves only by a write that takes effect, and then by its change. -/
theorem step_ledger (hs : discipline.Sound s) (h : machine.Step s e s') :
    (landed e = none ∧ s'.world.ledger = s.world.ledger) ∨
      ∃ p, landed e = some p ∧ p.value = s'.world.ledger
        ∧ Next p.change s.world.ledger s'.world.ledger := by
  cases h with
  | start hp => exact .inl ⟨rfl, rfl⟩
  | crash => exact .inl ⟨rfl, rfl⟩
  | drift hd =>
    cases hd with
    | lands hlands =>
      refine .inr ⟨_, rfl, ?_, hlands.change hs.inv.orderly⟩
      cases hlands with
      | late => rfl
  | @answer w w' l r c k x hx =>
    have hmay : May c w :=
      (hs.threads (.await c k) (List.mem_append_right l List.mem_cons_self) w (discipline.refl w)
        hs.inv).1
    cases hx with
    | put hput =>
      cases hput with
      | saved heq => exact .inr ⟨_, rfl, rfl, hmay.2 heq⟩
      | refused => exact .inl ⟨rfl, rfl⟩
      | lost e => exact .inl ⟨rfl, rfl⟩
    | now | randomUUID | writeDisabled | disableWrites | read | readFails | prepareFaucet
    | prepareObservation | verifyPrepared | sendExact | transactionStatus | blockHeight
    | verifyOutcome => exact .inl ⟨rfl, rfl⟩

theorem next_of_landed (hs : discipline.Sound s) (h : machine.Step s e s')
    (hp : landed e = some p) :
    p.value = s'.world.ledger ∧ Next p.change s.world.ledger s'.world.ledger := by
  rcases step_ledger hs h with ⟨hnone, -⟩ | ⟨q, hq, hvalue, hnext⟩
  · rw [hnone] at hp
    cases hp
  · rw [hq] at hp
    cases hp
    exact ⟨hvalue, hnext⟩

/-- What one moment does: nothing, or the effect of a change. -/
theorem step_effect (hs : discipline.Sound s) (h : machine.Step s e s') :
    s'.world.ledger.operations = s.world.ledger.operations
      ∨ ∃ next, Effect s.world.ledger next ∧ s'.world.ledger.operations = next.operations := by
  rcases step_ledger hs h with ⟨-, heq⟩ | ⟨p, -, -, hpermitted, hmutate⟩
  · rw [heq]
    exact .inl rfl
  · obtain ⟨next, happly, heq⟩ := Change.mutate_eq_ok hmutate
    refine .inr ⟨next, Change.effect hs.inv.valid hpermitted happly, ?_⟩
    rw [heq]

/-- An operation is stored under the same id before and after a moment. -/
theorem step_state {id : OperationId} {op op' : DurableOperation} (hs : discipline.Sound s)
    (h : machine.Step s e s') (hop : s.world.ledger.operations.get? id = some op)
    (hop' : s'.world.ledger.operations.get? id = some op') :
    op'.state = op.state ∨ op.state.Follows op'.state := by
  rcases step_effect hs h with heq | ⟨next, heffect, heq⟩
  · rw [heq, hop] at hop'
    cases hop'
    exact .inl rfl
  · obtain ⟨op'', hop'', hmoved⟩ := heffect.operation hop
    rw [heq, hop''] at hop'
    cases hop'
    rcases hmoved with rfl | hmoves
    · exact .inl rfl
    · exact hmoves.state

/-- A new operation is reserved. -/
theorem step_fresh {id : OperationId} {op : DurableOperation} (hs : discipline.Sound s)
    (h : machine.Step s e s') (hfresh : s.world.ledger.operations.get? id = none)
    (hop : s'.world.ledger.operations.get? id = some op) :
    op.state = .reserved ∧ op.attempt = none := by
  rcases step_effect hs h with heq | ⟨next, heffect, heq⟩
  · rw [heq, hfresh] at hop
    cases hop
  · rw [heq] at hop
    cases heffect with
    | kept _ hkept =>
      rw [hkept, hfresh] at hop
      cases hop
    | @moved j old new _ hold _ hset =>
      have hne : id ≠ j := by
        rintro rfl
        rw [hfresh] at hold
        cases hold
      rw [hset, Record.get?_set, if_neg hne, hfresh] at hop
      cases hop
    | granted hgrants =>
      rw [hgrants.next, Record.get?_set, hfresh] at hop
      split at hop
      · cases hop
        exact ⟨rfl, rfl⟩
      · cases hop
    | observed hobserves =>
      rw [hobserves.next, Record.get?_set, hfresh] at hop
      split at hop
      · cases hop
        exact ⟨rfl, rfl⟩
      · cases hop

/-- A lease is handed out with the next fence, and the counter stands at it afterwards. -/
theorem fence_of_hands {kind : OperationKind} {lease : PreparationLease} (hs : discipline.Sound s)
    (h : machine.Step s e s') (hhands : Hands e kind lease) :
    lease.fence = s.world.ledger.nextFence + 1 ∧ s'.world.ledger.nextFence = lease.fence
      ∧ s'.world.ledger.leases.get kind = some lease := by
  obtain ⟨p, operationId, holder, now, hp, hchange, hlease⟩ := hhands
  obtain ⟨hvalue, -, hmutate⟩ := next_of_landed hs h hp
  rw [hchange] at hmutate
  obtain ⟨next, happly, heq⟩ := Change.mutate_eq_ok hmutate
  obtain ⟨current, expiresAt, -, -, rfl⟩ := acquire_eq_ok happly
  rw [hvalue] at hlease
  have hcounter : s'.world.ledger.nextFence = s.world.ledger.nextFence + 1 := by rw [heq]
  have hstored : s'.world.ledger.leases.get kind =
      some ⟨operationId, holder, s.world.ledger.nextFence + 1, expiresAt⟩ := by
    rw [heq]
    exact (Leases.get_set _ _ _ _).trans (if_pos rfl)
  have hfence : lease.fence = s.world.ledger.nextFence + 1 := by
    rw [hlease] at hstored
    cases hstored
    rfl
  exact ⟨hfence, by rw [hcounter, hfence], hlease⟩

/-- Under a lease that is not the stored one nothing is prepared and no operation is moved. -/
theorem kept_of_superseded {c : Change} {v next : HostedDevnetLedger} {id : OperationId}
    {lease : PreparationLease} (hheld : c.heldBy = some (id, lease)) (h : c.apply v = .ok next)
    (hsuperseded : ∀ op cur, v.operations.get? id = some op → v.leases.get op.kind = some cur →
      cur.fence ≠ lease.fence) : next.operations = v.operations := by
  cases c with
  | persistPrepared operationId l attempt now =>
    cases hheld
    obtain ⟨op, cur, hop, -, hcur, ⟨-, -, hfence⟩, -⟩ := persistPrepared_eq_ok h
    exact absurd hfence (hsuperseded op cur hop hcur)
  | release l state errorCode checkedAt stampedAt =>
    cases state with
    | none => cases hheld
    | some target =>
      cases hheld
      have hrelease : v.release lease (some target) errorCode checkedAt stampedAt = .ok next := h
      obtain ⟨op, hop, rfl | ⟨-, -, -, hsame, -⟩⟩ := release_eq_ok hrelease
      · rfl
      · rw [Option.any_eq_true] at hsame
        obtain ⟨cur, hcur, hsame⟩ := hsame
        have hfence : cur.fence = lease.fence := by
          simp [sameLease] at hsame
          exact hsame.2.2
        exact absurd hfence (hsuperseded op cur hop hcur)
  | reserveGrant | reserveObservation | acquire | transition | disableFaucet => cases hheld

/-- **Exactly once.** In every reachable site of any number of service instances over one store:

* from now on every operation stays recorded, its attempt is never replaced or cleared, and a
  terminal operation never changes;
* the next moment moves the state of an operation at most one step forward, and a new operation is
  reserved without an attempt;
* every `sendExact` that is under way carries the attempt stored for its operation;
* a lease handed out later has a larger fence;
* a holder for whose kind of operation a later lease was handed out changes no operation through
  `persistPrepared` or `release` with a target state. -/
theorem exactly_once (h : machine.Steps start s) :
    (∀ s', machine.Steps s s' → ∀ id op, s.world.ledger.operations.get? id = some op →
      ∃ op', s'.world.ledger.operations.get? id = some op'
        ∧ (∀ a, op.attempt = some a → op'.attempt = some a)
        ∧ (op.state.terminal = true → op' = op))
    ∧ (∀ e s', machine.Step s e s' → ∀ id op', s'.world.ledger.operations.get? id = some op' →
      (∀ op, s.world.ledger.operations.get? id = some op →
        op'.state = op.state ∨ op.state.Follows op'.state)
      ∧ (s.world.ledger.operations.get? id = none → op'.state = .reserved ∧ op'.attempt = none))
    ∧ (∀ id a k, .await (.sendExact id a) k ∈ s.threads →
      ∃ op, s.world.ledger.operations.get? id = some op ∧ op.attempt = some a)
    ∧ (∀ e s₁ s₂ e' s₃ kind kind' lease lease', machine.Step s e s₁ → Hands e kind lease →
      machine.Steps s₁ s₂ → machine.Step s₂ e' s₃ → Hands e' kind' lease' →
      lease.fence < lease'.fence)
    ∧ (∀ e s₁ s₂ e' s₃ kind lease p id held, machine.Step s e s₁ → Hands e kind lease →
      machine.Steps s₁ s₂ → machine.Step s₂ e' s₃ → landed e' = some p →
      p.change.heldBy = some (id, held) → held.fence < lease.fence →
      (∀ op, s₂.world.ledger.operations.get? id = some op → op.kind = kind) →
      s₃.world.ledger.operations = s₂.world.ledger.operations) := by
  have hs := sound_of_steps h
  refine ⟨?_, ?_, ?_, ?_, ?_⟩
  · intro s' hsteps id op hop
    obtain ⟨op', hop', hadv⟩ :=
      (hs.steps discipline_guards hsteps).2.evolves.operation hop
    exact ⟨op', hop', hadv.attempt, hadv.terminal⟩
  · intro e s' hstep id op' hop'
    exact ⟨fun op hop => step_state hs hstep hop hop',
      fun hfresh => step_fresh hs hstep hfresh hop'⟩
  · intro id a k hmem
    exact (hs.threads _ hmem s.world (discipline.refl _) hs.inv).1
  · intro e s₁ s₂ e' s₃ kind kind' lease lease' hstep hhands hsteps hstep' hhands'
    have hs₁ := (hs.step discipline_guards hstep).1
    obtain ⟨hs₂, hrely⟩ := hs₁.steps discipline_guards hsteps
    obtain ⟨-, hfence, -⟩ := fence_of_hands hs hstep hhands
    obtain ⟨hfence', -, -⟩ := fence_of_hands hs₂ hstep' hhands'
    have hle := (Rely.evolves hrely).fence
    omega
  · intro e s₁ s₂ e' s₃ kind lease p id held hstep hhands hsteps hstep' hp hheld hlt hkind
    have hs₁ := (hs.step discipline_guards hstep).1
    obtain ⟨hs₂, hrely⟩ := hs₁.steps discipline_guards hsteps
    obtain ⟨-, hfence, hstored⟩ := fence_of_hands hs hstep hhands
    obtain ⟨-, -, hmutate⟩ := next_of_landed hs₂ hstep' hp
    obtain ⟨next, happly, heq⟩ := Change.mutate_eq_ok hmutate
    have hkept : next.operations = s₂.world.ledger.operations := by
      refine kept_of_superseded hheld happly fun op cur hop hcur => ?_
      rw [hkind op hop] at hcur
      -- the stored lease is the one handed out, or a still later one
      rcases (Rely.evolves hrely).lease hcur with hsame | hlater
      · rw [hstored] at hsame
        cases hsame
        omega
      · omega
    rw [heq]
    exact hkept

/-- The program is about to send an attempt. -/
def sends (attempt : SignedAttempt) : Async Call Answer Unit → Bool
  | .await (.sendExact _ a) _ => a = attempt
  | _ => false

/-- A request for funds, up to the moment its transaction is sent. -/
theorem exactly_once_sample :
    ∃ s id op, machine.Steps start s ∧ (∃ k, .await (.sendExact id Sample.attempt) k ∈ s.threads)
      ∧ s.world.ledger.operations.get? id = some op ∧ op.attempt = some Sample.attempt := by
  have hplay : (play
      [.flag, .time Sample.noon, .store, .time Sample.noon, .store, .uuid "holder",
        .time Sample.noon, .store, .store, .attempt Sample.attempt, .time Sample.noon, .store,
        .store, .done, .store, .time Sample.noon]
      start.world (Sample.service.fund Sample.request Sample.digest Sample.digest).run.forget).any
      (fun r => sends Sample.attempt r.2) = true := by
    decide +kernel
  rw [Option.any_eq_true] at hplay
  obtain ⟨⟨w, p⟩, hplay, hsends⟩ := hplay
  have hsteps :=
    steps_of_start (.fund Sample.service Sample.request Sample.digest Sample.digest) hplay
  cases p with
  | done u => cases hsends
  | await c k =>
    cases c with
    | sendExact id a =>
      obtain rfl : a = Sample.attempt := of_decide_eq_true hsends
      obtain ⟨op, hop, hattempt⟩ := (exactly_once hsteps).2.2.1 id _ k List.mem_cons_self
      exact ⟨_, id, op, hsteps, ⟨k, List.mem_cons_self⟩, hop, hattempt⟩
    | _ => cases hsends

end Devnet

end DividendX
