import DividendX.Devnet.ExactlyOnce

/-!
# Reservations

What the budgets promise over every interleaving: every counter of the stored ledger is exact and
within its limit, a repeated request is not charged again, and a reservation that is rejected wrote
nothing.
-/

namespace DividendX

namespace Devnet

open HostedDevnetLedger Service DurableJournal
open Async (Ends)

/-- The operation a change reserves. -/
def Change.reserves : Change → Option OperationId
  | .reserveGrant owner assetId _ _ day _ => some (grantOperationId owner assetId day)
  | .reserveObservation assetId now => some (observationOperationId assetId (observationBucket now))
  | _ => none

/-- The reservations of the journal. -/
inductive Reservation : Service DurableOperation → Prop
  | grant (owner assetId : String) (visitorHash ipHash : Digest) :
      Reservation (reserveGrant owner assetId visitorHash ipHash)
  | observation (assetId : String) : Reservation (reserveObservation assetId)

/-- A reserved operation is there afterwards; if it was there before, nothing is charged. -/
theorem reserves_apply {c : Change} {id : OperationId} {v next : HostedDevnetLedger}
    (hc : c.reserves = some id) (h : c.apply v = .ok next) :
    (next.operations.get? id).isSome = true
      ∧ ((v.operations.get? id).isSome = true → next = v) := by
  cases c with
  | reserveGrant owner assetId visitorHash ipHash day createdAt =>
    cases hc
    rcases reserveGrant_eq_ok h with ⟨rfl, hknown⟩ | hgrants
    · exact ⟨hknown, fun _ => rfl⟩
    · refine ⟨by rw [hgrants.next]; simp, fun hknown => ?_⟩
      rw [hgrants.fresh] at hknown
      cases hknown
  | reserveObservation assetId now =>
    cases hc
    rcases reserveObservation_eq_ok h with ⟨rfl, hknown⟩ | hobserves
    · exact ⟨hknown, fun _ => rfl⟩
    · refine ⟨by rw [hobserves.next]; simp, fun hknown => ?_⟩
      rw [hobserves.fresh] at hknown
      cases hknown
  | acquire | persistPrepared | release | transition | disableFaucet => cases hc

/-! ## The calls of a reservation -/

/-- A call and its answer. -/
abbrev Answered : Type := Σ c, Answer c

/-- No write of a call took effect as far as its caller knows: each was refused, or threw what the
whole call threw. -/
def Unwritten (tr : List Answered) (e : Failure) : Prop :=
  ∀ p x, (⟨.put p, x⟩ : Answered) ∈ tr → x = .ok false ∨ x = .error e

theorem ends_call {α : Type} {c : Call} {f : Answer c → Except Failure α} {tr : List Answered}
    {r : Except Failure α} (h : Ends (call c f).run tr r) : ∃ x, tr = [⟨c, x⟩] ∧ r = f x := by
  cases h with
  | await h =>
    cases h
    exact ⟨_, rfl, rfl⟩

theorem ends_sync {α : Type} {x : Except Failure α} {tr : List Answered} {r : Except Failure α}
    (h : Ends (sync x).run tr r) : tr = [] ∧ r = x := by
  cases h
  exact ⟨rfl, rfl⟩

/-- `mutateJson` returns a ledger a change gave, or throws without a write of its own in effect. -/
theorem ends_mutateJson {change : Service Change} {Q : Change → Prop}
    (hchange : ∀ tr r, Ends change.run tr r →
      (∃ c, r = .ok c ∧ Q c) ∧ ∀ p x, (⟨.put p, x⟩ : Answered) ∉ tr)
    {attempts : Nat} {tr : List Answered} {r : Except Failure HostedDevnetLedger}
    (h : Ends (mutateJson change attempts).run tr r) :
    (∃ v' c v, r = .ok v' ∧ Q c ∧ c.mutate v = .ok v') ∨ ∃ e, r = .error e ∧ Unwritten tr e := by
  induction attempts generalizing tr r with
  | zero =>
    cases h
    exact .inr ⟨_, rfl, fun p x hmem => by cases hmem⟩
  | succ attempts ih =>
    rcases h.unbindExcept with ⟨e, rfl, hread⟩ | ⟨cell, tr₁, rest₁, hread, h₁, rfl⟩
    · -- the read fails
      obtain ⟨x, rfl, -⟩ := ends_call hread
      exact .inr ⟨e, rfl, fun p x hmem => by simp at hmem⟩
    obtain ⟨x₁, rfl, -⟩ := ends_call hread
    rcases h₁.unbindExcept with ⟨e, rfl, hc⟩ | ⟨c, tr₂, rest₂, hc, h₂, rfl⟩
    · obtain ⟨⟨c, hok, -⟩, -⟩ := hchange _ _ hc
      cases hok
    obtain ⟨⟨c', hok, hq⟩, hquiet⟩ := hchange _ _ hc
    cases hok
    rcases h₂.unbindExcept with ⟨e, rfl, hsync⟩ | ⟨v', tr₃, rest₃, hsync, h₃, rfl⟩
    · -- the change is refused
      obtain ⟨rfl, -⟩ := ends_sync hsync
      refine .inr ⟨e, rfl, fun p x hmem => ?_⟩
      simp only [List.append_nil, List.mem_append, List.mem_singleton, Sigma.mk.injEq, reduceCtorEq,
        false_and, false_or] at hmem
      exact absurd hmem (hquiet p x)
    obtain ⟨rfl, hmutate⟩ := ends_sync hsync
    rcases h₃.unbindExcept with ⟨e, rfl, hput⟩ | ⟨saved, tr₄, rest₄, hput, h₄, rfl⟩
    · -- the write throws
      obtain ⟨y, rfl, hy⟩ := ends_call hput
      refine .inr ⟨e, rfl, fun p x hmem => ?_⟩
      simp only [List.nil_append, List.mem_append, List.mem_singleton, Sigma.mk.injEq,
        Call.put.injEq, reduceCtorEq, false_and, false_or] at hmem
      rcases hmem with hmem | ⟨rfl, hmem⟩
      · exact absurd hmem (hquiet p x)
      · exact .inr ((eq_of_heq hmem).trans hy.symm)
    obtain ⟨y, rfl, hy⟩ := ends_call hput
    split at h₄
    · cases h₄
      exact .inl ⟨v', c, _, rfl, hq, hmutate.symm⟩
    · -- the write is refused, and tried again from the start
      rename_i hrefused
      rcases ih h₄ with hok | ⟨e, rfl, hrest⟩
      · exact .inl hok
      · refine .inr ⟨e, rfl, fun p x hmem => ?_⟩
        simp only [List.nil_append, List.mem_append, List.mem_singleton, Sigma.mk.injEq,
          Call.put.injEq, reduceCtorEq, false_and, false_or] at hmem
        rcases hmem with hmem | ⟨rfl, hmem⟩ | hmem
        · exact absurd hmem (hquiet p x)
        · have hanswer : x = .ok saved := (eq_of_heq hmem).trans hy.symm
          rw [hanswer, Bool.eq_false_of_not_eq_true hrefused]
          exact .inl rfl
        · exact hrest p x hmem

theorem ends_ask {c : Call} {tr : List Answered} {r : Except Failure (Answer c)}
    (h : Ends (ask c).run tr r) : ∃ x, tr = [⟨c, x⟩] ∧ r = .ok x := by
  cases h with
  | await h =>
    cases h
    exact ⟨_, rfl, rfl⟩

/-- Reading the clock first writes nothing. -/
theorem unwritten_after_now {α : Type} {f : Instant → Service α} {tr : List Answered} {e : Failure}
    (hf : ∀ t tr, Ends (f t).run tr (.error e) → Unwritten tr e)
    (h : Ends (ask .now >>= f).run tr (.error e)) : Unwritten tr e := by
  rcases h.unbindExcept with ⟨e', -, hnow⟩ | ⟨t, tr₁, tr₂, hnow, hrest, rfl⟩
  · obtain ⟨x, -, hx⟩ := ends_ask hnow
    cases hx
  · obtain ⟨x, rfl, -⟩ := ends_ask hnow
    intro p y hmem
    simp only [List.mem_append, List.mem_singleton, Sigma.mk.injEq, reduceCtorEq, false_and,
      false_or] at hmem
    exact hf t tr₂ hrest p y hmem

/-- Reserving finds or records the operation, or throws without a write of its own in effect. -/
theorem unwritten_of_reserve {change : Service Change} {id : OperationId}
    (hchange : ∀ tr r, Ends change.run tr r →
      (∃ c, r = .ok c ∧ c.reserves = some id) ∧ ∀ p x, (⟨.put p, x⟩ : Answered) ∉ tr)
    {tr : List Answered} {e : Failure}
    (h : Ends (do let ledger ← mutate change; operationOf ledger id : Service _).run tr
      (.error e)) :
    Unwritten tr e := by
  rcases h.unbindExcept with ⟨e', he, hmutate⟩ | ⟨v', tr₁, tr₂, hmutate, hop, rfl⟩
  · cases he
    rcases ends_mutateJson hchange hmutate with ⟨v', c, v, hok, -⟩ | ⟨e', he, hunwritten⟩
    · cases hok
    · cases he
      exact hunwritten
  · rcases ends_mutateJson hchange hmutate with ⟨v'', c, v, hok, hc, hmut⟩ | ⟨e', he, -⟩
    · cases hok
      obtain ⟨next, happly, rfl⟩ := Change.mutate_eq_ok hmut
      obtain ⟨-, herror⟩ := ends_sync hop
      have hsome := (reserves_apply hc happly).1
      rw [Option.isSome_iff_exists] at hsome
      obtain ⟨op, hget⟩ := hsome
      rw [Result.okOr_eq_ok.mpr hget] at herror
      cases herror
    · cases he

/-- A reservation that throws wrote nothing. -/
theorem unwritten_of_reservation {p : Service DurableOperation} (hp : Reservation p)
    {tr : List Answered} {e : Failure} (h : Ends p.run tr (.error e)) : Unwritten tr e := by
  cases hp with
  | grant owner assetId visitorHash ipHash =>
    refine unwritten_after_now (fun now tr hrest => ?_) h
    refine unwritten_of_reserve (fun tr r hc => ?_) hrest
    rcases hc.unbindExcept with ⟨e', -, hnow⟩ | ⟨createdAt, tr₁, tr₂, hnow, hpure, rfl⟩
    · obtain ⟨x, -, hx⟩ := ends_ask hnow
      cases hx
    · obtain ⟨x, rfl, -⟩ := ends_ask hnow
      cases hpure
      exact ⟨⟨_, rfl, rfl⟩, fun p x hmem => by simp at hmem⟩
  | observation assetId =>
    refine unwritten_after_now (fun now tr hrest => ?_) h
    refine unwritten_of_reserve (fun tr r hc => ?_) hrest
    cases hc
    exact ⟨⟨_, rfl, rfl⟩, fun p x hmem => by simp at hmem⟩

/-- **Budgets are exact.** In every reachable site of any number of service instances over one
store:

* the lifetime counters are the reservation times the number of operations, within their budgets;
* the counters of every day count that day's grants, by visitor and by address, within their limits;
* from now on a reservation for an operation that is recorded charges nothing;
* a moment at which no write takes effect leaves the ledger as it is, and a reservation that is
  rejected has made no write that took effect: each was refused, or threw what it was rejected with.
-/
theorem budgets_exact {s : Site World Call Answer} (h : machine.Steps start s) :
    (s.world.ledger.faucetLifetimeLamports =
        faucetReservationLamports * s.world.ledger.operations.count isFaucet
      ∧ s.world.ledger.faucetLifetimeLamports ≤ faucetLifetimeLamports
      ∧ s.world.ledger.observationLifetimeLamports =
        observationReservationLamports * s.world.ledger.operations.count isObservation
      ∧ s.world.ledger.observationLifetimeLamports ≤ observationLifetimeLamports)
    ∧ (∀ day, (s.world.ledger.quotaOf day).Counts day s.world.ledger.operations
      ∧ (s.world.ledger.quotaOf day).Within)
    ∧ (∀ s₁ e s₂ p id, machine.Steps s s₁ → machine.Step s₁ e s₂ → landed e = some p →
      p.change.reserves = some id → (s.world.ledger.operations.get? id).isSome = true →
      SameBudgets s₁.world.ledger s₂.world.ledger
        ∧ s₂.world.ledger.operations = s₁.world.ledger.operations)
    ∧ (∀ e s', machine.Step s e s' → landed e = none → s'.world.ledger = s.world.ledger)
    ∧ (∀ p, Reservation p → ∀ tr e, Ends p.run tr (.error e) → Unwritten tr e) := by
  have hs := sound_of_steps h
  have hb := hs.inv.budgeted
  refine ⟨⟨hb.faucet, hb.faucet_le, hb.observation, hb.observation_le⟩,
    fun day => ⟨hb.counts day, hb.within day⟩, ?_, ?_, fun p hp tr e => unwritten_of_reservation hp⟩
  · intro s₁ e s₂ p id hsteps hstep hp hid hknown
    obtain ⟨hs₁, hrely⟩ := hs.steps discipline_guards hsteps
    rw [Option.isSome_iff_exists] at hknown
    obtain ⟨op, hop⟩ := hknown
    obtain ⟨op', hop', -⟩ := (Rely.evolves hrely).operation hop
    obtain ⟨-, -, hmutate⟩ := next_of_landed hs₁ hstep hp
    obtain ⟨next, happly, heq⟩ := Change.mutate_eq_ok hmutate
    obtain rfl := (reserves_apply hid happly).2 (Option.isSome_iff_exists.mpr ⟨op', hop'⟩)
    rw [heq]
    exact ⟨⟨rfl, rfl, rfl⟩, rfl⟩
  · intro e s' hstep hnone
    rcases step_ledger hs hstep with ⟨-, heq⟩ | ⟨p, hp, -⟩
    · exact heq
    · rw [hnone] at hp
      cases hp

/-- One grant, from an empty store. -/
theorem budgets_exact_sample : ∃ s, machine.Steps start s
    ∧ s.world.ledger.faucetLifetimeLamports = 9_000_000
    ∧ faucetReservationLamports * s.world.ledger.operations.count isFaucet = 9_000_000
    ∧ s.world.ledger.operations.count (grantedTo "2026-09-18" Sample.digest) = 1 := by
  have hplay : (play [.time Sample.noon, .store, .time Sample.noon, .store] start.world
      (reserveGrant "owner" "asset" Sample.digest Sample.digest).run.forget).any
      (fun r => r.1.ledger.faucetLifetimeLamports = 9_000_000
        ∧ ((r.1.ledger.quotaOf "2026-09-18").visitors.get? Sample.digest).getD 0 = 1) = true := by
    decide +kernel
  rw [Option.any_eq_true] at hplay
  obtain ⟨⟨w, p⟩, hplay, hcharged⟩ := hplay
  have hsteps := steps_of_start (.reserveGrant "owner" "asset" Sample.digest Sample.digest) hplay
  obtain ⟨⟨hfaucet, -⟩, hdays, -⟩ := budgets_exact hsteps
  obtain ⟨hlamports, hvisitor⟩ := of_decide_eq_true hcharged
  refine ⟨_, hsteps, hlamports, ?_, ?_⟩
  · rw [← hfaucet]
    exact hlamports
  · rw [← (hdays "2026-09-18").1.visitors Sample.digest]
    exact hvisitor

end Devnet

end DividendX
