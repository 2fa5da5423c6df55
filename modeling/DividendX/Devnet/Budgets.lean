import DividendX.Devnet.Lifecycle

/-!
# Budgets

The counters of the ledger against the operations it holds: each lifetime budget is the reservation
times the number of its operations, and the counters of a day are counts over that day's grants.
Since nothing but a recorded operation moves a counter, this is kept by every change.
-/

namespace DividendX

namespace Devnet

/-- A faucet operation. -/
def isFaucet (op : DurableOperation) : Bool := op.kind = .faucet

/-- An observation operation. -/
def isObservation (op : DurableOperation) : Bool := op.kind = .observation

/-- A faucet operation of a day. -/
def grantedOn (day : String) (op : DurableOperation) : Bool := op.kind = .faucet ∧ op.day = day

/-- A faucet operation of a day for a visitor. -/
def grantedTo (day : String) (visitorHash : Digest) (op : DurableOperation) : Bool :=
  op.kind = .faucet ∧ op.day = day ∧ op.visitorHash = some visitorHash

/-- A faucet operation of a day from a network address. -/
def grantedAt (day : String) (ipHash : Digest) (op : DurableOperation) : Bool :=
  op.kind = .faucet ∧ op.day = day ∧ op.ipHash = some ipHash

/-- The counters of a day count its grants. -/
structure DailyQuota.Counts (quota : DailyQuota) (day : String)
    (operations : Record OperationId DurableOperation) : Prop where
  grants : quota.grants = operations.count (grantedOn day)
  lamports : quota.lamports = faucetReservationLamports * operations.count (grantedOn day)
  visitors : ∀ h, (quota.visitors.get? h).getD 0 = operations.count (grantedTo day h)
  ips : ∀ h, (quota.ips.get? h).getD 0 = operations.count (grantedAt day h)

/-- The counters of a day are within their limits. -/
structure DailyQuota.Within (quota : DailyQuota) : Prop where
  grants : quota.grants ≤ faucetDailyGrants
  lamports : quota.lamports ≤ faucetDailyLamports
  visitors : ∀ h, (quota.visitors.get? h).getD 0 ≤ visitorDailyGrants
  ips : ∀ h, (quota.ips.get? h).getD 0 ≤ ipDailyGrants

namespace HostedDevnetLedger

/-- Every counter is exact and within its limit. -/
structure Budgeted (v : HostedDevnetLedger) : Prop where
  faucet : v.faucetLifetimeLamports = faucetReservationLamports * v.operations.count isFaucet
  faucet_le : v.faucetLifetimeLamports ≤ Devnet.faucetLifetimeLamports
  observation : v.observationLifetimeLamports =
    observationReservationLamports * v.operations.count isObservation
  observation_le : v.observationLifetimeLamports ≤ Devnet.observationLifetimeLamports
  counts : ∀ day, (v.quotaOf day).Counts day v.operations
  within : ∀ day, (v.quotaOf day).Within

variable {v next : HostedDevnetLedger}

theorem budgeted_emptyLedger : Budgeted emptyLedger := by
  refine ⟨rfl, Nat.zero_le _, rfl, Nat.zero_le _, fun day => ?_, fun day => ?_⟩
  · exact ⟨rfl, rfl, fun _ => rfl, fun _ => rfl⟩
  · exact ⟨Nat.zero_le _, Nat.zero_le _, fun _ => Nat.zero_le _, fun _ => Nat.zero_le _⟩

/-- Counters and counts that do not move. -/
theorem Budgeted.congr (h : v.Budgeted) (hsame : SameBudgets v next)
    (hcount : ∀ p : DurableOperation → Bool, (∀ op op', op.SameEntry op' → p op' = p op) →
      next.operations.count p = v.operations.count p) : next.Budgeted := by
  have hquota : ∀ day, next.quotaOf day = v.quotaOf day := fun day => by
    simp only [quotaOf]
    rw [hsame.daily]
  have hfaucet := hcount isFaucet fun op op' h => by simp [isFaucet, h.kind]
  have hobservation := hcount isObservation fun op op' h => by simp [isObservation, h.kind]
  have hday := fun day => hcount (grantedOn day) fun op op' h => by simp [grantedOn, h.kind, h.day]
  have hvisitor := fun day visitor => hcount (grantedTo day visitor) fun op op' h => by
    simp [grantedTo, h.kind, h.day, h.visitorHash]
  have hip := fun day ip => hcount (grantedAt day ip) fun op op' h => by
    simp [grantedAt, h.kind, h.day, h.ipHash]
  refine ⟨?_, ?_, ?_, ?_, fun day => ?_, fun day => ?_⟩
  · rw [hsame.faucet, hfaucet]
    exact h.faucet
  · rw [hsame.faucet]
    exact h.faucet_le
  · rw [hsame.observation, hobservation]
    exact h.observation
  · rw [hsame.observation]
    exact h.observation_le
  · obtain ⟨hgrants, hlamports, hvisitors, hips⟩ := h.counts day
    rw [hquota]
    refine ⟨?_, ?_, fun visitor => ?_, fun ip => ?_⟩
    · rw [hday]
      exact hgrants
    · rw [hday]
      exact hlamports
    · rw [hvisitor]
      exact hvisitors visitor
    · rw [hip]
      exact hips ip
  · rw [hquota]
    exact h.within day

/-- The counter of one key goes up by one. -/
theorem count_bump {κ : Type} [DecidableEq κ] (r : Record κ Nat) (k j : κ) :
    ((r.set k ((r.get? k).getD 0 + 1)).get? j).getD 0 =
      (r.get? j).getD 0 + (decide (j = k)).toNat := by
  by_cases h : j = k
  · subst h
    simp
  · simp [h]

theorem chargeQuota_visitors (quota : DailyQuota) (visitorHash ipHash h : Digest) :
    ((chargeQuota quota visitorHash ipHash).visitors.get? h).getD 0 =
      (quota.visitors.get? h).getD 0 + (decide (h = visitorHash)).toNat :=
  count_bump quota.visitors visitorHash h

theorem chargeQuota_ips (quota : DailyQuota) (visitorHash ipHash h : Digest) :
    ((chargeQuota quota visitorHash ipHash).ips.get? h).getD 0 =
      (quota.ips.get? h).getD 0 + (decide (h = ipHash)).toNat :=
  count_bump quota.ips ipHash h

/-- The quotas after a grant. -/
theorem Grants.quota {owner assetId : String} {visitorHash ipHash : Digest} {day : String}
    {createdAt : Instant} (h : Grants v next owner assetId visitorHash ipHash day createdAt)
    (other : String) : next.quotaOf other =
      if other = day then chargeQuota (v.quotaOf day) visitorHash ipHash else v.quotaOf other := by
  rw [h.next]
  by_cases hday : other = day <;> simp [quotaOf, hday]

theorem Grants.count {owner assetId : String} {visitorHash ipHash : Digest} {day : String}
    {createdAt : Instant} (h : Grants v next owner assetId visitorHash ipHash day createdAt)
    (p : DurableOperation → Bool) : next.operations.count p = v.operations.count p
      + (p (grantOperation owner assetId visitorHash ipHash day createdAt)).toNat := by
  rw [h.next]
  exact Record.count_set_fresh h.fresh

/-- The quota of the day of a grant counts it; those of other days do not. -/
theorem Grants.counts {owner assetId : String} {visitorHash ipHash : Digest} {day : String}
    {createdAt : Instant} (h : Grants v next owner assetId visitorHash ipHash day createdAt)
    {other : String} (hcounts : (v.quotaOf other).Counts other v.operations) :
    (next.quotaOf other).Counts other next.operations := by
  obtain ⟨hgrants, hlamports, hvisitors, hips⟩ := hcounts
  rw [h.quota]
  by_cases hday : other = day
  · subst hday
    rw [if_pos rfl]
    refine ⟨?_, ?_, fun visitor => ?_, fun ip => ?_⟩
    · simp [h.count, chargeQuota, hgrants, grantedOn, grantOperation]
    · simp [h.count, chargeQuota, hlamports, grantedOn, grantOperation, Nat.mul_add]
    · rw [h.count, ← hvisitors, chargeQuota_visitors]
      simp [grantedTo, grantOperation, eq_comm]
    · rw [h.count, ← hips, chargeQuota_ips]
      simp [grantedAt, grantOperation, eq_comm]
  · rw [if_neg hday]
    refine ⟨?_, ?_, fun visitor => ?_, fun ip => ?_⟩
    · simp [h.count, hgrants, grantedOn, grantOperation, Ne.symm hday]
    · simp [h.count, hlamports, grantedOn, grantOperation, Ne.symm hday]
    · simp [h.count, hvisitors, grantedTo, grantOperation, Ne.symm hday]
    · simp [h.count, hips, grantedAt, grantOperation, Ne.symm hday]

/-- The checks of `reserveGrant` leave room for the grant. -/
theorem Grants.within {owner assetId : String} {visitorHash ipHash : Digest} {day : String}
    {createdAt : Instant} (h : Grants v next owner assetId visitorHash ipHash day createdAt)
    {other : String} (hwithin : (v.quotaOf other).Within) : (next.quotaOf other).Within := by
  rw [h.quota]
  by_cases hday : other = day
  · subst hday
    rw [if_pos rfl]
    refine ⟨h.grants, h.lamports, fun visitor => ?_, fun ip => ?_⟩
    · rw [chargeQuota_visitors]
      by_cases hvisitor : visitor = visitorHash
      · subst hvisitor
        simpa using Nat.succ_le_of_lt h.visitor
      · simpa [hvisitor] using hwithin.visitors visitor
    · rw [chargeQuota_ips]
      by_cases hip : ip = ipHash
      · subst hip
        simpa using Nat.succ_le_of_lt h.ip
      · simpa [hip] using hwithin.ips ip
  · rw [if_neg hday]
    exact hwithin

/-- **The budgets stay exact** under every effect of a change. -/
theorem Effect.budgeted (h : Effect v next) (hb : v.Budgeted) : next.Budgeted := by
  cases h with
  | kept hsame heq => exact hb.congr hsame fun p _ => by rw [heq]
  | moved hsame hop hmoves heq =>
    refine hb.congr hsame fun p hp => ?_
    rw [heq]
    exact Record.count_set hop (hp _ _ hmoves.entry)
  | @granted owner assetId visitorHash ipHash day createdAt hgrants =>
    refine ⟨?_, ?_, ?_, ?_, fun d => hgrants.counts (hb.counts d),
      fun d => hgrants.within (hb.within d)⟩
    · rw [hgrants.count, Nat.mul_add, ← hb.faucet, hgrants.next]
      rfl
    · rw [hgrants.next]
      exact hgrants.lifetime
    · rw [hgrants.count, Nat.mul_add, ← hb.observation, hgrants.next]
      rfl
    · rw [hgrants.next]
      exact hb.observation_le
  | @observed assetId now hobserves =>
    have hcount : ∀ p, next.operations.count p = v.operations.count p
        + (p (observationOperation assetId now)).toNat := by
      intro p
      rw [hobserves.next]
      exact Record.count_set_fresh hobserves.fresh
    -- An observation counts for the lifetime and for no day.
    have hquota : ∀ d, next.quotaOf d = v.quotaOf d := fun d => by
      rw [hobserves.next]
      rfl
    refine ⟨?_, ?_, ?_, ?_, fun d => ?_, fun d => ?_⟩
    · rw [hcount, Nat.mul_add, ← hb.faucet, hobserves.next]
      rfl
    · rw [hobserves.next]
      exact hb.faucet_le
    · rw [hcount, Nat.mul_add, ← hb.observation, hobserves.next]
      rfl
    · rw [hobserves.next]
      exact hobserves.lifetime
    · obtain ⟨hgrants, hlamports, hvisitors, hips⟩ := hb.counts d
      rw [hquota]
      refine ⟨?_, ?_, fun visitor => ?_, fun ip => ?_⟩
      · simp [hcount, hgrants, grantedOn, observationOperation]
      · simp [hcount, hlamports, grantedOn, observationOperation]
      · simp [hcount, hvisitors, grantedTo, observationOperation]
      · simp [hcount, hips, grantedAt, observationOperation]
    · rw [hquota]
      exact hb.within d

end HostedDevnetLedger

end Devnet

end DividendX
