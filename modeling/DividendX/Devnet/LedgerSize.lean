import DividendX.Devnet.Reservations
import DividendX.Devnet.LedgerText
import DividendX.Lib.Run

/-!
# The size of the ledger

Nothing is ever removed from the ledger, so every recorded operation takes its place for good, and
more of it once it is signed, submitted and finished. The **ceiling** of a ledger is the length of
its text with every operation grown to the largest record it can become. Only a new reservation
raises it: a ledger that admits reservations under its ceiling is written whatever happens to the
operations in it.
-/

namespace DividendX

namespace Devnet

open Json HostedDevnetLedger

/-! ## Formats -/

/-- The longest text of a number that `validate` lets a ledger count with. -/
def counterBytes : Nat := 16

/-- The longest text of a time. -/
def instantBytes : Nat := 29

/-- The text of a random UUID. -/
def holderBytes : Nat := 38

/-- The longest code of an error, `SUBMISSION_UNCERTAIN`. -/
def codeBytes : Nat := 22

/-- The text of a signature in base 58. -/
def signatureBytes : Nat := 90

/-- The text of a blockhash in base 58. -/
def blockhashBytes : Nat := 46

/-- The text of a signed transaction of 1,232 bytes in base 64. -/
def transactionBytes : Nat := 4 * ((1_232 + 2) / 3) + 2

/-- The longest intent, that of a grant. -/
def intentBytes : Nat := 231

/-- The longest text of an attempt. -/
def attemptBytes : Nat :=
  106 + signatureBytes + blockhashBytes + counterBytes + transactionBytes
    + instantBytes + intentBytes

/-- The parts of an attempt have the lengths their formats allow. -/
structure SignedAttempt.Formatted (a : SignedAttempt) : Prop where
  signature : byteLength (stringText a.signature) ≤ signatureBytes
  blockhash : byteLength (stringText a.blockhash) ≤ blockhashBytes
  lastValidBlockHeight : a.lastValidBlockHeight ≤ maxSafeInteger
  transaction : byteLength (stringText a.serializedTransactionBase64) ≤ transactionBytes
  preparedAt : byteLength (stringText a.preparedAt) ≤ instantBytes
  intent : byteLength (intentText a.intent) ≤ intentBytes

/-- What a change brings in from outside is of its format. -/
def Change.Formatted : Change → Prop
  | .reserveGrant _ _ _ _ _ _ => True
  | .reserveObservation _ _ => True
  | .acquire _ _ holder _ => byteLength (stringText holder) ≤ holderBytes
  | .persistPrepared _ _ attempt _ => attempt.Formatted
  | .release _ _ errorCode _ _ => ∀ e ∈ errorCode, byteLength (stringText e) ≤ codeBytes
  | .transition _ _ errorCode _ => ∀ e ∈ errorCode, byteLength (stringText e) ≤ codeBytes
  | .disableFaucet reason => byteLength (stringText reason) ≤ codeBytes

/-! ## Ceilings -/

/-- The length an operation can grow to. -/
def DurableOperation.ceiling (op : DurableOperation) : Nat :=
  185 + byteLength (quote op.id.text) + byteLength (stringText op.kind.text) + 11
    + byteLength (number op.reservationLamports) + byteLength (instantText op.createdAt)
    + byteLength (stringText op.day) + byteLength (nullable stringText op.owner)
    + byteLength (stringText op.assetId) + byteLength (nullable digestText op.visitorHash)
    + byteLength (nullable digestText op.ipHash) + byteLength (nullable instantText op.bucket)
    + counterBytes
    -- an attempt is written once; before that there must be room for any
    + (match op.attempt with
      | none => attemptBytes
      | some a => byteLength a.stringify)
    + instantBytes + instantBytes + codeBytes

/-- The length an entry of the operations can grow to. -/
def operationCeiling (id : OperationId) (op : DurableOperation) : Nat :=
  byteLength (quote id.text) + 2 + op.ceiling

/-- The length an entry of the days can grow to with the visitors and addresses it has. -/
def dayCeiling (day : String) (quota : DailyQuota) : Nat :=
  byteLength (quote day.toList) + 2
    + (42 + 2 + 9 + (2 + quota.visitors.total fun _ _ => 69) + (2 + quota.ips.total fun _ _ => 70))

/-- The length a lease can have. -/
def leaseBytes : Nat := 48 + 78 + holderBytes + counterBytes + instantBytes

/-- The length of all but the days and the operations. -/
def baseBytes : Nat :=
  157 + 1 + counterBytes + counterBytes + codeBytes + 10 + 8 + 2
    + (26 + leaseBytes + leaseBytes) + 2

/-- The length a ledger can grow to without a new reservation. -/
def HostedDevnetLedger.ceiling (v : HostedDevnetLedger) : Nat :=
  baseBytes + v.daily.total dayCeiling + v.operations.total operationCeiling

/-- What a reservation adds to the ceiling. -/
def Change.weight : Change → Nat
  | .reserveGrant owner assetId visitorHash ipHash day createdAt =>
    dayCeiling day (chargeQuota .empty visitorHash ipHash)
      + operationCeiling (grantOperationId owner assetId day)
        (grantOperation owner assetId visitorHash ipHash day createdAt)
  | .reserveObservation assetId now =>
    operationCeiling (observationOperationId assetId (observationBucket now))
      (observationOperation assetId now)
  | _ => 0

/-- A change is made as the service makes it, with formatted data, and if it reserves a new
operation there is room for it under the limit. -/
structure Admits (v : HostedDevnetLedger) (c : Change) : Prop where
  permitted : c.Permitted
  formatted : c.Formatted
  room : ∀ id, c.reserves = some id → v.operations.get? id = none →
    v.ceiling + c.weight ≤ maxLedgerBytes

/-! ## Formed ledgers -/

/-- What an operation gathers over its life is of its format. -/
structure DurableOperation.Formed (op : DurableOperation) : Prop where
  fence : ∀ f ∈ op.fence, f ≤ maxSafeInteger + 1
  errorCode : ∀ e ∈ op.errorCode, byteLength (stringText e) ≤ codeBytes

/-- A lease is of its format. -/
structure PreparationLease.Formed (l : PreparationLease) : Prop where
  holder : byteLength (stringText l.holder) ≤ holderBytes
  fence : l.fence ≤ maxSafeInteger + 1

/-- Every part of the ledger is of its format. -/
structure HostedDevnetLedger.Formed (v : HostedDevnetLedger) : Prop where
  schemaVersion : v.schemaVersion = 1
  revision : v.revision ≤ maxSafeInteger + 1
  nextFence : v.nextFence ≤ maxSafeInteger + 1
  reason : ∀ r ∈ v.faucetDisabledReason, byteLength (stringText r) ≤ codeBytes
  leases : ∀ {k l}, v.leases.get k = some l → l.Formed
  operations : ∀ {id op}, v.operations.get? id = some op → op.Formed

theorem byteLength_counter {n : Nat} (h : n ≤ maxSafeInteger + 1) :
    byteLength (number n) ≤ counterBytes := by
  apply byteLength_number_le (by decide)
  apply Nat.lt_of_le_of_lt h
  decide

theorem byteLength_nullable_le {α : Type} {text : α → Text} {o : Option α} {n : Nat}
    (h : ∀ a ∈ o, byteLength (text a) ≤ n) (hnull : 4 ≤ n) : byteLength (nullable text o) ≤ n := by
  cases o with
  | none => exact hnull
  | some a => exact h a rfl

theorem SignedAttempt.Formatted.byteLength_stringify_le {a : SignedAttempt} (h : a.Formatted) :
    byteLength a.stringify ≤ attemptBytes := by
  have hheight := byteLength_counter (Nat.le_succ_of_le h.lastValidBlockHeight)
  have := h.signature
  have := h.blockhash
  have := h.transaction
  have := h.preparedAt
  have := h.intent
  rw [SignedAttempt.byteLength_stringify]
  rw [attemptBytes]
  omega

theorem DurableOperation.Formed.byteLength_stringify_le {op : DurableOperation} (h : op.Formed) :
    byteLength op.stringify ≤ op.ceiling := by
  have hstate := op.state.byteLength_text
  have hfence : byteLength (nullable number op.fence) ≤ counterBytes :=
    byteLength_nullable_le (fun f hf => byteLength_counter (h.fence f hf)) (by decide)
  have htime : ∀ t : Option Instant, byteLength (nullable instantText t) ≤ instantBytes := fun t =>
    byteLength_nullable_le (fun a _ => (byteLength_instantText a).2) (by decide)
  have hsubmitted := htime op.submittedAt
  have hcompleted := htime op.completedAt
  have hcode : byteLength (nullable stringText op.errorCode) ≤ codeBytes :=
    byteLength_nullable_le h.errorCode (by decide)
  have hattempt : byteLength (nullable SignedAttempt.stringify op.attempt) ≤ match op.attempt with
      | none => attemptBytes
      | some a => byteLength a.stringify := by
    cases op.attempt with
    | none => decide
    | some a => exact Nat.le_refl _
  rw [DurableOperation.byteLength_stringify]
  rw [DurableOperation.ceiling]
  omega

theorem PreparationLease.Formed.byteLength_stringify_le {l : PreparationLease} (h : l.Formed) :
    byteLength l.stringify ≤ leaseBytes := by
  have hid : byteLength (quote l.operationId.text) ≤ 78 := by
    rw [OperationId.byteLength_text]
    split <;> decide
  have hholder := h.holder
  have hfence := byteLength_counter h.fence
  have hexpires : byteLength (instantText l.expiresAt) ≤ instantBytes :=
    (byteLength_instantText l.expiresAt).2
  rw [PreparationLease.byteLength_stringify]
  rw [leaseBytes]
  omega

/-- A quota within its limits. -/
theorem DailyQuota.Within.byteLength_stringify_le {q : DailyQuota} (h : q.Within) :
    byteLength q.stringify ≤ 42 + 2 + 9 + (2 + q.visitors.total fun _ _ => 69)
      + (2 + q.ips.total fun _ _ => 70) := by
  have hgrants : byteLength (number q.grants) ≤ 2 :=
    byteLength_number_le (by decide) (Nat.lt_of_le_of_lt h.grants (by decide))
  have hlamports : byteLength (number q.lamports) ≤ 9 :=
    byteLength_number_le (by decide) (Nat.lt_of_le_of_lt h.lamports (by decide))
  -- every entry is a digest with a count of few digits
  have htable : ∀ (r : Record Digest Nat) (k : Nat), 0 < k → (∀ d, (r.get? d).getD 0 < 10 ^ k) →
      byteLength (table Digest.hex number r) ≤ 2 + r.total fun _ _ => 68 + k := by
    intro r k hk hr
    refine Nat.le_trans (byteLength_table_le _ _ r) (Nat.add_le_add_left ?_ 2)
    apply Record.total_le_total
    intro d n hget
    have hn : n < 10 ^ k := by simpa [hget] using hr d
    have hnumber := byteLength_number_le hk hn
    have hdigest := byteLength_digestText d
    rw [digestText] at hdigest
    rw [entryLength]
    omega
  have hvisitors : byteLength (table Digest.hex number q.visitors)
      ≤ 2 + q.visitors.total fun _ _ => 69 :=
    htable q.visitors 1 (by decide) fun d => Nat.lt_of_le_of_lt (h.visitors d) (by decide)
  have hips : byteLength (table Digest.hex number q.ips) ≤ 2 + q.ips.total fun _ _ => 70 :=
    htable q.ips 2 (by decide) fun d => Nat.lt_of_le_of_lt (h.ips d) (by decide)
  rw [DailyQuota.byteLength_stringify]
  omega

namespace HostedDevnetLedger

variable {v next : HostedDevnetLedger} {c : Change}

/-- **A formed ledger fits under its ceiling.** -/
theorem Formed.byteLength_stringify_le (h : v.Formed) (hb : v.Budgeted) :
    byteLength v.stringify ≤ v.ceiling := by
  have hschema : byteLength (number v.schemaVersion) ≤ 1 := by
    rw [h.schemaVersion]
    decide
  have hrevision := byteLength_counter h.revision
  have hfence := byteLength_counter h.nextFence
  have hreason : byteLength (nullable stringText v.faucetDisabledReason) ≤ codeBytes :=
    byteLength_nullable_le h.reason (by decide)
  have hfaucet : byteLength (number v.faucetLifetimeLamports) ≤ 10 :=
    byteLength_number_le (by decide) (Nat.lt_of_le_of_lt hb.faucet_le (by decide))
  have hobservation : byteLength (number v.observationLifetimeLamports) ≤ 8 :=
    byteLength_number_le (by decide) (Nat.lt_of_le_of_lt hb.observation_le (by decide))
  have hlease : ∀ k, byteLength (nullable PreparationLease.stringify (v.leases.get k))
      ≤ leaseBytes :=
    fun k => byteLength_nullable_le (fun l hl => (h.leases hl).byteLength_stringify_le) (by decide)
  have hleases : byteLength v.leases.stringify ≤ 26 + leaseBytes + leaseBytes := by
    have hfaucet : byteLength (nullable PreparationLease.stringify v.leases.faucet) ≤ leaseBytes :=
      hlease .faucet
    have hobservation :
        byteLength (nullable PreparationLease.stringify v.leases.observation) ≤ leaseBytes :=
      hlease .observation
    rw [Leases.byteLength_stringify]
    omega
  have hdaily : byteLength (table String.toList DailyQuota.stringify v.daily)
      ≤ 2 + v.daily.total dayCeiling := by
    refine Nat.le_trans (byteLength_table_le _ _ _) (Nat.add_le_add_left ?_ 2)
    apply Record.total_le_total
    intro day q hget
    have hwithin := hb.within day
    simp only [quotaOf, hget, Option.getD_some] at hwithin
    exact Nat.add_le_add_left hwithin.byteLength_stringify_le _
  have hoperations : byteLength (table OperationId.text DurableOperation.stringify v.operations)
      ≤ 2 + v.operations.total operationCeiling := by
    refine Nat.le_trans (byteLength_table_le _ _ _) (Nat.add_le_add_left ?_ 2)
    apply Record.total_le_total
    intro id op hget
    exact Nat.add_le_add_left (h.operations hget).byteLength_stringify_le _
  rw [HostedDevnetLedger.byteLength_stringify]
  rw [ceiling, baseBytes]
  omega

/-! ## One change -/

/-- The days after a grant. -/
theorem total_dayCeiling_le (daily : Record String DailyQuota) (day : String)
    (visitorHash ipHash : Digest) :
    (daily.set day (chargeQuota ((daily.get? day).getD .empty) visitorHash ipHash)).total dayCeiling
      ≤ daily.total dayCeiling + dayCeiling day (chargeQuota .empty visitorHash ipHash) := by
  cases h : daily.get? day with
  | none => exact Record.total_set_le _ _ _ _
  | some quota =>
    -- a known day grows by at most one visitor and one address
    have hset := Record.total_set (f := dayCeiling)
      (v := chargeQuota quota visitorHash ipHash) h
    have hvisitors := Record.total_set_le (fun _ _ => 69) quota.visitors visitorHash
      ((quota.visitors.get? visitorHash).getD 0 + 1)
    have hips := Record.total_set_le (fun _ _ => 70) quota.ips ipHash
      ((quota.ips.get? ipHash).getD 0 + 1)
    have hfresh : dayCeiling day (chargeQuota .empty visitorHash ipHash)
        = byteLength (quote day.toList) + 2 + (42 + 2 + 9 + (2 + 69) + (2 + 70)) := rfl
    simp only [dayCeiling, chargeQuota, Option.getD_some] at hset hfresh ⊢
    omega

/-- An operation that is replaced by one that cannot grow larger. -/
theorem ceiling_set_le {id : OperationId} {op op' : DurableOperation}
    (hop : v.operations.get? id = some op) (hle : op'.ceiling ≤ op.ceiling)
    (hdaily : next.daily = v.daily) (heq : next.operations = v.operations.set id op') :
    next.ceiling ≤ v.ceiling := by
  have hset := Record.total_set (f := operationCeiling) (v := op') hop
  unfold operationCeiling at hset
  unfold ceiling operationCeiling
  rw [hdaily, heq]
  omega

/-- **Only a new reservation raises the ceiling.** -/
theorem ceiling_of_apply (hv : v.Valid) (hc : c.Formatted) (h : c.apply v = .ok next) :
    next.ceiling ≤ v.ceiling ∨ ∃ id, c.reserves = some id ∧ v.operations.get? id = none
      ∧ next.ceiling ≤ v.ceiling + c.weight := by
  cases c with
  | reserveGrant owner assetId visitorHash ipHash day createdAt =>
    rcases reserveGrant_eq_ok h with ⟨rfl, -⟩ | hgrants
    · exact .inl (Nat.le_refl _)
    · refine .inr ⟨_, rfl, hgrants.fresh, ?_⟩
      have hdays := total_dayCeiling_le v.daily day visitorHash ipHash
      have hset := Record.total_set_fresh (f := operationCeiling)
        (v := grantOperation owner assetId visitorHash ipHash day createdAt) hgrants.fresh
      rw [hgrants.next]
      simp only [ceiling, Change.weight, quotaOf] at hdays hset ⊢
      omega
  | reserveObservation assetId now =>
    rcases reserveObservation_eq_ok h with ⟨rfl, -⟩ | hobserves
    · exact .inl (Nat.le_refl _)
    · refine .inr ⟨_, rfl, hobserves.fresh, ?_⟩
      have hset := Record.total_set_fresh (f := operationCeiling)
        (v := observationOperation assetId now) hobserves.fresh
      rw [hobserves.next]
      simp only [ceiling, Change.weight] at hset ⊢
      omega
  | acquire operationId kind holder now =>
    obtain ⟨current, expiresAt, hcurrent, -, rfl⟩ := acquire_eq_ok h
    left
    by_cases hreserved : current.state = .reserved
    · simp [ceiling, hreserved]
    · have hceiling : ({ current with fence := some (v.nextFence + 1) } : DurableOperation).ceiling
          ≤ current.ceiling := Nat.le_refl _
      exact ceiling_set_le hcurrent hceiling rfl (if_neg hreserved)
  | persistPrepared operationId lease attempt now =>
    obtain ⟨operation, current, hoperation, hstate, -, -, rfl⟩ := persistPrepared_eq_ok h
    left
    -- a reserved operation has no attempt yet, so its ceiling has the room for one
    have hnone := (hv.coherent hoperation).mpr hstate
    have hattempt := SignedAttempt.Formatted.byteLength_stringify_le hc
    refine ceiling_set_le hoperation ?_ rfl rfl
    simp only [DurableOperation.ceiling, hnone]
    omega
  | release lease state errorCode checkedAt stampedAt =>
    obtain ⟨operation, hoperation, rfl | ⟨target, -, -, -, rfl⟩⟩ := release_eq_ok h
    · exact .inl (Nat.le_refl _)
    · have hceiling : (settled operation target errorCode (some stampedAt) stampedAt).ceiling
          ≤ operation.ceiling := Nat.le_refl _
      exact .inl (ceiling_set_le hoperation hceiling rfl rfl)
  | transition operationId state errorCode stampedAt =>
    obtain ⟨operation, hoperation, ⟨-, rfl⟩ | ⟨-, -, -, rfl⟩⟩ := transition_eq_ok h
    · exact .inl (Nat.le_refl _)
    · have hceiling :
          (settled operation state errorCode (some (operation.submittedAt.getD stampedAt))
          stampedAt).ceiling ≤ operation.ceiling := Nat.le_refl _
      exact .inl (ceiling_set_le hoperation hceiling rfl rfl)
  | disableFaucet reason =>
    cases h
    exact .inl (Nat.le_refl _)

theorem Formed.set {id : OperationId} {op : DurableOperation} (h : v.Formed) (hop : op.Formed)
    {j : OperationId} {op' : DurableOperation} (hget : (v.operations.set id op).get? j = some op') :
    op'.Formed := by
  rw [Record.get?_set] at hget
  split at hget
  · cases hget
    exact hop
  · exact h.operations hget

/-- A released lease leaves only leases that were there. -/
theorem Formed.released {lease l : PreparationLease} {kind k : OperationKind} (h : v.Formed)
    (hget : (v.releasedLeases lease kind).get k = some l) : l.Formed := by
  rw [releasedLeases] at hget
  split at hget
  · rw [Leases.get_set] at hget
    split at hget
    · cases hget
    · exact h.leases hget
  · exact h.leases hget

/-- A change with formatted data leaves a formed ledger. -/
theorem Formed.apply (h : v.Formed) (hfence : v.nextFence ≤ maxSafeInteger) (hc : c.Formatted)
    (happly : c.apply v = .ok next) : next.Formed ∧ next.revision = v.revision := by
  cases c with
  | reserveGrant owner assetId visitorHash ipHash day createdAt =>
    rcases reserveGrant_eq_ok happly with ⟨rfl, -⟩ | hgrants
    · exact ⟨h, rfl⟩
    · have hop : (grantOperation owner assetId visitorHash ipHash day createdAt).Formed := by
        constructor <;> simp [grantOperation]
      rw [hgrants.next]
      exact ⟨⟨h.schemaVersion, h.revision, h.nextFence, h.reason, h.leases, h.set hop⟩, rfl⟩
  | reserveObservation assetId now =>
    rcases reserveObservation_eq_ok happly with ⟨rfl, -⟩ | hobserves
    · exact ⟨h, rfl⟩
    · have hop : (observationOperation assetId now).Formed := by
        constructor <;> simp [observationOperation]
      rw [hobserves.next]
      exact ⟨⟨h.schemaVersion, h.revision, h.nextFence, h.reason, h.leases, h.set hop⟩, rfl⟩
  | acquire operationId kind holder now =>
    obtain ⟨current, expiresAt, hcurrent, -, rfl⟩ := acquire_eq_ok happly
    have hnext : v.nextFence + 1 ≤ maxSafeInteger + 1 := Nat.succ_le_succ hfence
    refine ⟨⟨h.schemaVersion, h.revision, hnext, h.reason, fun {k l} hget => ?_,
      fun {j op} hget => ?_⟩, rfl⟩
    · rw [Leases.get_set] at hget
      split at hget
      · cases hget
        exact ⟨hc, hnext⟩
      · exact h.leases hget
    · have hop : ({ current with fence := some (v.nextFence + 1) } : DurableOperation).Formed := by
        refine ⟨fun f hf => ?_, (h.operations hcurrent).errorCode⟩
        cases hf
        exact hnext
      dsimp only at hget
      split at hget
      · exact h.operations hget
      · exact h.set hop hget
  | persistPrepared operationId lease attempt now =>
    obtain ⟨operation, current, hoperation, -, hcurrent, ⟨-, -, heq⟩, rfl⟩ :=
      persistPrepared_eq_ok happly
    have hop : ({ operation with
        state := .prepared, fence := some lease.fence, attempt := some attempt } :
        DurableOperation).Formed := by
      refine ⟨fun f hf => ?_, (h.operations hoperation).errorCode⟩
      cases hf
      rw [← heq]
      exact (h.leases hcurrent).fence
    exact ⟨⟨h.schemaVersion, h.revision, h.nextFence, h.reason, h.leases, h.set hop⟩, rfl⟩
  | release lease state errorCode checkedAt stampedAt =>
    obtain ⟨operation, hoperation, rfl | ⟨target, -, -, -, rfl⟩⟩ := release_eq_ok happly
    · exact ⟨⟨h.schemaVersion, h.revision, h.nextFence, h.reason, h.released, h.operations⟩, rfl⟩
    · have hop : (settled operation target errorCode (some stampedAt) stampedAt).Formed :=
        ⟨(h.operations hoperation).fence, hc⟩
      exact ⟨⟨h.schemaVersion, h.revision, h.nextFence, h.reason, h.released, h.set hop⟩, rfl⟩
  | transition operationId state errorCode stampedAt =>
    obtain ⟨operation, hoperation, ⟨-, rfl⟩ | ⟨-, -, -, rfl⟩⟩ := transition_eq_ok happly
    · exact ⟨h, rfl⟩
    · have hop : (settled operation state errorCode (some (operation.submittedAt.getD stampedAt))
          stampedAt).Formed := ⟨(h.operations hoperation).fence, hc⟩
      exact ⟨⟨h.schemaVersion, h.revision, h.nextFence, h.reason, h.leases, h.set hop⟩, rfl⟩
  | disableFaucet reason =>
    cases happly
    refine ⟨⟨h.schemaVersion, h.revision, h.nextFence, fun r hr => ?_, h.leases, h.operations⟩, rfl⟩
    cases hold : v.faucetDisabledReason with
    | none =>
      simp only [disableFaucet, hold, Option.getD_none, Option.mem_some_iff] at hr
      rw [← hr]
      exact hc
    | some old =>
      simp only [disableFaucet, hold, Option.getD_some, Option.mem_some_iff] at hr
      exact h.reason r (by rw [hold, hr]; rfl)

/-! ## Whole runs -/

/-- What holds of the ledger while every reservation is admitted under the limit. -/
structure Roomy (v : HostedDevnetLedger) : Prop where
  valid : v.Valid
  budgeted : v.Budgeted
  formed : v.Formed
  ceiling_le : v.ceiling ≤ maxLedgerBytes

theorem roomy_emptyLedger : Roomy emptyLedger := by
  refine ⟨valid_emptyLedger, budgeted_emptyLedger, ?_, by decide⟩
  refine ⟨rfl, Nat.zero_le _, Nat.zero_le _, fun r hr => ?_, fun {k l} h => ?_, fun h => ?_⟩
  · cases hr
  · cases k <;> cases h
  · simp [emptyLedger] at h

theorem Roomy.mutate (h : v.Roomy) (ha : Admits v c) (hm : c.mutate v = .ok next) : next.Roomy := by
  obtain ⟨-, hrevision, hfence⟩ := Change.validate_of_mutate hm
  obtain ⟨hvalid, hbudgeted, -⟩ := Next.keeps ⟨ha.permitted, hm⟩ h.valid h.budgeted
  obtain ⟨changed, happly, rfl⟩ := Change.mutate_eq_ok hm
  obtain ⟨hformed, heq⟩ := h.formed.apply hfence ha.formatted happly
  refine ⟨hvalid, hbudgeted, ?_, ?_⟩
  · refine ⟨hformed.schemaVersion, ?_, hformed.nextFence, hformed.reason, hformed.leases,
      hformed.operations⟩
    rw [heq]
    exact Nat.succ_le_succ hrevision
  · have hceiling : changed.ceiling ≤ maxLedgerBytes := by
      rcases ceiling_of_apply h.valid ha.formatted happly with hle | ⟨id, hid, hfresh, hle⟩
      · exact hle.trans h.ceiling_le
      · exact hle.trans (ha.room id hid hfresh)
    exact hceiling

theorem Roomy.byteLength_le (h : v.Roomy) : byteLength v.stringify ≤ maxLedgerBytes :=
  (h.formed.byteLength_stringify_le h.budgeted).trans h.ceiling_le

/-- A change that is admitted is written as `mutate` makes it. -/
theorem Roomy.write (h : v.Roomy) (ha : Admits v c) (hm : c.mutate v = .ok next) :
    c.write v = .ok next :=
  write_eq_ok hm (h.mutate ha hm).byteLength_le

/-- An admitted change that passes its own checks is one more step of a run of writes. -/
theorem Roomy.step (h : v.Roomy) (ha : Admits v c) (happly : c.apply v = .ok next)
    (hrevision : v.revision ≤ maxSafeInteger) (hfence : v.nextFence ≤ maxSafeInteger) :
    writes v c = some { next with revision := next.revision + 1 }
      ∧ Roomy { next with revision := next.revision + 1 } := by
  have hm := Change.mutate_of_apply happly h.formed.schemaVersion hrevision hfence
  refine ⟨?_, h.mutate ha hm⟩
  rw [writes]
  rw [h.write ha hm]
  rfl

/-- A signed operation is finished by one write. -/
theorem Roomy.finishes {id : OperationId} {op : DurableOperation} (h : v.Roomy)
    (hop : v.operations.get? id = some op) (hactive : op.state.terminal = false)
    (hattempt : op.attempt.isSome = true) (hrevision : v.revision ≤ maxSafeInteger)
    (hfence : v.nextFence ≤ maxSafeInteger) (now : Instant) :
    ∃ v' op', writes v (.transition id .failed none now) = some v'
      ∧ v'.operations.get? id = some op' ∧ op'.state.terminal = true := by
  have ha : Admits v (.transition id .failed none now) := by
    refine ⟨trivial, fun e he => ?_, fun j hj => ?_⟩
    · cases he
    · cases hj
  have happly : (Change.transition id .failed none now).apply v = .ok _ :=
    transition_ok hop hactive hattempt (.inr rfl)
  obtain ⟨hwrite, -⟩ := h.step ha happly hrevision hfence
  exact ⟨_, _, hwrite, by rw [Record.get?_set, if_pos rfl], rfl⟩

/-- A reserved operation is signed by two writes, once no lease of its kind is held. -/
theorem Roomy.prepares {id : OperationId} {op : DurableOperation} {holder : String}
    {attempt : SignedAttempt} {now expiresAt : Instant} (h : v.Roomy)
    (hop : v.operations.get? id = some op) (hstate : op.state = .reserved)
    (hfree : ∀ lease ∈ v.leases.get op.kind, lease.expiresAt.ms ≤ now.ms)
    (hexpires : Instant.ofMs? (now.ms + preparationLeaseMs) = some expiresAt)
    (hholder : byteLength (stringText holder) ≤ holderBytes) (hattempt : attempt.Formatted)
    (hrevision : v.revision + 1 ≤ maxSafeInteger) (hfence : v.nextFence + 1 ≤ maxSafeInteger) :
    ∃ tr v' op', Run writes v tr v' ∧ v'.Roomy ∧ v'.operations.get? id = some op'
      ∧ op'.state = .prepared ∧ op'.attempt = some attempt
      ∧ v'.revision = v.revision + 2 ∧ v'.nextFence = v.nextFence + 1 := by
  -- take the lease
  have hactive : op.state.terminal = false := by
    rw [hstate]
    rfl
  have happly : (Change.acquire id op.kind holder now).apply v = .ok _ :=
    acquire_ok hop hactive hfree hexpires
  have hacquire : Admits v (.acquire id op.kind holder now) := by
    refine ⟨trivial, hholder, fun j hj => ?_⟩
    cases hj
  obtain ⟨hwrite, hroomy⟩ := h.step hacquire happly (by omega) (by omega)
  -- and store the attempt under it
  have hlive : now.ms < expiresAt.ms := by
    rw [Instant.ofMs?] at hexpires
    split at hexpires
    · cases hexpires
      change now.ms < now.ms + 45_000
      omega
    · cases hexpires
  obtain ⟨hwrite', hroomy'⟩ := hroomy.step
    (c := .persistPrepared id ⟨id, holder, v.nextFence + 1, expiresAt⟩ attempt now)
    ⟨trivial, hattempt, fun j hj => by cases hj⟩
    (@persistPrepared_ok _ _ _ _ _ op (by simp [hstate, hop]) hstate (by simp) rfl hlive)
    hrevision hfence
  exact ⟨_, _, _, .cons hwrite (.single hwrite'), hroomy', by rw [Record.get?_set, if_pos rfl], rfl,
    rfl, rfl, rfl⟩

/-- Every operation that is not finished can be. -/
theorem Roomy.completes {id : OperationId} {op : DurableOperation} {holder : String}
    {attempt : SignedAttempt} {now expiresAt : Instant} (h : v.Roomy)
    (hop : v.operations.get? id = some op) (hactive : op.state.terminal = false)
    (hfree : ∀ lease ∈ v.leases.get op.kind, lease.expiresAt.ms ≤ now.ms)
    (hexpires : Instant.ofMs? (now.ms + preparationLeaseMs) = some expiresAt)
    (hholder : byteLength (stringText holder) ≤ holderBytes) (hattempt : attempt.Formatted)
    (hrevision : v.revision + 2 ≤ maxSafeInteger) (hfence : v.nextFence + 1 ≤ maxSafeInteger) :
    ∃ tr v' op', Run writes v tr v' ∧ v'.operations.get? id = some op'
      ∧ op'.state.terminal = true := by
  by_cases hstate : op.state = .reserved
  · obtain ⟨tr, v', op', hrun, hroomy, hop', hprepared, hsigned, hrev, hnext⟩ :=
      h.prepares hop hstate hfree hexpires hholder hattempt (by omega) hfence
    obtain ⟨v'', op'', hwrite, hop'', hterminal⟩ := hroomy.finishes hop' (by rw [hprepared]; rfl)
      (by rw [hsigned]; rfl) (by omega) (by omega) now
    exact ⟨_, v'', op'', .snoc hrun hwrite, hop'', hterminal⟩
  · have hsome : op.attempt.isSome = true := by
      rw [Option.isSome_iff_ne_none]
      exact fun hnone => hstate ((h.valid.coherent hop).mp hnone)
    obtain ⟨v', op', hwrite, hop', hterminal⟩ :=
      h.finishes hop hactive hsome (by omega) (by omega) now
    exact ⟨_, v', op', .single hwrite, hop', hterminal⟩

end HostedDevnetLedger

/-- Every change of a history was admitted by the ledger it was made on. -/
def Admitted (tr : List Change) : Prop :=
  ∀ front c back v, tr = front ++ c :: back → Run mutates emptyLedger front v → Admits v c

theorem roomy_of_run {tr : List Change} {v : HostedDevnetLedger} (h : Run mutates emptyLedger tr v)
    (ha : Admitted tr) : v.Roomy := by
  refine Run.rec_on_history (P := fun tr v => Admitted tr → v.Roomy) h (fun _ => roomy_emptyLedger)
    (fun front u c next hrun ih hstep ha => ?_) ha
  have hfront : Admitted front := by
    intro front' c' back' u' heq hrun'
    apply ha front' c' (back' ++ [c]) u' _ hrun'
    rw [heq]
    simp
  exact (ih hfront).mutate (ha front c [] u rfl hrun) (Result.toOption_eq_some.mp hstep)

/-- **The ledger fits** while reservations are admitted under the limit. In every run of the journal
in which every change carries data of its format, and a new operation is reserved only while the
ledger and the operation, all grown to the largest they can become, fit the limit:

* the text of the ledger fits the limit;
* no admitted change fails for its size: what `mutate` makes of the ledger is written;
* a recorded operation that is not finished can be: once the lease of its kind has run out, and as
  long as the counters of the ledger last, there are writes that take it to a terminal state.
-/
theorem ledger_fits {tr : List Change} {v : HostedDevnetLedger} (h : Run mutates emptyLedger tr v)
    (ha : Admitted tr) :
    byteLength v.stringify ≤ maxLedgerBytes
    ∧ (∀ c next, Admits v c → c.mutate v = .ok next → c.write v = .ok next)
    ∧ (∀ id op, v.operations.get? id = some op → op.state.terminal = false →
      v.revision + 2 ≤ maxSafeInteger → v.nextFence + 1 ≤ maxSafeInteger →
      ∀ (holder : String) (attempt : SignedAttempt) (now : Instant),
      byteLength (stringText holder) ≤ holderBytes → attempt.Formatted →
      (∀ lease ∈ v.leases.get op.kind, lease.expiresAt.ms ≤ now.ms) →
      (Instant.ofMs? (now.ms + preparationLeaseMs)).isSome = true →
      ∃ tr' v' op', Run writes v tr' v' ∧ v'.operations.get? id = some op'
        ∧ op'.state.terminal = true) := by
  have hroomy := roomy_of_run h ha
  refine ⟨hroomy.byteLength_le, fun c next hc hm => hroomy.write hc hm, ?_⟩
  intro id op hop hactive hrevision hfence holder attempt now hholder hattempt hfree hexpires
  obtain ⟨expiresAt, hexpires⟩ := Option.isSome_iff_exists.mp hexpires
  exact hroomy.completes hop hactive hfree hexpires hholder hattempt hrevision hfence

/-- The room a reserved observation takes. -/
theorem weight_reserveObservation_le (assetId : String) (now : Instant) :
    (Change.reserveObservation assetId now).weight ≤ 2_755 + byteLength (stringText assetId) := by
  have hid : byteLength (quote (observationOperationId assetId (observationBucket now)).text)
      = 78 :=
    OperationId.byteLength_text _
  have hkind : byteLength (stringText "observation") = 13 := by decide
  have hlamports : byteLength (number 10_000) = 5 := by decide
  have hcreated := byteLength_instantText now
  have hbucket := byteLength_instantText (observationBucket now)
  have hday := byteLength_utcDay now
  have hnull : byteLength ['n', 'u', 'l', 'l'] = 4 := by decide
  have hattempt : attemptBytes = 2_164 := rfl
  change byteLength (quote (observationOperationId assetId (observationBucket now)).text) + 2
    + (185 + byteLength (quote (observationOperationId assetId (observationBucket now)).text)
      + byteLength (stringText "observation") + 11 + byteLength (number 10_000)
      + byteLength (instantText now) + byteLength (stringText (utcDay now))
      + byteLength ['n', 'u', 'l', 'l'] + byteLength (stringText assetId)
      + byteLength ['n', 'u', 'l', 'l'] + byteLength ['n', 'u', 'l', 'l']
      + byteLength (instantText (observationBucket now)) + 16 + attemptBytes + 29 + 29 + 22) ≤ _
  omega

/-- The ledger with one reserved observation. -/
def reservedLedger (assetId : String) (now : Instant) : HostedDevnetLedger :=
  { emptyLedger with
    revision := 1, observationLifetimeLamports := observationReservationLamports
    operations := (∅ : Record OperationId DurableOperation).set
      (observationOperationId assetId (observationBucket now)) (observationOperation assetId now) }

theorem run_reservedLedger (assetId : String) (now : Instant) :
    Run mutates emptyLedger [.reserveObservation assetId now] (reservedLedger assetId now) := by
  have hfresh : emptyLedger.operations.get? (observationOperationId assetId (observationBucket now))
      = none := Record.get?_empty _
  have hbudget : emptyLedger.observationLifetimeLamports + observationReservationLamports
      ≤ Devnet.observationLifetimeLamports := by decide
  apply Run.single
  exact mutates_reserveObservation hfresh hbudget rfl (Nat.zero_le _) (Nat.zero_le _)

theorem admitted_reservation {assetId : String} (now : Instant)
    (h : byteLength (stringText assetId) ≤ 1_000) :
    Admitted [.reserveObservation assetId now] := by
  intro front c back v heq hv
  cases front with
  | nil =>
    obtain ⟨rfl, rfl⟩ := List.cons.inj heq
    obtain rfl := Run.eq_of_nil hv
    refine ⟨trivial, trivial, fun _ _ _ => ?_⟩
    have hweight := weight_reserveObservation_le assetId now
    have hceiling : emptyLedger.ceiling = 678 := by decide
    have hmax : maxLedgerBytes = 1_048_576 := rfl
    omega
  | cons c' front =>
    obtain ⟨-, hnil⟩ := List.cons.inj heq
    simp at hnil

/-- A reserved observation of one asset: its ledger fits, and the operation can be finished. -/
theorem ledger_fits_sample : ∃ v, Run mutates emptyLedger
      [.reserveObservation "xstocks-test-kox" Sample.noon] v
    ∧ byteLength v.stringify ≤ maxLedgerBytes
    ∧ ∃ id tr v' op', (v.operations.get? id).isSome = true ∧ Run writes v tr v'
      ∧ v'.operations.get? id = some op' ∧ op'.state.terminal = true := by
  have hrun := run_reservedLedger "xstocks-test-kox" Sample.noon
  obtain ⟨hsize, -, hfinish⟩ := ledger_fits hrun (admitted_reservation Sample.noon (by decide))
  have hop : (reservedLedger "xstocks-test-kox" Sample.noon).operations.get?
      (observationOperationId "xstocks-test-kox" (observationBucket Sample.noon))
      = some (observationOperation "xstocks-test-kox" Sample.noon) := by
    simp only [reservedLedger, Record.get?_set, if_true]
  have hattempt : Sample.attempt.Formatted := by
    constructor <;> decide
  obtain ⟨tr, v', op', htr, hop', hterminal⟩ := hfinish _ _ hop rfl (by decide) (by decide)
    "00000000-0000-4000-8000-000000000000" Sample.attempt Sample.noon (by decide) hattempt
    (fun l hl => by cases hl) (by decide)
  exact ⟨_, hrun, hsize, _, tr, v', op', by rw [hop]; rfl, htr, hop', hterminal⟩

end Devnet

end DividendX
