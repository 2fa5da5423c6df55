import DividendX.Broker.Ledger

/-!
# What a transaction does

One lemma for each request, read backwards from a transaction that was not thrown out of: which
checks it passed and which ledger it leaves. Apart from `reserve`, a request replaces at most one
record of the normalized ledger.
-/

namespace DividendX

namespace Broker

open Devnet (Instant Digest)
open Result

variable {limits : Limits} {ledger next : SessionLedger} {now : Instant} {outcome : Outcome}
  {id : SessionId} {mutation : Mutation}

/-- The ledger after `normalizeLedger`, for the cutoff of its counters. -/
def normalized (ledger : SessionLedger) (now cutoff : Instant) : SessionLedger :=
  { ledger with
    sessions := normalizeSessions ledger.sessions now
    latest := ledger.latest.filter fun _ id =>
      ((normalizeSessions ledger.sessions now).get? id).isSome
    daily := ledger.daily.filter fun date _ => !(decide (date < day cutoff))
    visitorLastCreatedAt := ledger.visitorLastCreatedAt.filter fun _ createdAt =>
      !(decide (createdAt.ms ≤ now.ms - twoDays)) }

theorem dateAt_eq_ok {ms : Int} {t : Instant} (h : dateAt ms = .ok t) : t.ms = ms := by
  have hsome : Instant.ofMs? ms = some t := okOr_eq_ok.mp h
  rw [Instant.ofMs?] at hsome
  split at hsome
  · cases hsome
    rfl
  · cases hsome

theorem normalizeLedger_eq_ok (h : normalizeLedger ledger now = .ok next) :
    ∃ cutoff, cutoff.ms = now.ms - twoDays ∧ next = normalized ledger now cutoff := by
  rw [normalizeLedger] at h
  simp only [bind_eq_ok, require_eq_ok, pure_eq_ok] at h
  obtain ⟨-, -, cutoff, hcutoff, rfl⟩ := h
  exact ⟨cutoff, dateAt_eq_ok hcutoff, rfl⟩

/-- A record in the normalized sessions is the normal form of one that is kept. -/
theorem get?_normalizeSessions {sessions : Record SessionId SessionRecord} {r : SessionRecord} :
    (normalizeSessions sessions now).get? id = some r ↔
      ∃ r₀, sessions.get? id = some r₀ ∧ r = normalizeRecord now r₀ ∧ kept now r = true := by
  rw [normalizeSessions]
  rw [Record.get?_filter, Record.get?_map, Option.filter_eq_some_iff, Option.map_eq_some_iff]
  constructor
  · rintro ⟨⟨r₀, hr₀, rfl⟩, hkept⟩
    exact ⟨r₀, hr₀, rfl, hkept⟩
  · rintro ⟨r₀, hr₀, rfl, hkept⟩
    exact ⟨⟨r₀, hr₀, rfl⟩, hkept⟩

/-! ## Requests -/

/-- `reserve` creates a record. -/
structure Creates (limits : Limits) (ledger next : SessionLedger) (input : ReserveInput)
    (now : Instant)
    (record : SessionRecord) : Prop where
  free : ∀ latest, (ledger.latest.get? (input.visitorHash, input.kind)).bind ledger.sessions.get?
    = some latest → holdsCapacity latest now = false
  cooled : ∀ lastCreated, ledger.visitorLastCreatedAt.get? input.visitorHash = some lastCreated →
    lastCreated.ms + limits.creationCooldownMs ≤ now.ms
  active : activeCount ledger now < limits.active
  dailyGlobal : (counterOf ledger (day now)).global < limits.dailyGlobal
  dailyVisitor :
    ((counterOf ledger (day now)).visitors.get? input.visitorHash).getD 0 < limits.dailyVisitor
  dailyIp : ((counterOf ledger (day now)).ips.get? input.ipHash).getD 0 < limits.dailyIp
  made : newRecord limits input now = .ok record
  next : next = { ledger with
    sessions := ledger.sessions.set record.id record
    latest := ledger.latest.set (input.visitorHash, input.kind) record.id
    visitorLastCreatedAt := ledger.visitorLastCreatedAt.set input.visitorHash now
    daily := ledger.daily.set (day now)
      (countCreation (counterOf ledger (day now)) input.visitorHash input.ipHash) }

/-- `reserve` returns the visitor's record that holds capacity, or creates one. -/
theorem reserve_eq_ok {input : ReserveInput}
    (h : ledger.reserve limits input now = .ok (next, outcome)) :
    (next = ledger ∧ outcome.applied = false
      ∧ (ledger.latest.get? (input.visitorHash, input.kind)).bind ledger.sessions.get?
        = some outcome.record
      ∧ holdsCapacity outcome.record now = true) ∨
    (outcome.applied = true ∧ Creates limits ledger next input now outcome.record) := by
  rw [SessionLedger.reserve] at h
  simp only at h
  split at h
  · -- a session in use is returned as it is
    rename_i latest hlatest
    obtain ⟨hsome, hholds⟩ := Option.filter_eq_some_iff.mp hlatest
    simp only [pure_eq_ok, Prod.mk.injEq] at h
    obtain ⟨rfl, rfl⟩ := h
    exact .inl ⟨rfl, rfl, hsome, hholds⟩
  · rename_i hnone
    simp only [bind_eq_ok, require_eq_ok, pure_eq_ok, exists_unit, Prod.mk.injEq] at h
    obtain ⟨hcool, hactive, hglobal, hvisitor, hip, record, hrecord, rfl, rfl⟩ := h
    refine .inr ⟨rfl, ?_, ?_, ?_, ?_, ?_, ?_, hrecord, rfl⟩
    · intro latest hlatest
      rw [Option.filter_eq_none_iff] at hnone
      simpa using hnone latest hlatest
    · intro lastCreated hlast
      have hle := hcool lastCreated hlast
      omega
    · omega
    · omega
    · omega
    · omega

/-- `update` changes one record. -/
theorem update_eq_ok (h : ledger.update limits id mutation now = .ok (next, outcome)) :
    ∃ r, ledger.sessions.get? id = some r ∧ mutation.apply limits now r = .ok outcome.record
      ∧ outcome.applied = true
      ∧ next = { ledger with sessions := ledger.sessions.set id outcome.record } := by
  rw [SessionLedger.update] at h
  simp only [bind_eq_ok, okOr_eq_ok, pure_eq_ok, Prod.mk.injEq] at h
  obtain ⟨r, hr, r', hr', rfl, rfl⟩ := h
  exact ⟨r, hr, hr', rfl, rfl⟩

/-- `updateFenced` changes one record, if its fence lets it. -/
theorem updateFenced_eq_ok {allowed : List StoredSessionStatus} {requireLatest : Bool}
    (h : ledger.updateFenced limits id allowed requireLatest mutation now = .ok (next, outcome)) :
    ∃ r, ledger.sessions.get? id = some r ∧
      ((next = ledger ∧ outcome = ⟨r, false⟩) ∨
        (r.status ∈ allowed
        ∧ (requireLatest = true → ledger.latest.get? (r.visitorHash, r.kind) = some id)
        ∧ isFuture r.expiresAt now = true ∧ mutation.apply limits now r = .ok outcome.record
        ∧ outcome.applied = true
        ∧ next = { ledger with sessions := ledger.sessions.set id outcome.record })) := by
  rw [SessionLedger.updateFenced] at h
  simp only [bind_eq_ok, okOr_eq_ok] at h
  obtain ⟨r, hr, h⟩ := h
  refine ⟨r, hr, ?_⟩
  split at h
  · simp only [pure_eq_ok, Prod.mk.injEq] at h
    obtain ⟨rfl, rfl⟩ := h
    exact .inl ⟨rfl, rfl⟩
  · rename_i hfence
    simp only [bind_eq_ok, pure_eq_ok, Prod.mk.injEq] at h
    obtain ⟨r', hr', rfl, rfl⟩ := h
    simp only [not_or, not_and, not_not, Bool.not_eq_false] at hfence
    exact .inr ⟨hfence.1, hfence.2.1, hfence.2.2, hr', rfl, rfl⟩

/-- The charge of a session without a meter changes only its counters. -/
theorem charge_eq_ok {visitorHash : Digest} {kind : SandboxKind} {mutationCount : Nat}
    (h : ledger.charge limits id visitorHash kind mutationCount now = .ok (next, outcome)) :
    ∃ r window total count mutations, ledger.sessions.get? id = some r ∧ r.meterVersion = none
      ∧ outcome.record = { r with
          minuteWindow := window, forwardedTotal := total, minuteCount := count,
            mutationTotal := mutations }
      ∧ next = { ledger with sessions := ledger.sessions.set id outcome.record } := by
  rw [SessionLedger.charge] at h
  simp only [bind_eq_ok, okOr_eq_ok, require_eq_ok, pure_eq_ok, Prod.mk.injEq] at h
  obtain ⟨r, hr, -, hcheck, -, -, -, -, rfl, rfl⟩ := h
  exact ⟨r, _, _, _, _, hr, hcheck.2.2.1, rfl, rfl⟩

/-- A transaction normalizes the ledger and carries out its request. -/
theorem Transaction.apply_eq_ok {t : Transaction}
    (h : t.apply limits ledger = .ok (next, outcome)) :
    ∃ cutoff mid, cutoff.ms = t.now.ms - twoDays
      ∧ t.request.apply limits (normalized ledger t.now cutoff) t.now = .ok (mid, outcome)
      ∧ next = { mid with revision := mid.revision + 1 } := by
  rw [Transaction.apply] at h
  simp only [bind_eq_ok, pure_eq_ok] at h
  obtain ⟨n, hn, ⟨mid, outcome'⟩, hrequest, heq⟩ := h
  obtain ⟨cutoff, hcutoff, rfl⟩ := normalizeLedger_eq_ok hn
  cases heq
  exact ⟨cutoff, mid, hcutoff, hrequest, rfl⟩

/-- What a transaction leaves: a record was created, or one was replaced, or none. -/
inductive Effect (limits : Limits) (ledger next : SessionLedger) (t : Transaction)
    (outcome : Outcome) :
    Prop
  | created {cutoff : Instant} {mid : SessionLedger} {input : ReserveInput} :
      cutoff.ms = t.now.ms - twoDays → t.request = .reserve input → outcome.applied = true →
      Creates limits (normalized ledger t.now cutoff) mid input t.now outcome.record →
      next = { mid with revision := mid.revision + 1 } → Effect limits ledger next t outcome
  | replaced {cutoff : Instant} {id : SessionId} {r r' : SessionRecord} :
      cutoff.ms = t.now.ms
        - twoDays → (∀ input, t.request = .reserve input → outcome.applied = false) →
      (normalized ledger t.now cutoff).sessions.get? id = some r →
      next = { normalized ledger t.now cutoff with
        sessions := (normalized ledger t.now cutoff).sessions.set id r'
        revision := ledger.revision + 1 } → Effect limits ledger next t outcome
  | kept {cutoff : Instant} :
      cutoff.ms = t.now.ms
        - twoDays → (∀ input, t.request = .reserve input → outcome.applied = false) →
      next = { normalized ledger t.now cutoff with revision := ledger.revision + 1 } →
      Effect limits ledger next t outcome

theorem Transaction.effect {t : Transaction} (h : t.apply limits ledger = .ok (next, outcome)) :
    Effect limits ledger next t outcome := by
  obtain ⟨cutoff, mid, hcutoff, hrequest, rfl⟩ := apply_eq_ok h
  obtain ⟨now, request⟩ := t
  cases request with
  | reserve input =>
    rcases reserve_eq_ok hrequest with ⟨rfl, hnot, -⟩ | ⟨hcreated, hcreates⟩
    · exact .kept hcutoff (fun _ _ => hnot) rfl
    · exact .created hcutoff rfl hcreated hcreates rfl
  | update id mutation =>
    obtain ⟨r, hr, -, -, rfl⟩ := update_eq_ok hrequest
    exact .replaced hcutoff (fun _ h => nomatch h) hr rfl
  | updateFenced id allowed requireLatest mutation =>
    obtain ⟨r, hr, ⟨rfl, -⟩ | ⟨-, -, -, -, -, rfl⟩⟩ := updateFenced_eq_ok hrequest
    · exact .kept hcutoff (fun _ h => nomatch h) rfl
    · exact .replaced hcutoff (fun _ h => nomatch h) hr rfl
  | charge id visitorHash kind mutationCount =>
    obtain ⟨r, _, _, _, _, hr, -, -, rfl⟩ := charge_eq_ok hrequest
    exact .replaced hcutoff (fun _ h => nomatch h) hr rfl

end Broker

end DividendX
