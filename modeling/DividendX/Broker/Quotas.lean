import DividendX.Broker.Effects
import DividendX.Broker.World
import DividendX.Devnet.Days

/-!
# Creation quotas

How many sandboxes are created, read off the writes of the session ledger: at most so many in a UTC
day, in total, for a visitor and for an address, and a visitor waits between two of them. The ledger
keeps this up from counters and stamps that every transaction may prune.

**Pruning is harmless while keys are ordered as days.** A counter is deleted when its key is before
the key of two days ago, a stamp when it is two days old. As long as keys of days are ordered as
days are, neither is deleted while it could still refuse a creation. From the year 10000 on keys
have a sign and sort before all others, and the counter of the day itself is deleted.
-/

namespace DividendX

namespace Broker

open Devnet (Instant Digest)
open History Async

/-! ## Creations -/

/-- A record was created. -/
structure Creation where
  now : Instant
  visitorHash : Digest
  ipHash : Digest

/-- The record a transaction creates. -/
def creation? (limits : Limits) (before : SessionLedger) (t : Transaction) : Option Creation :=
  match t.request, t.apply limits before with
  | .reserve input, .ok (_, outcome) =>
    if outcome.applied then some ⟨t.now, input.visitorHash, input.ipHash⟩ else none
  | _, _ => none

/-- The records some writes create, from a ledger on. -/
def creations (limits : Limits) :
    SessionLedger → List (Write Transaction SessionLedger) → List Creation
  | _, [] => []
  | before, w :: log => (creation? limits before w.change).toList ++ creations limits w.value log

/-- How many of the creations that pass a test were on the UTC day of a moment. -/
def createdOn (made : List Creation) (t : Instant) (test : Creation → Bool) : Nat :=
  made.countP fun c => c.now.dayNumber = t.dayNumber && test c

/-- A transaction deletes the counter of a day. -/
def prunes (now : Instant) (date : String) : Prop :=
  ∃ cutoff : Instant, cutoff.ms = now.ms - twoDays ∧ date < day cutoff

theorem content_cons (before : SessionLedger) (w : Write Transaction SessionLedger)
    (log : List (Write Transaction SessionLedger)) :
    content before (w :: log) = content w.value log := by
  cases hlast : log.getLast? with
  | none =>
    rw [List.getLast?_eq_none_iff.mp hlast]
    rfl
  | some v => simp [content, List.getLast?_cons, hlast]

theorem creations_append (limits : Limits) (before : SessionLedger)
    (log : List (Write Transaction SessionLedger)) (w : Write Transaction SessionLedger) :
    creations limits before (log ++ [w]) =
      creations limits before log ++ (creation? limits (content before log) w.change).toList := by
  induction log generalizing before with
  | nil => simp [creations]
  | cons v log ih =>
    rw [List.cons_append, creations, ih, creations, List.append_assoc, content_cons]

theorem createdOn_append (made more : List Creation) (t : Instant) (test : Creation → Bool) :
    createdOn (made ++ more) t test = createdOn made t test + createdOn more t test :=
  List.countP_append

/-! ## One more transaction -/

/-- A write that a transaction makes on the ledger it read, at a time not before any of the writes
it read. -/
def Written (limits : Limits) (log : List (Write Transaction SessionLedger))
    (w : Write Transaction SessionLedger) : Prop :=
  (∀ v ∈ log, v.change.now.ms ≤ w.change.now.ms) ∧ w.change.now.FourDigit
    ∧ ∃ outcome, w.change.apply limits (content emptyLedger log) = .ok (w.value, outcome)

/-- The counter of a day is the number of that day's creations. -/
structure Counts (counter : DailyCounter) (made : List Creation) (t : Instant) : Prop where
  global : counter.global = createdOn made t fun _ => true
  visitors : ∀ v, (counter.visitors.get? v).getD 0 = createdOn made t fun c => c.visitorHash = v
  ips : ∀ ip, (counter.ips.get? ip).getD 0 = createdOn made t fun c => c.ipHash = ip

/-- What the quotas promise of the creations made. -/
structure Within (limits : Limits) (made : List Creation) : Prop where
  global : ∀ t, createdOn made t (fun _ => true) ≤ limits.dailyGlobal
  visitor : ∀ t v, createdOn made t (fun c => c.visitorHash = v) ≤ limits.dailyVisitor
  ip : ∀ t ip, createdOn made t (fun c => c.ipHash = ip) ≤ limits.dailyIp
  spaced : made.Pairwise fun c c' =>
    c.visitorHash = c'.visitorHash → c.now.ms + (limits.creationCooldownMs : Int) ≤ c'.now.ms

/-- The ledger after some writes knows its creations: counters of days that were not pruned are
exact, and the stamp of a visitor is missing only when it is two days old. -/
structure Booked (limits : Limits) (log : List (Write Transaction SessionLedger))
    (made : List Creation) :
    Prop where
  counts : ∀ t : Instant, t.FourDigit → (∀ w ∈ log, ¬ prunes w.change.now (day t)) →
    Counts (counterOf (content emptyLedger log) (day t)) made t
  stamped : ∀ c ∈ made,
    (∃ stamp, (content emptyLedger log).visitorLastCreatedAt.get? c.visitorHash = some stamp
      ∧ c.now.ms ≤ stamp.ms) ∨ ∃ w ∈ log, c.now.ms ≤ w.change.now.ms - twoDays
  timed : ∀ c ∈ made, ∃ w ∈ log, c.now = w.change.now
  within : Within limits made

variable {limits : Limits} {log : List (Write Transaction SessionLedger)}
  {w : Write Transaction SessionLedger} {made : List Creation}

theorem booked_nil (limits : Limits) : Booked limits [] [] := by
  refine ⟨fun t _ _ => ⟨rfl, fun v => ?_, fun ip => ?_⟩, fun c hc => (List.not_mem_nil hc).elim,
    fun c hc => (List.not_mem_nil hc).elim,
    ⟨fun t => Nat.zero_le _, fun t v => Nat.zero_le _, fun t ip => Nat.zero_le _, .nil⟩⟩
  · simp [counterOf, emptyLedger, DailyCounter.empty, createdOn]
  · simp [counterOf, emptyLedger, DailyCounter.empty, createdOn]

/-- Normalizing leaves the counter of a day it does not prune. -/
theorem counterOf_normalized {ledger : SessionLedger} {now cutoff : Instant} {date : String}
    (hcutoff : cutoff.ms = now.ms - twoDays) (h : ¬ prunes now date) :
    counterOf (normalized ledger now cutoff) date = counterOf ledger date := by
  have hkeep : ¬ date < day cutoff := fun hlt => h ⟨cutoff, hcutoff, hlt⟩
  simp only [counterOf, normalized]
  simp only [Record.get?_filter]
  cases ledger.daily.get? date with
  | none => rfl
  | some counter => simp [Option.filter, hkeep]

/-- Normalizing leaves a stamp that is not two days old. -/
theorem stamp_normalized {ledger : SessionLedger} {now cutoff stamp : Instant} {v : Digest}
    (h : ledger.visitorLastCreatedAt.get? v = some stamp) (hnew : ¬ stamp.ms ≤ now.ms - twoDays) :
    (normalized ledger now cutoff).visitorLastCreatedAt.get? v = some stamp := by
  rw [normalized]
  simp [h, Option.filter, hnew]

/-- A transaction that creates nothing leaves counters and stamps, apart from pruning. -/
theorem Booked.kept (h : Booked limits log made) {cutoff : Instant}
    (hcutoff : cutoff.ms = w.change.now.ms - twoDays)
    (hdaily : w.value.daily = (normalized (content emptyLedger log) w.change.now cutoff).daily)
    (hstamps : w.value.visitorLastCreatedAt
      = (normalized (content emptyLedger log) w.change.now cutoff).visitorLastCreatedAt) :
    Booked limits (log ++ [w]) made := by
  refine ⟨fun t ht hkeep => ?_, fun c hc => ?_, fun c hc => ?_, h.within⟩
  · have hold := h.counts t ht fun v hv => hkeep v (List.mem_append_left _ hv)
    have hnew : ¬ prunes w.change.now (day t) := hkeep w (by simp)
    rw [content_append, counterOf, hdaily]
    rw [← counterOf_normalized hcutoff hnew] at hold
    exact hold
  · rw [content_append, hstamps]
    rcases h.stamped c hc with ⟨stamp, hstamp, hle⟩ | ⟨v, hv, hle⟩
    · by_cases hnew : stamp.ms ≤ w.change.now.ms - twoDays
      · exact .inr ⟨w, by simp, by omega⟩
      · exact .inl ⟨stamp, stamp_normalized hstamp hnew, hle⟩
    · exact .inr ⟨v, List.mem_append_left _ hv, hle⟩
  · obtain ⟨v, hv, heq⟩ := h.timed c hc
    exact ⟨v, List.mem_append_left _ hv, heq⟩

/-- The counter of the day after one more creation. -/
theorem Counts.creation {counter : DailyCounter} {now : Instant} {visitorHash ipHash : Digest}
    (h : Counts counter made now) :
    Counts (countCreation counter visitorHash ipHash)
      (made ++ [⟨now, visitorHash, ipHash⟩]) now := by
  refine ⟨?_, fun v => ?_, fun ip => ?_⟩
  · rw [createdOn_append, ← h.global]
    simp [countCreation, createdOn]
  · rw [createdOn_append, ← h.visitors v]
    by_cases hv : v = visitorHash
    · simp [countCreation, createdOn, hv]
    · simp [countCreation, createdOn, hv, Ne.symm hv]
  · rw [createdOn_append, ← h.ips ip]
    by_cases hip : ip = ipHash
    · simp [countCreation, createdOn, hip]
    · simp [countCreation, createdOn, hip, Ne.symm hip]

/-- On other days nothing is counted. -/
theorem createdOn_other {c : Creation} {t : Instant} (h : c.now.dayNumber ≠ t.dayNumber)
    (test : Creation → Bool) : createdOn [c] t test = 0 := by
  simp [createdOn, h]

theorem Counts.other {counter : DailyCounter} {t : Instant} {c : Creation}
    (h : Counts counter made t) (hday : c.now.dayNumber ≠ t.dayNumber) :
    Counts counter (made ++ [c]) t := by
  refine ⟨?_, fun v => ?_, fun ip => ?_⟩
  · rw [createdOn_append, createdOn_other hday, Nat.add_zero, h.global]
  · rw [createdOn_append, createdOn_other hday, Nat.add_zero, h.visitors]
  · rw [createdOn_append, createdOn_other hday, Nat.add_zero, h.ips]

/-- One more creation raises the number of a day by one at most, and of other days not at all. -/
theorem createdOn_le {c : Creation} {bound : Nat} (test : Creation → Bool)
    (hall : ∀ t, createdOn made t test ≤ bound)
    (hroom : test c = true → createdOn made c.now test < bound) (t : Instant) :
    createdOn (made ++ [c]) t test ≤ bound := by
  rw [createdOn_append]
  by_cases hday : c.now.dayNumber = t.dayNumber
  · have hsame : createdOn made t test = createdOn made c.now test := by
      simp only [createdOn, hday]
    by_cases htest : test c = true
    · have hone : createdOn [c] t test ≤ 1 := List.countP_le_length
      have hlt := hroom htest
      omega
    · have hzero : createdOn [c] t test = 0 := by simp [createdOn, htest]
      have hle := hall t
      omega
  · rw [createdOn_other hday]
    exact hall t

/-- No transaction so far has pruned the day of the next. -/
theorem not_prunes {now now' : Instant} (h : now'.FourDigit) (hle : now.ms ≤ now'.ms) :
    ¬ prunes now (day now') := by
  rintro ⟨cutoff, hcutoff, hlt⟩
  refine Instant.utcDay_not_lt h ?_ hlt
  rw [twoDays] at hcutoff
  omega

theorem Counts.congr {counter : DailyCounter} {t t' : Instant} (h : Counts counter made t)
    (hday : t.dayNumber = t'.dayNumber) : Counts counter made t' := by
  have hsame : ∀ test, createdOn made t test = createdOn made t' test := fun test => by
    simp only [createdOn, hday]
  exact ⟨by rw [h.global, hsame], fun v => by rw [h.visitors, hsame],
    fun ip => by rw [h.ips, hsame]⟩

/-- The visitor of a new creation has waited since every earlier one, if its stamp was pruned or
not. -/
theorem Booked.cooled (h : Booked limits log made) {c : Creation}
    (htime : ∀ v ∈ log, v.change.now.ms ≤ w.change.now.ms)
    (hcool : (limits.creationCooldownMs : Int) ≤ twoDays) {cutoff : Instant} {mid : SessionLedger}
    {input : ReserveInput} {record : SessionRecord}
    (hcreates : Creates limits (normalized (content emptyLedger log) w.change.now cutoff) mid input
      w.change.now record)
    (hc : c ∈ made) (hvisitor : c.visitorHash = input.visitorHash) :
    c.now.ms + (limits.creationCooldownMs : Int) ≤ w.change.now.ms := by
  rcases h.stamped c hc with ⟨stamp, hstamp, hle⟩ | ⟨v, hv, hle⟩
  · by_cases hnew : stamp.ms ≤ w.change.now.ms - twoDays
    · omega
    · rw [hvisitor] at hstamp
      have hwait := hcreates.cooled stamp (stamp_normalized hstamp hnew)
      omega
  · have hlast := htime v hv
    omega

/-- **One more creation.** It passed every check against exact counters and the visitor's last
stamp. -/
theorem Booked.created (h : Booked limits log made)
    (htime : ∀ v ∈ log, v.change.now.ms ≤ w.change.now.ms)
    (hyear : w.change.now.FourDigit) (hcool : (limits.creationCooldownMs : Int) ≤ twoDays)
    {cutoff : Instant}
    {mid : SessionLedger} {input : ReserveInput} {record : SessionRecord}
    (hcutoff : cutoff.ms = w.change.now.ms - twoDays)
    (hcreates : Creates limits (normalized (content emptyLedger log) w.change.now cutoff) mid input
      w.change.now record)
    (hvalue : w.value = { mid with revision := mid.revision + 1 }) :
    Booked limits (log ++ [w]) (made ++ [⟨w.change.now, input.visitorHash, input.ipHash⟩]) := by
  -- No counter of today is pruned, so the checks compare exact counts.
  have hnow : Counts (counterOf (normalized (content emptyLedger log) w.change.now cutoff)
      (day w.change.now)) made w.change.now := by
    rw [counterOf_normalized hcutoff (not_prunes hyear (Int.le_refl _))]
    exact h.counts _ hyear fun v hv => not_prunes hyear (htime v hv)
  have hnext := hcreates.next
  refine ⟨fun t ht hkeep => ?_, fun c hc => ?_, fun c hc => ?_,
    ⟨fun t => ?_, fun t v => ?_, fun t ip => ?_, ?_⟩⟩
  · rw [content_append, hvalue, hnext]
    by_cases hday : w.change.now.dayNumber = t.dayNumber
    · have hkey : day t = day w.change.now := ((Instant.utcDay_inj hyear ht).mpr hday).symm
      refine Counts.congr ?_ hday
      rw [hkey]
      simpa [counterOf] using hnow.creation
    · have hkey : day t ≠ day w.change.now := fun heq =>
        hday ((Instant.utcDay_inj hyear ht).mp heq.symm)
      have hold := h.counts t ht fun v hv => hkeep v (List.mem_append_left _ hv)
      rw [← counterOf_normalized hcutoff (hkeep w (by simp))] at hold
      simpa [counterOf, hkey] using hold.other
        (c := ⟨w.change.now, input.visitorHash, input.ipHash⟩) hday
  · rw [content_append, hvalue, hnext]
    rcases List.mem_append.mp hc with hc | hc
    · by_cases hvisitor : c.visitorHash = input.visitorHash
      · obtain ⟨v, hv, heq⟩ := h.timed c hc
        refine .inl ⟨w.change.now, by simp [hvisitor], ?_⟩
        rw [heq]
        exact htime v hv
      · rcases h.stamped c hc with ⟨stamp, hstamp, hle⟩ | ⟨v, hv, hle⟩
        · -- a stamp that is pruned is two days older than this write
          by_cases hnew : stamp.ms ≤ w.change.now.ms - twoDays
          · exact .inr ⟨w, by simp, by omega⟩
          · exact .inl ⟨stamp, by simpa [hvisitor] using stamp_normalized hstamp hnew, hle⟩
        · exact .inr ⟨v, List.mem_append_left _ hv, hle⟩
    · rw [List.mem_singleton.mp hc]
      exact .inl ⟨w.change.now, by simp, Int.le_refl _⟩
  · rcases List.mem_append.mp hc with hc | hc
    · obtain ⟨v, hv, heq⟩ := h.timed c hc
      exact ⟨v, List.mem_append_left _ hv, heq⟩
    · rw [List.mem_singleton.mp hc]
      exact ⟨w, by simp, rfl⟩
  · refine createdOn_le _ h.within.global (fun _ => ?_) t
    rw [← hnow.global]
    exact hcreates.dailyGlobal
  · refine createdOn_le _ (fun t => h.within.visitor t v) (fun hv => ?_) t
    rw [← hnow.visitors, ← of_decide_eq_true hv]
    exact hcreates.dailyVisitor
  · refine createdOn_le _ (fun t => h.within.ip t ip) (fun hip => ?_) t
    rw [← hnow.ips, ← of_decide_eq_true hip]
    exact hcreates.dailyIp
  · refine List.pairwise_append.mpr ⟨h.within.spaced, List.pairwise_singleton _ _, ?_⟩
    intro c hc c' hc' hvisitor
    rw [List.mem_singleton.mp hc'] at hvisitor ⊢
    exact h.cooled htime hcool hcreates hc hvisitor

/-- A transaction that reserves nothing creates nothing. -/
theorem creation?_eq_none {before next : SessionLedger} {t : Transaction} {outcome : Outcome}
    (happly : t.apply limits before = .ok (next, outcome))
    (hnot : ∀ input, t.request = .reserve input → outcome.applied = false) :
    creation? limits before t = none := by
  rw [creation?]
  split
  · rename_i input _ outcome' hrequest hok
    rw [happly] at hok
    cases hok
    rw [hnot input hrequest]
    rfl
  · rfl

/-- **One more transaction.** -/
theorem Booked.step (h : Booked limits log (creations limits emptyLedger log))
    (hcool : (limits.creationCooldownMs : Int) ≤ twoDays) (hw : Written limits log w) :
    Booked limits (log ++ [w]) (creations limits emptyLedger (log ++ [w])) := by
  obtain ⟨htime, hyear, outcome, happly⟩ := hw
  rw [creations_append]
  cases Transaction.effect happly with
  | @created cutoff mid input hcutoff hrequest happlied hcreates hvalue =>
    have hmade : creation? limits (content emptyLedger log) w.change
        = some ⟨w.change.now, input.visitorHash, input.ipHash⟩ := by
      simp only [creation?, hrequest, happly, happlied, if_true]
    rw [hmade]
    exact h.created htime hyear hcool hcutoff hcreates hvalue
  | replaced hcutoff hnot hget hvalue =>
    rw [creation?_eq_none happly hnot, Option.toList_none, List.append_nil]
    exact h.kept hcutoff (by rw [hvalue]) (by rw [hvalue])
  | kept hcutoff hnot hvalue =>
    rw [creation?_eq_none happly hnot, Option.toList_none, List.append_nil]
    exact h.kept hcutoff (by rw [hvalue]) (by rw [hvalue])

/-- **Any number of transactions.** -/
theorem booked_of_legal (hcool : (limits.creationCooldownMs : Int) ≤ twoDays)
    (h : Legal (Written limits) log) : Booked limits log (creations limits emptyLedger log) := by
  induction h with
  | nil => exact booked_nil limits
  | snoc _ hw ih => exact ih.step hcool hw

/-! ## All interleavings of transactions -/

/-- The clock does not go back. -/
def steady : Rules
  | .now, w, t, _ => w.clock.ms ≤ (t : Instant).ms
  | _, _, _, _ => True

/-- The clock does not go back and stays in the years that are written with four digits. -/
def steadyFourDigit : Rules
  | .now, w, t, _ => w.clock.ms ≤ (t : Instant).ms ∧ (t : Instant).FourDigit
  | _, _, _, _ => True

/-- Any transaction may be started. -/
inductive TransactionStarts (limits : Limits) : Async Call Answer Unit → Prop
  | transaction (request : Request) :
    TransactionStarts limits (transaction limits request).run.forget

/-- The ledger is the work of transactions, and none of them is from the future. -/
structure LedgerInv (limits : Limits) (w : World) : Prop where
  orderly : w.ledger.Orderly (Written limits)
  past : ∀ v ∈ w.ledger.log, v.change.now.ms ≤ w.clock.ms
  inflight : ∀ p ∈ w.ledger.inflight, p.change.now.ms ≤ w.clock.ms

/-- The ledger and the clock go on. -/
structure LedgerRely (w w' : World) : Prop where
  log : w.ledger.log <+: w'.ledger.log
  clock : w.clock.ms ≤ w'.clock.ms

/-- A write is the work of a transaction. -/
def LedgerMay (limits : Limits) : Call → World → Prop
  | .putLedger p, w => Basis (Written limits) w.ledger.log p ∧ p.change.now.ms ≤ w.clock.ms
  | _, _ => True

theorem ledgerRely_refl (w : World) : LedgerRely w w := ⟨List.prefix_refl _, Int.le_refl _⟩

theorem LedgerInv.answered {c : Call} {w w' : World} {x : Answer c} (hi : LedgerInv limits w)
    (hmay : LedgerMay limits c w) (h : Answers steadyFourDigit c w x w') :
    LedgerInv limits w' ∧ LedgerRely w w' := by
  obtain ⟨hreplies, hrules⟩ := h
  cases hreplies with
  | now t =>
    have hle : w.clock.ms ≤ t.ms := hrules.1
    exact ⟨⟨hi.orderly, fun v hv => (hi.past v hv).trans hle,
      fun p hp => (hi.inflight p hp).trans hle⟩, ⟨List.prefix_refl _, hle⟩⟩
  | @putLedger _ p _ ledger hputs =>
    obtain ⟨hbasis, hpast⟩ := hmay
    obtain ⟨horderly, hbegins⟩ := hi.orderly.puts hbasis hputs
    refine ⟨⟨horderly, ?_, ?_⟩, ⟨hbegins, Int.le_refl _⟩⟩
    · cases hputs with
      | saved heq =>
        intro v hv
        rcases List.mem_append.mp hv with hv | hv
        · exact hi.past v hv
        · rw [List.mem_singleton.mp hv]
          exact hpast
      | refused => exact hi.past
      | lost e => exact hi.past
    · cases hputs with
      | saved heq => exact hi.inflight
      | refused => exact hi.inflight
      | lost e =>
        intro q hq
        rcases List.mem_cons.mp hq with rfl | hq
        · exact hpast
        · exact hi.inflight q hq
  | dateNow | newSessionId | readLedger | readLedgerFails | readMeter | readMeterFails | putMeter
  | requestCreate | create | launch | get | stops | stopFails | stopFailsLate | fetch
  | boundedJson =>
    exact ⟨⟨hi.orderly, hi.past, hi.inflight⟩, ⟨List.prefix_refl _, Int.le_refl _⟩⟩

theorem LedgerInv.drifted {d : Drift} {w w' : World} (hi : LedgerInv limits w) (h : Drifts d w w') :
    LedgerInv limits w' ∧ LedgerRely w w' := by
  cases h with
  | @ledger _ p ledger hlands =>
    obtain ⟨horderly, hbegins⟩ := hi.orderly.lands hlands
    refine ⟨⟨horderly, ?_, ?_⟩, ⟨hbegins, Int.le_refl _⟩⟩
    · cases hlands with
      | late hmem heq =>
        intro v hv
        rcases List.mem_append.mp hv with hv | hv
        · exact hi.past v hv
        · rw [List.mem_singleton.mp hv]
          exact hi.inflight p hmem
    · cases hlands with
      | late hmem heq => exact hi.inflight
  | meter | born | died =>
    exact ⟨⟨hi.orderly, hi.past, hi.inflight⟩, ⟨List.prefix_refl _, Int.le_refl _⟩⟩

/-- The discipline of transactions. -/
def ledgerDiscipline (limits : Limits) :
    Discipline (machine steadyFourDigit (TransactionStarts limits)) where
  inv := LedgerInv limits
  rely := LedgerRely
  may := LedgerMay limits
  refl := ledgerRely_refl
  trans h h' := ⟨h.log.trans h'.log, h.clock.trans h'.clock⟩
  answered := LedgerInv.answered
  drifted := LedgerInv.drifted

/-- Every attempt of a transaction writes what it computed from the ledger it read. -/
theorem gives_transactionLoop {request : Request} {attempts : Nat} {w : World} :
    (ledgerDiscipline limits).Gives (fun _ _ => True)
      (transactionLoop limits request attempts) w := by
  induction attempts generalizing w with
  | zero => exact .throw
  | succ attempts ih =>
    have hread : (ledgerDiscipline limits).Gives
        (fun cell w' => ∃ s : History Transaction SessionLedger,
        cell = s.cell ∧ s.log <+: w'.ledger.log ∧ ∀ v ∈ s.log, v.change.now.ms ≤ w'.clock.ms)
        (call .readLedger id) w := by
      rintro w₁ - hi
      refine ⟨trivial, fun x w₂ hx w₃ hr hi₃ cell hcell => ?_⟩
      obtain ⟨hreplies, -⟩ := hx
      cases hreplies with
      | readLedger =>
        cases hcell
        exact ⟨w₁.ledger, rfl, hr.log, fun v hv => (hi.past v hv).trans hr.clock⟩
      | readLedgerFails e => cases hcell
    refine hread.bind fun cell w₁ _ _ ⟨s, hcell, hlog, hpast⟩ => ?_
    have hnow : (ledgerDiscipline limits).Gives
        (fun (t : Instant) w' => t.FourDigit ∧ s.log <+: w'.ledger.log
        ∧ (∀ v ∈ s.log, v.change.now.ms ≤ t.ms) ∧ t.ms ≤ w'.clock.ms)
        (ask Call.now : Promise Instant) w₁ := by
      rintro w₂ hr₂ -
      refine ⟨trivial, fun x w₃ hx w₄ hr₄ hi₄ t ht => ?_⟩
      cases ht
      obtain ⟨hreplies, hrules⟩ := hx
      cases hreplies with
      | now t =>
        obtain ⟨hle, hyear⟩ := hrules
        refine ⟨hyear, (hlog.trans hr₂.log).trans hr₄.log, fun v hv => ?_, hr₄.clock⟩
        exact ((hpast v hv).trans hr₂.clock).trans hle
    refine hnow.bind fun t w₂ _ _ ⟨hyear, hlog₂, hpast₂, hclock₂⟩ => ?_
    refine Discipline.Gives.bind (.sync fun _ _ heq _ _ => heq) fun r w₃ hr₃ _ happly => ?_
    obtain ⟨next, outcome⟩ := r
    have hput : (ledgerDiscipline limits).Gives (fun _ _ => True)
        (call (.putLedger ⟨⟨t, request⟩, CasStore.etag cell, next⟩) id) w₃ := by
      intro w₄ hr₄ _
      refine ⟨⟨?_, (hclock₂.trans hr₃.clock).trans hr₄.clock⟩, fun _ _ _ _ _ _ _ _ => trivial⟩
      rw [hcell]
      -- What is written was computed from what was read, so it is allowed wherever that is current.
      refine basis_of_read ((hlog₂.trans hr₃.log).trans hr₄.log) ⟨hpast₂, hyear, outcome, ?_⟩
      rw [hcell, content_cell] at happly
      exact happly
    refine hput.bind fun saved w₄ _ _ _ => .ite (fun _ => ?_) fun _ => ih
    exact .pure fun _ _ _ => trivial

theorem ledgerDiscipline_guards : (ledgerDiscipline limits).Guards := by
  rintro p ⟨request⟩ w _
  exact gives_transactionLoop.forget

theorem ledgerDiscipline_sound {clock : Instant} {s : Site World Call Answer}
    (h : (machine steadyFourDigit (TransactionStarts limits)).Steps (launched clock) s) :
    (ledgerDiscipline limits).Sound s := by
  have hinv : LedgerInv limits (World.empty clock) :=
    ⟨⟨.nil, fun p hp => (List.not_mem_nil hp).elim⟩, fun v hv => (List.not_mem_nil hv).elim,
      fun p hp => (List.not_mem_nil hp).elim⟩
  have hstart : (ledgerDiscipline limits).Sound (launched clock) :=
    ⟨hinv, fun p hp => (List.not_mem_nil hp).elim⟩
  exact (hstart.steps ledgerDiscipline_guards h).1

/-- **Creation quotas survive pruning.** Over every interleaving of transactions on one ledger, with
a clock that does not go back and stays in the years 0000 to 9999, and a cooldown of two days at
most:

* in every UTC day at most `dailyGlobal` records are created, at most `dailyVisitor` for a visitor
  and at most `dailyIp` for an address, and two creations of a visitor are `creationCooldownMs`
  apart;
* until a day is pruned, its stored counters are these numbers.
-/
theorem creations_within_quotas {limits : Limits} {clock : Instant} {s : Site World Call Answer}
    (hcool : (limits.creationCooldownMs : Int) ≤ twoDays)
    (h : (machine steadyFourDigit (TransactionStarts limits)).Steps (launched clock) s) :
    Within limits (creations limits emptyLedger s.world.ledger.log)
    ∧ ∀ t : Instant, t.FourDigit → (∀ w ∈ s.world.ledger.log, ¬ prunes w.change.now (day t)) →
      Counts (counterOf s.world.sessionLedger (day t))
        (creations limits emptyLedger s.world.ledger.log) t := by
  have hbooked := booked_of_legal hcool (ledgerDiscipline_sound h).inv.orderly.legal
  exact ⟨hbooked.within, hbooked.counts⟩

/-! ## Two visitors, one after the other -/

/-- A reservation of a wallet sandbox. -/
def reservation (id : SessionId) (byte : UInt8) : Request :=
  .reserve ⟨id, List.Vector.replicate 32 byte, List.Vector.replicate 32 byte, .wallet, "sandbox"⟩

/-- A reservation of a guided sandbox. -/
def guidedReservation (id : SessionId) (byte : UInt8) : Request :=
  .reserve ⟨id, List.Vector.replicate 32 byte, List.Vector.replicate 32 byte, .guided, "sandbox"⟩

/-- One sandbox a day. -/
def onePerDay : Limits := { defaultLimits with dailyGlobal := 1 }

/-- Two visitors ask for a sandbox at one time. -/
def twoReservations (rules : Rules) (limits : Limits) (t : Instant) :
    List (Entry (machine rules (TransactionStarts limits)) Hint) :=
  [.start _ (.transaction (reservation 1 1)), .reply 0 .store, .reply 0 (.now t), .reply 0 .store,
    .start _ (.transaction (reservation 2 2)), .reply 1 .store, .reply 1 (.now t), .reply 1 .store]

/-- A clock that does not go back, checked. -/
def steadyLegal : (c : Call) → World → Answer c → World → Bool
  | .now, w, t, _ => w.clock.ms ≤ (t : Instant).ms
  | _, _, _, _ => true

theorem steady_of_legal (c : Call) (w : World) (x : Answer c) (w' : World)
    (h : steadyLegal c w x w' = true) : steady c w x w' := by
  cases c
  case now =>
    change decide (w.clock.ms ≤ Instant.ms x) = true at h
    exact (decide_eq_true_iff (p := w.clock.ms ≤ Instant.ms x)).mp h
  all_goals trivial

/-- A clock that does not go back and stays in four-digit years, checked. -/
def fourDigitLegal : (c : Call) → World → Answer c → World → Bool
  | .now, w, t, _ => w.clock.ms ≤ (t : Instant).ms && decide (t : Instant).FourDigit
  | _, _, _, _ => true

theorem steadyFourDigit_of_legal (c : Call) (w : World) (x : Answer c) (w' : World)
    (h : fourDigitLegal c w x w' = true) : steadyFourDigit c w x w' := by
  cases c
  case now =>
    change (decide (w.clock.ms ≤ Instant.ms x) && decide (Instant.FourDigit x)) = true at h
    simp only [Bool.and_eq_true, decide_eq_true_eq] at h
    exact h
  all_goals trivial

/-- 2026-09-18T12:00:00.000Z. -/
def noon : Instant := ⟨1_789_732_800_000, Instant.noon_valid⟩

/-- 2026-09-21T12:00:00.000Z. -/
def threeDaysLater : Instant := ⟨1_789_992_000_000, by decide⟩

/-- The first visitor asks for a guided sandbox at once, and again three days later. -/
def guidedReservations (rules : Rules) (limits : Limits) (t t' : Instant) :
    List (Entry (machine rules (TransactionStarts limits)) Hint) :=
  [.start _ (.transaction (guidedReservation 3 1)), .reply 2 .store, .reply 2 (.now t),
    .start _ (.transaction (guidedReservation 4 1)), .reply 3 .store, .reply 3 (.now t'),
    .reply 3 .store]

/-- Two visitors of one day in 2026. The first asks again within the cooldown, in vain, and three
days later, when the transaction deletes the counter of that day and starts one for its own. -/
theorem creations_within_quotas_sample : ∃ s,
    (machine steadyFourDigit (TransactionStarts defaultLimits)).Steps (launched noon) s
    ∧ Within defaultLimits (creations defaultLimits emptyLedger s.world.ledger.log)
    ∧ createdOn (creations defaultLimits emptyLedger s.world.ledger.log) noon (fun _ => true) = 2
    ∧ (counterOf s.world.sessionLedger (day noon)).global = 0
    ∧ (counterOf s.world.sessionLedger (day threeDaysLater)).global = 1 := by
  have hplay : ((player steadyFourDigit (TransactionStarts defaultLimits) fourDigitLegal
      steadyFourDigit_of_legal).play (launched noon)
      (twoReservations steadyFourDigit defaultLimits noon
        ++ guidedReservations steadyFourDigit defaultLimits noon threeDaysLater)).any (fun s =>
        createdOn (creations defaultLimits emptyLedger s.world.ledger.log) noon (fun _ => true) = 2
          && createdOn (creations defaultLimits emptyLedger s.world.ledger.log) threeDaysLater
            (fun _ => true) = 1
          && (counterOf s.world.sessionLedger (day noon)).global = 0
          && s.world.ledger.log.all fun w => w.change.now.ms ≤ threeDaysLater.ms) = true := by
    decide +kernel
  obtain ⟨s, hs, hcount⟩ := (Option.any_eq_true _ _).mp hplay
  simp only [Bool.and_eq_true, decide_eq_true_eq, List.all_eq_true] at hcount
  obtain ⟨⟨⟨hnoon, hlater⟩, hpruned⟩, htimes⟩ := hcount
  have hsteps := Player.steps_of_play hs
  obtain ⟨hwithin, hcounts⟩ := creations_within_quotas (by decide) hsteps
  have hlast := (hcounts threeDaysLater (by decide) fun w hw =>
    not_prunes (by decide) (htimes w hw)).global
  exact ⟨s, hsteps, hwithin, hnoon, hpruned, hlast.trans hlater⟩

/-- 10000-01-01T00:00:00.000Z. -/
def year10000 : Instant := ⟨253_402_300_800_000, by decide⟩

/-- On the first day of the year 10000 the second reservation deletes the counter of the first. -/
theorem quota_lost_in_year_10000 : ∃ limits clock s t,
    (limits.creationCooldownMs : Int) ≤ twoDays
    ∧ (machine steady (TransactionStarts limits)).Steps (launched clock) s
    ∧ limits.dailyGlobal
      < createdOn (creations limits emptyLedger s.world.ledger.log) t fun _ => true := by
  have hplay : ((player steady (TransactionStarts onePerDay) steadyLegal steady_of_legal).play
      (launched year10000) (twoReservations steady onePerDay year10000)).any (fun s =>
        1 < createdOn (creations onePerDay emptyLedger s.world.ledger.log) year10000 fun _ => true)
      = true := by
    decide +kernel
  obtain ⟨s, hs, hcount⟩ := (Option.any_eq_true _ _).mp hplay
  exact ⟨onePerDay, year10000, s, year10000, by decide, Player.steps_of_play hs,
    of_decide_eq_true hcount⟩

end Broker

end DividendX
