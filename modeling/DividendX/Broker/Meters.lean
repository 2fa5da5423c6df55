import DividendX.Broker.Repository
import DividendX.Devnet.Days
import DividendX.Lib.History

/-!
# The life of a meter

A meter is created once, charged while it is open, and closed for good. Its totals are read off the
writes of its history: the number of charges and the sum of what they were for, both within the
limits, and so many charges at most in one UTC minute.

The window of a minute is compared as text. Moments of one minute have one text, so a new window is
never opened within a minute (`minute_congr`); that two minutes may share a text only makes the
meter stricter.
-/

namespace DividendX

namespace Broker

open Devnet (Instant Digest)
open Result History

/-- The writes of a meter. -/
abbrev MeterLog : Type := List (Write MeterChange SessionMeter)

/-- The time of a charge. -/
def MeterChange.chargedAt : MeterChange → Option Instant
  | .charge now _ => some now
  | .create | .close => none

/-- What a charge was for. -/
def MeterChange.mutations : MeterChange → Nat
  | .charge _ mutationCount => mutationCount
  | .create | .close => 0

/-- The charges of a history that pass a test. -/
def charges (log : MeterLog) (test : Instant → Bool) : Nat :=
  log.countP fun w => w.change.chargedAt.any test

/-- What the charges of a history were for. -/
def mutations (log : MeterLog) : Nat := (log.map fun w => w.change.mutations).sum

/-- A meter of a record with a runtime. -/
structure BoundTo (meter : SessionMeter) (record : SessionRecord) (runtimeId : String) : Prop where
  id : meter.id = record.id
  visitorHash : meter.visitorHash = record.visitorHash
  kind : meter.kind = record.kind
  providerName : meter.providerName = record.providerName
  runtimeId : meter.runtimeId = runtimeId
  expiresAt : meter.expiresAt = record.expiresAt

/-- Two values of one meter. -/
structure SameBinding (meter meter' : SessionMeter) : Prop where
  id : meter'.id = meter.id
  visitorHash : meter'.visitorHash = meter.visitorHash
  kind : meter'.kind = meter.kind
  providerName : meter'.providerName = meter.providerName
  runtimeId : meter'.runtimeId = meter.runtimeId
  expiresAt : meter'.expiresAt = meter.expiresAt

/-- Writes of a meter as the repository makes them. `timed` stands for a clock that does not go
back. -/
def MeterAllowed (limits : Limits) (timed : Prop) (id : SessionId) (log : MeterLog)
    (w : Write MeterChange SessionMeter) : Prop :=
  match w.change with
  | .create =>
    log = [] ∧ ∃ record runtimeId now, record.id = id ∧ w.value = newMeter record runtimeId now
  | .charge now mutationCount =>
    (timed → ∀ v ∈ log, ∀ t, v.change.chargedAt = some t → t.ms ≤ now.ms)
      ∧ ∃ v, log.getLast? = some v ∧ v.value.opened = true
        ∧ chargeMeter limits v.value now mutationCount = .ok w.value
  | .close => ∃ v, log.getLast? = some v ∧ w.value = { v.value with opened := false }

variable {limits : Limits} {timed : Prop} {id : SessionId} {log : MeterLog}
  {w : Write MeterChange SessionMeter} {meter meter' : SessionMeter}
  {now : Instant} {mutationCount : Nat}

/-- Moments of one minute have one text. -/
theorem minute_congr {t t' : Instant} (h : t.minuteNumber = t'.minuteNumber) :
    minute t = minute t' := by
  simp only [minute]
  rw [Instant.take_isoChars, Instant.take_isoChars, h]

theorem chargeMeter_eq_ok (h : chargeMeter limits meter now mutationCount = .ok meter') :
    meter.forwardedTotal < limits.requestsTotal
      ∧ (if meter.minuteWindow = minute now then meter.minuteCount else 0)
        < limits.requestsPerMinute
      ∧ meter.mutationTotal + mutationCount ≤ limits.mutationsTotal
      ∧ meter' = { meter with
          minuteWindow := minute now, forwardedTotal := meter.forwardedTotal + 1
          minuteCount := (if meter.minuteWindow = minute now then meter.minuteCount else 0) + 1
          mutationTotal := meter.mutationTotal + mutationCount } := by
  simp only [chargeMeter, bind_eq_ok, require_eq_ok, pure_eq_ok, ite_not] at h
  obtain ⟨-, -, -, hroom, rfl⟩ := h
  simp only [not_or] at hroom
  exact ⟨by omega, by omega, by omega, rfl⟩

/-- What holds of a meter after its writes. -/
structure Metered (limits : Limits) (log : MeterLog) (meter : SessionMeter) : Prop where
  forwarded : meter.forwardedTotal = charges log fun _ => true
  forwarded_le : meter.forwardedTotal ≤ limits.requestsTotal
  mutation : meter.mutationTotal = mutations log
  mutation_le : meter.mutationTotal ≤ limits.mutationsTotal

/-- Charges of one minute. -/
def chargesIn (log : MeterLog) (minuteNumber : Int) : Nat :=
  charges log fun t => t.minuteNumber = minuteNumber

/-- What the window of a meter says of its charges: a minute that is not over has had no more than
counted. -/
structure Windowed (limits : Limits) (log : MeterLog) (meter : SessionMeter) : Prop where
  within : ∀ k, chargesIn log k ≤ limits.requestsPerMinute
  window : ∀ t : Instant, (∀ v ∈ log, ∀ t', v.change.chargedAt = some t' → t'.ms ≤ t.ms) →
    chargesIn log t.minuteNumber ≤ if meter.minuteWindow = minute t then meter.minuteCount else 0

theorem charges_append (log : MeterLog) (w : Write MeterChange SessionMeter)
    (test : Instant → Bool) :
    charges (log ++ [w]) test = charges log test +
      if w.change.chargedAt.any test then 1 else 0 := by
  simp [charges, List.countP_append, List.countP_singleton]

theorem mutations_append (log : MeterLog) (w : Write MeterChange SessionMeter) :
    mutations (log ++ [w]) = mutations log + w.change.mutations := by
  simp [mutations]

/-- A minute all charges were before has had none. -/
theorem chargesIn_eq_zero {k : Int}
    (h : ∀ v ∈ log, ∀ t, v.change.chargedAt = some t → t.minuteNumber < k) :
    chargesIn log k = 0 := by
  refine List.countP_eq_zero.mpr fun v hv => ?_
  cases hcharged : v.change.chargedAt with
  | none => simp
  | some t =>
    have hlt := h v hv t hcharged
    simp only [Option.any_some, decide_eq_true_eq]
    omega

/-- A charge counts in the window of its minute. -/
theorem Windowed.charge (h : Windowed limits log meter)
    (htimed : ∀ v ∈ log, ∀ t, v.change.chargedAt = some t → t.ms ≤ now.ms)
    (hcharge : chargeMeter limits meter now mutationCount = .ok meter')
    (hw : w.change = .charge now mutationCount) : Windowed limits (log ++ [w]) meter' := by
  obtain ⟨-, hroom, -, rfl⟩ := chargeMeter_eq_ok hcharge
  -- No charge so far is later than this one, so the window is that of its minute or is past.
  have hnow := h.window now htimed
  have happend : ∀ k, chargesIn (log ++ [w]) k = chargesIn log k +
      if now.minuteNumber = k then 1 else 0 := by
    intro k
    rw [chargesIn, charges_append, hw]
    simp [MeterChange.chargedAt, chargesIn]
  refine ⟨fun k => ?_, fun t ht => ?_⟩
  · rw [happend]
    by_cases hk : now.minuteNumber = k
    · rw [if_pos hk, ← hk]
      omega
    · rw [if_neg hk]
      exact h.within k
  · have hle : now.ms ≤ t.ms := ht w (by simp) now (by rw [hw]; rfl)
    have hmono : now.minuteNumber ≤ t.minuteNumber := Int.ediv_le_ediv (by omega) hle
    rw [happend]
    by_cases hk : now.minuteNumber = t.minuteNumber
    · rw [if_pos hk, if_pos (minute_congr hk), ← hk]
      simp only
      omega
    · -- every charge was in an earlier minute
      have hzero : chargesIn log t.minuteNumber = 0 := by
        refine chargesIn_eq_zero fun v hv t' ht' => ?_
        have hle' : t'.minuteNumber ≤ now.minuteNumber :=
          Int.ediv_le_ediv (by omega) (htimed v hv t' ht')
        omega
      rw [if_neg hk, hzero]
      exact Nat.zero_le _

/-- A write that is no charge leaves the charges. -/
theorem chargesIn_append (hw : w.change.chargedAt = none) (k : Int) :
    chargesIn (log ++ [w]) k = chargesIn log k := by
  rw [chargesIn, charges_append, hw]
  rfl

/-- A write that charges nothing leaves the window. -/
theorem Windowed.close (h : Windowed limits log meter) (hw : w.change.chargedAt = none)
    (hwindow : meter'.minuteWindow = meter.minuteWindow)
    (hcount : meter'.minuteCount = meter.minuteCount) :
    Windowed limits (log ++ [w]) meter' := by
  refine ⟨fun k => ?_, fun t ht => ?_⟩
  · rw [chargesIn_append hw]
    exact h.within k
  · rw [chargesIn_append hw, hwindow, hcount]
    exact h.window t fun v hv => ht v (List.mem_append_left _ hv)

/-- A charge adds up. -/
theorem Metered.charge (h : Metered limits log meter)
    (hcharge : chargeMeter limits meter now mutationCount = .ok meter')
    (hw : w.change = .charge now mutationCount) : Metered limits (log ++ [w]) meter' := by
  obtain ⟨hforwarded, -, hmutation, rfl⟩ := chargeMeter_eq_ok hcharge
  refine ⟨?_, by simp only; omega, ?_, hmutation⟩
  · rw [charges_append, ← h.forwarded, hw]
    rfl
  · rw [mutations_append, ← h.mutation, hw]
    rfl

/-- Closing adds nothing. -/
theorem Metered.close (h : Metered limits log meter) (hw : w.change = .close) :
    Metered limits (log ++ [w]) { meter with opened := false } := by
  refine ⟨?_, h.forwarded_le, ?_, h.mutation_le⟩
  · rw [charges_append, hw]
    exact h.forwarded
  · rw [mutations_append, hw]
    exact h.mutation

theorem SameBinding.refl (meter : SessionMeter) : SameBinding meter meter :=
  ⟨rfl, rfl, rfl, rfl, rfl, rfl⟩

theorem SameBinding.trans {meter'' : SessionMeter} (h : SameBinding meter meter')
    (h' : SameBinding meter' meter'') : SameBinding meter meter'' :=
  ⟨h'.id.trans h.id, h'.visitorHash.trans h.visitorHash, h'.kind.trans h.kind,
    h'.providerName.trans h.providerName, h'.runtimeId.trans h.runtimeId,
    h'.expiresAt.trans h.expiresAt⟩

/-- What holds of the writes of a meter. -/
structure MeterHistory (limits : Limits) (timed : Prop) (id : SessionId)
    (log : MeterLog) : Prop where
  keyed : ∀ v ∈ log, v.value.id = id
  bound : ∀ u, log.head? = some u → ∀ v ∈ log, SameBinding u.value v.value
  metered : ∀ v, log.getLast? = some v → Metered limits log v.value
  windowed : timed → ∀ v, log.getLast? = some v → Windowed limits log v.value
  closed : ∀ l v r, log = l ++ v :: r → v.value.opened = false →
    ∀ u ∈ r, u.value.opened = false ∧ u.change.chargedAt = none

/-- The next write keeps the binding, and is no charge after the meter was closed. -/
theorem MeterAllowed.after {v : Write MeterChange SessionMeter}
    (hw : MeterAllowed limits timed id log w)
    (hlast : log.getLast? = some v) : SameBinding v.value w.value
      ∧ (v.value.opened = false → w.value.opened = false ∧ w.change.chargedAt = none) := by
  rw [MeterAllowed] at hw
  split at hw
  · rw [hw.1] at hlast
    cases hlast
  · obtain ⟨-, v', hlast', hopen, hcharge⟩ := hw
    rw [hlast] at hlast'
    cases hlast'
    obtain ⟨-, -, -, heq⟩ := chargeMeter_eq_ok hcharge
    rw [heq]
    refine ⟨⟨rfl, rfl, rfl, rfl, rfl, rfl⟩, fun hclosed => ?_⟩
    rw [hopen] at hclosed
    cases hclosed
  · rename_i hchange
    obtain ⟨v', hlast', heq⟩ := hw
    rw [hlast] at hlast'
    cases hlast'
    rw [heq, hchange]
    exact ⟨⟨rfl, rfl, rfl, rfl, rfl, rfl⟩, fun _ => ⟨rfl, rfl⟩⟩

/-- A meter is created once. -/
theorem meterHistory_first (hw : MeterAllowed limits timed id [] w) :
    MeterHistory limits timed id [w] := by
  rw [MeterAllowed] at hw
  split at hw
  · rename_i hchange
    obtain ⟨-, record, runtimeId, now, hid, hvalue⟩ := hw
    have hno : w.change.chargedAt = none := by
      rw [hchange]
      rfl
    refine ⟨fun v hv => ?_, fun u hu v hv => ?_, fun v hv => ?_, fun _ v hv => ?_,
      fun l v r heq _ u hu => ?_⟩
    · rw [List.mem_singleton.mp hv, hvalue]
      exact hid
    · cases hu
      rw [List.mem_singleton.mp hv]
      exact .refl _
    · rw [List.getLast?_singleton] at hv
      cases hv
      rw [hvalue]
      refine ⟨?_, Nat.zero_le _, ?_, Nat.zero_le _⟩
      · simp [charges, hno, newMeter]
      · simp [mutations, hchange, MeterChange.mutations, newMeter]
    · refine ⟨fun k => ?_, fun t _ => ?_⟩
      · simp [chargesIn, charges, hno]
      · simp [chargesIn, charges, hno]
    · cases l with
      | nil =>
        cases heq
        cases hu
      | cons x l => simp at heq
  · obtain ⟨-, v, hlast, -⟩ := hw
    cases hlast
  · obtain ⟨v, hlast, -⟩ := hw
    cases hlast

/-- **One more write of a meter.** -/
theorem MeterHistory.step {v : Write MeterChange SessionMeter}
    (h : MeterHistory limits timed id log)
    (hlast : log.getLast? = some v) (hw : MeterAllowed limits timed id log w) :
    MeterHistory limits timed id (log ++ [w]) := by
  have hmem : v ∈ log := List.mem_of_getLast? hlast
  obtain ⟨hbinding, hclosed⟩ := hw.after hlast
  refine ⟨fun u hu => ?_, fun u hu x hx => ?_, fun u hu => ?_, fun ht u hu => ?_,
    fun l x r heq hx u hu => ?_⟩
  · rcases List.mem_append.mp hu with hu | hu
    · exact h.keyed u hu
    · rw [List.mem_singleton.mp hu]
      exact hbinding.id.trans (h.keyed v hmem)
  · -- The first write stays the first.
    have hu' : log.head? = some u := by
      cases log with
      | nil => cases hlast
      | cons y log => exact hu
    rcases List.mem_append.mp hx with hx | hx
    · exact h.bound u hu' x hx
    · rw [List.mem_singleton.mp hx]
      exact (h.bound u hu' v hmem).trans hbinding
  · rw [List.getLast?_append, List.getLast?_singleton, Option.some_or] at hu
    cases hu
    -- A creation is excluded, since there was a write before; a charge adds to the totals and a
    -- close leaves them.
    have hold := h.metered v hlast
    rw [MeterAllowed] at hw
    split at hw
    · rw [hw.1] at hlast
      cases hlast
    · rename_i hchange
      obtain ⟨-, v', hlast', -, hcharge⟩ := hw
      rw [hlast] at hlast'
      cases hlast'
      exact hold.charge hcharge hchange
    · rename_i hchange
      obtain ⟨v', hlast', heq⟩ := hw
      rw [hlast] at hlast'
      cases hlast'
      rw [heq]
      exact hold.close hchange
  · rw [List.getLast?_append, List.getLast?_singleton, Option.some_or] at hu
    cases hu
    have hold := h.windowed ht v hlast
    rw [MeterAllowed] at hw
    split at hw
    · rw [hw.1] at hlast
      cases hlast
    · rename_i hchange
      obtain ⟨htimed, v', hlast', -, hcharge⟩ := hw
      rw [hlast] at hlast'
      cases hlast'
      exact hold.charge (htimed ht) hcharge hchange
    · rename_i hchange
      obtain ⟨v', hlast', heq⟩ := hw
      rw [hlast] at hlast'
      cases hlast'
      exact hold.close (by rw [hchange]; rfl) (by rw [heq]) (by rw [heq])
  · -- the last write before is closed, or is the closed one itself
    rcases List.eq_nil_or_concat r with rfl | ⟨r', y, rfl⟩
    · cases hu
    · rw [List.concat_eq_append, ← List.cons_append, ← List.append_assoc] at heq
      obtain ⟨rfl, hy⟩ := List.append_inj' heq rfl
      cases hy
      rw [List.concat_eq_append] at hu
      rcases List.mem_append.mp hu with hu | hu
      · exact h.closed l x r' rfl hx u hu
      · rw [List.mem_singleton.mp hu]
        apply hclosed
        rw [List.getLast?_append, List.getLast?_cons, Option.some_or, Option.some.injEq] at hlast
        cases hr : r'.getLast? with
        | none =>
          rw [hr, Option.getD_none] at hlast
          rw [← hlast]
          exact hx
        | some z =>
          rw [hr, Option.getD_some] at hlast
          rw [← hlast]
          exact (h.closed l x r' rfl hx z (List.mem_of_getLast? hr)).1

/-- **Every legal history of a meter** adds up. -/
theorem meterHistory_of_legal (h : Legal (MeterAllowed limits timed id) log) :
    MeterHistory limits timed id log := by
  induction h with
  | nil => exact ⟨by simp, by simp, by simp, by simp, by simp⟩
  | @snoc log w _ hw ih =>
    cases hlast : log.getLast? with
    | none =>
      rw [List.getLast?_eq_none_iff.mp hlast] at hw ⊢
      exact meterHistory_first hw
    | some v => exact ih.step hlast hw

end Broker

end DividendX
