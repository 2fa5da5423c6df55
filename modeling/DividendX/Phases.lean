import DividendX.Finalization

/-!
# Phases

A series opens, is sealed, and is either opened again or final for good. `Phased` ties the seal to
the phase: an open series has none, a sealed or final one carries a copy of the journal it was
taken of. Everything else is a matter of which step changes what.
-/

namespace DividendX

/-! ## The seal -/

/-- The `sealed_*` fields of a series. -/
structure Seal where
  journalVersion : UInt64
  journalHash : Bytes32
  coverageDigest : Bytes32
  eventCount : UInt8
  currentMultiplierBits : UInt64
  newMultiplierBits : UInt64
  newMultiplierEffectiveTimestamp : Int64
  activeMultiplierBits : UInt64
  controlsFingerprint : Bytes32
  deriving DecidableEq

/-- All zero. -/
def Seal.cleared : Seal := ⟨0, zero32, zero32, 0, 0, 0, 0, 0, zero32⟩

def Series.sealedFields (s : Series) : Seal :=
  { journalVersion := s.sealedJournalVersion
    journalHash := s.sealedJournalHash
    coverageDigest := s.sealedCoverageDigest
    eventCount := s.sealedEventCount
    currentMultiplierBits := s.sealedCurrentMultiplierBits
    newMultiplierBits := s.sealedNewMultiplierBits
    newMultiplierEffectiveTimestamp := s.sealedNewMultiplierEffectiveTimestamp
    activeMultiplierBits := s.sealedActiveMultiplierBits
    controlsFingerprint := s.sealedControlsFingerprint }

/-- The part of the journal a seal copies. -/
def Series.journal (s : Series) : UInt64 × Bytes32 × UInt8 :=
  (s.journalVersion, s.journalHash, s.eventCount)

/-- What a seal says about the journal. -/
def Seal.journal (d : Seal) : UInt64 × Bytes32 × UInt8 :=
  (d.journalVersion, d.journalHash, d.eventCount)

/-- A series without what redemption counts. -/
def Series.terms (s : Series) : Series :=
  { s with
    ptRedeemedNominal := 0
    drRedeemedNominal := 0
    ptPaid := 0
    drPaid := 0
    stateVersion := 0 }

theorem Series.phase_terms (s : Series) : s.terms.phase = s.phase := rfl

/-- The phases a step may lead to. -/
inductive PhaseStep : SeriesPhase → SeriesPhase → Prop
  | stay (p : SeriesPhase) : PhaseStep p p
  | sealed : PhaseStep .open .sealing
  | aborted : PhaseStep .sealing .open
  | completed : PhaseStep .sealing .finalized

/-- The seal of a series and its accumulator against its phase. -/
structure Phased (k : Pubkey) (b : Books) : Prop where
  cleared : b.series.phase = .open →
    b.series.sealedFields = .cleared ∧ b.accumulator = ⟨k, 0, [1], [1]⟩
  current : b.series.phase ≠ .open → b.series.sealedFields.journal = b.series.journal
  owner : b.accumulator.series = k

namespace Books.Step

variable {host : Host} {k : Pubkey} {b b' : Books} {c : Change}

/-- **What a step does to the phase.** -/
theorem phase (h : b.Step host k c b') : PhaseStep b.series.phase b'.series.phase ∧
    (b.series.phase = .open → b'.series.phase = .sealing → c = .begin) := by
  have hstay : ∀ {p : SeriesPhase} {P : Prop}, p = .open → p = .sealing → P := by
    intro p P hopen hsealing
    cases hopen.symm.trans hsealing
  cases h with
  | record phase _ _ _ _ _ counted _ _ =>
    obtain ⟨_, _, _, _, _, -, -, -, -, -, rfl⟩ := updateCounters_eq_ok.mp counted
    exact ⟨.stay _, hstay⟩
  | begin phase _ _ _ =>
    rw [phase]
    exact ⟨.sealed, fun _ _ => rfl⟩
  | complete phase _ _ _ _ _ =>
    rw [phase]
    exact ⟨.completed, fun hopen => by cases hopen⟩
  | abort phase _ =>
    rw [phase]
    exact ⟨.aborted, fun hopen => by cases hopen⟩
  | @redeem side _ _ _ _ _ _ _ _ _ _ _ _ _ _ _ _ =>
    cases side with
    | pt => exact ⟨.stay _, hstay⟩
    | dr => exact ⟨.stay _, hstay⟩
  | _ => exact ⟨.stay _, hstay⟩

/-- Only an open series records anything. -/
theorem journal_kept (h : b.Step host k c b') (hp : b.series.phase ≠ .open) :
    b'.heads = b.heads ∧ b'.revisions = b.revisions := by
  cases h with
  | record phase _ _ _ _ _ _ _ _ => exact absurd phase hp
  | _ => exact ⟨rfl, rfl⟩

/-- **A final series stays as it is**, up to what redemption counts. -/
theorem final_kept (h : b.Step host k c b') (hfinal : b.series.phase = .finalized) :
    b'.series.terms = b.series.terms ∧ b'.heads = b.heads ∧ b'.revisions = b.revisions ∧
      b'.accumulator = b.accumulator := by
  have hother : ∀ {p : SeriesPhase} {P : Prop}, p ≠ .finalized → b.series.phase = p → P := by
    intro p P hne hp
    exact absurd (hp.symm.trans hfinal) hne
  cases h with
  | deposit _ phase _ _ _ _ _ _ _ => exact hother (by decide) phase
  | recombine _ phase _ _ _ _ _ => exact absurd hfinal phase
  | record phase _ _ _ _ _ _ _ _ => exact hother (by decide) phase
  | begin phase _ _ _ => exact hother (by decide) phase
  | accumulate phase _ _ _ _ _ _ _ => exact hother (by decide) phase
  | complete phase _ _ _ _ _ => exact hother (by decide) phase
  | abort phase _ => exact hother (by decide) phase
  | @redeem side _ _ _ _ _ _ _ _ _ _ _ _ _ _ _ _ =>
    cases side with
    | pt => exact ⟨rfl, rfl, rfl, rfl⟩
    | dr => exact ⟨rfl, rfl, rfl, rfl⟩
  | _ => exact ⟨rfl, rfl, rfl, rfl⟩

/-- Nothing but a deposit adds to the backing. -/
theorem backing_le (h : b.Step host k c b') (hc : ∀ amount, c ≠ .deposit amount) :
    b'.series.nominalBacking ≤ b.series.nominalBacking := by
  cases h with
  | @deposit amount _ _ _ _ _ _ _ _ _ _ _ => exact absurd rfl (hc amount)
  | recombine _ _ _ hn _ _ _ =>
    rw [UInt64.le_iff_toNat_le, hn]
    exact Nat.le_add_right _ _
  | record _ _ _ _ _ _ counted _ _ =>
    obtain ⟨_, _, _, _, _, -, -, -, -, -, rfl⟩ := updateCounters_eq_ok.mp counted
    exact UInt64.le_refl _
  | @redeem side _ _ _ _ _ _ _ _ _ _ _ _ _ _ _ _ =>
    cases side with
    | pt => exact UInt64.le_refl _
    | dr => exact UInt64.le_refl _
  | _ => exact UInt64.le_refl _

end Books.Step

namespace Phased

variable {host : Host} {k : Pubkey} {b b' : Books} {c : Change}

theorem fresh (h : b.Fresh host k) : Phased k b := by
  obtain ⟨assetKey, asset, year, start, maturity, mintKey, profile, hs⟩ := h.series
  refine ⟨fun _ => ⟨?_, h.accumulator⟩, fun hp => absurd ?_ hp, ?_⟩
  · rw [hs]
    rfl
  · rw [hs]
    rfl
  · rw [h.accumulator]

/-- A step that leaves phase, seal, journal and accumulator alone. -/
theorem congr (h : Phased k b) (hphase : b'.series.phase = b.series.phase)
    (hseal : b'.series.sealedFields = b.series.sealedFields)
    (hjournal : b'.series.journal = b.series.journal)
    (hacc : b'.accumulator = b.accumulator) : Phased k b' := by
  refine ⟨fun hp => ?_, fun hp => ?_, ?_⟩
  · rw [hphase] at hp
    rw [hacc, hseal]
    exact h.cleared hp
  · rw [hphase] at hp
    rw [hseal, hjournal]
    exact h.current hp
  · rw [hacc]
    exact h.owner

/-- **One step** keeps the seal in line with the phase. -/
theorem step (h : Phased k b) (hstep : b.Step host k c b') : Phased k b' := by
  have hnot : ∀ {p : SeriesPhase}, b.series.phase = p → p ≠ .open → b.series.phase ≠ .open := by
    intro p hp hne hopen
    exact hne (hp.symm.trans hopen)
  cases hstep with
  | record phase _ _ _ _ _ counted _ _ =>
    -- an open series has no seal to fall out of step with
    obtain ⟨_, _, _, _, _, -, -, -, -, -, rfl⟩ := updateCounters_eq_ok.mp counted
    exact ⟨fun _ => h.cleared phase, fun hp => absurd phase hp, h.owner⟩
  | begin _ _ _ _ => exact ⟨fun hp => (by cases hp), fun _ => rfl, h.owner⟩
  | accumulate phase _ _ _ _ _ _ _ =>
    exact ⟨fun hp => (by cases phase.symm.trans hp), h.current, h.owner⟩
  | complete phase _ _ _ _ _ =>
    have hcurrent := h.current (hnot phase (by decide))
    exact ⟨fun hp => (by cases hp), fun _ => hcurrent, h.owner⟩
  | abort _ _ =>
    refine ⟨fun _ => ⟨rfl, ?_⟩, fun hp => absurd rfl hp, h.owner⟩
    change b.accumulator.reset = _
    rw [Accumulator.reset, h.owner]
  | @redeem side _ _ _ _ _ _ _ _ _ _ _ _ _ _ _ _ =>
    cases side with
    | pt => exact h.congr rfl rfl rfl rfl
    | dr => exact h.congr rfl rfl rfl rfl
  | _ => exact h.congr rfl rfl rfl rfl

end Phased

namespace World

variable {host : Host} {w₀ w w' : World} {tr : List Action} {k : Pubkey} {b : Books} {s : Series}

theorem History.phased (h : History host w₀ tr w) (hb : w.books k = some b) : Phased k b := by
  refine h.rec_books hb (P := fun _ _ b => Phased k b) ?_ ?_
  · intro _ _ _ _ b _ _ _ hfresh _ _
    exact Phased.fresh hfresh
  · intro _ _ _ _ b c b' _ _ hp _ _ hstep _
    exact hp.step hstep

/-- The accounts of the journal of a series. -/
structure SameJournal (w w' : World) (k : Pubkey) : Prop where
  heads : ∀ id, w'.heads (.event k id) = w.heads (.event k id)
  revisions : ∀ id n, w'.revisions (.revision (.event k id) n) = w.revisions
    (.revision (.event k id) n)

theorem sameJournal_of_books {b' : Books} (hb : w.books k = some b) (hb' : w'.books k = some b')
    (hheads : b'.heads = b.heads) (hrevisions : b'.revisions = b.revisions) :
    SameJournal w w' k := by
  refine ⟨fun id => ?_, fun id n => ?_⟩
  · rw [← books_heads hb, ← books_heads hb', hheads]
  · rw [← books_revisions hb, ← books_revisions hb', hrevisions]

/-- A deposit is accepted by an open series before its year starts. -/
theorem deposit_early {acc : PairAccounts} {amount : UInt64} {guard : Guard}
    (hx : deposit host w acc amount guard = .ok w') (hs : w.series acc.series = some s) :
    s.phase = .open ∧ w.clock.unixTimestamp < s.startTimestamp := by
  obtain ⟨L, hL, hp, -⟩ := deposit_eq_ok.mp hx
  cases hs.symm.trans hL.series
  exact ⟨hp.phase, hp.early⟩

/-- **One action** and the phase of a series. -/
theorem act_phase (hl : w.Linked) (hs : w.series k = some s) {a : Action}
    (ha : w.act host a = some w') : ∃ s', w'.series k = some s' ∧ PhaseStep s.phase s'.phase ∧
      (s.phase = .open → s'.phase = .sealing →
        s.maturityTimestamp ≤ w.clock.unixTimestamp ∧ s.unresolvedCount = 0) ∧
      (s.phase = .sealing → SameJournal w w' k) := by
  obtain ⟨b, hb, rfl⟩ := hl.exists_books hs
  obtain ⟨c, b', hb', hstep, hlabels⟩ := act_books hl ha hb
  obtain ⟨hphase, hsealed⟩ := hstep.phase
  refine ⟨b'.series, books_series hb', hphase, fun hopen hsealing => ?_, fun hsealing => ?_⟩
  · obtain rfl := hsealed hopen hsealing
    obtain ⟨acc, version, hash, coverage, rfl, rfl⟩ := hlabels.names
    have hx := Result.toOption_eq_some.mp ha
    obtain ⟨L, profile, hL, hp, -⟩ := beginFinalization_eq_ok.mp hx
    have hsame := Option.some.inj (hs.symm.trans hL.loadedSeries)
    rw [hsame]
    exact ⟨hp.mature, hp.resolved⟩
  · obtain ⟨hheads, hrevisions⟩ := hstep.journal_kept (by rw [hsealing]; decide)
    exact sameJournal_of_books hb hb' hheads hrevisions

/-- **A final series never changes**, up to what redemption counts. -/
theorem frozen_of_run (hl : w.Linked) (hs : w.series k = some s) (hfinal : s.phase = .finalized)
    (hrun : Run (act host) w tr w') : ∃ s', w'.series k = some s' ∧ s'.terms = s.terms ∧
      SameJournal w w' k ∧ w'.accumulators (.accumulator k) = w.accumulators (.accumulator k) := by
  obtain ⟨b, hb, rfl⟩ := hl.exists_books hs
  obtain ⟨b', hb'⟩ := books_of_run hl hb hrun
  have hkept := rec_books_from hl hb hrun hb' (P := fun _ b' => b'.series.terms = b.series.terms ∧
    b'.heads = b.heads ∧ b'.revisions = b.revisions ∧ b'.accumulator = b.accumulator)
    ⟨rfl, rfl, rfl, rfl⟩ ?_
  · obtain ⟨hterms, hheads, hrevisions, hacc⟩ := hkept
    refine ⟨b'.series, books_series hb', hterms, sameJournal_of_books hb hb' hheads hrevisions, ?_⟩
    rw [books_accumulator hb, books_accumulator hb', hacc]
  · rintro _ _ b₁ c b₂ ⟨hterms, hheads, hrevisions, hacc⟩ hstep -
    have hphase : b₁.series.phase = .finalized := by
      rw [← Series.phase_terms, hterms, Series.phase_terms, hfinal]
    obtain ⟨hterms', hheads', hrevisions', hacc'⟩ := hstep.final_kept hphase
    exact ⟨hterms'.trans hterms, hheads'.trans hheads, hrevisions'.trans hrevisions,
      hacc'.trans hacc⟩

/-- **From its start on the backing of a series only shrinks.** -/
theorem backing_of_run (hl : w.Linked) (hs : w.series k = some s)
    (hlate : s.startTimestamp ≤ w.clock.unixTimestamp) (hrun : Run (act host) w tr w') :
    ∃ s', w'.series k = some s' ∧ s'.nominalBacking ≤ s.nominalBacking := by
  have hmain := hrun.invariant (P := fun w' => w'.Linked ∧
    w.clock.unixTimestamp ≤ w'.clock.unixTimestamp ∧ ∃ s', w'.series k = some s' ∧
      s'.startTimestamp = s.startTimestamp ∧ s'.nominalBacking ≤ s.nominalBacking)
    ⟨hl, Int64.le_refl _, s, hs, rfl, UInt64.le_refl _⟩ ?_
  · obtain ⟨-, -, s', hs', -, hle⟩ := hmain
    exact ⟨s', hs', hle⟩
  · rintro t a u ⟨hlt, hclock, s₁, hs₁, hstart, hle⟩ ha
    obtain ⟨b, hb, rfl⟩ := hlt.exists_books hs₁
    obtain ⟨c, b', hb', hstep, hlabels⟩ := act_books hlt ha hb
    have hstart' : b'.series.startTimestamp = b.series.startTimestamp :=
      congrArg Identity.startTimestamp hstep.identity
    refine ⟨hlt.act ha, Int64.le_trans hclock (act_clock ha).2, b'.series, books_series hb',
      hstart'.trans hstart, UInt64.le_trans (hstep.backing_le fun amount hc => ?_) hle⟩
    -- a deposit would have come too late
    subst hc
    obtain ⟨acc, guard, rfl, rfl⟩ := hlabels.names
    obtain ⟨-, hearly⟩ := deposit_early (Result.toOption_eq_some.mp ha) hs₁
    rw [hstart] at hearly
    exact absurd (Int64.lt_of_lt_of_le hearly hlate) (Int64.not_lt.mpr hclock)

/-- **The phase machine.** A series moves from open to sealing once it is mature and resolved, from
there back or on to final; the seal copies the journal while it is sealed and is empty while it is
open; a final series never changes again but for what redemption counts; and no deposit succeeds
outside the open phase or from the start of the year on, so from then on the backing only
shrinks. -/
theorem phase_machine (h : History host w₀ tr w) (hs : w.series k = some s) :
    (s.phase = .open → s.sealedFields = .cleared ∧
      w.accumulators (.accumulator k) = some ⟨k, 0, [1], [1]⟩) ∧
    (s.phase = .sealing → s.sealedFields.journal = s.journal) ∧
    (s.phase = .finalized → s.ptPool.toNat + s.drPool.toNat = s.finalSupply.toNat) ∧
    (∀ a w', w.act host a = some w' → ∃ s', w'.series k = some s' ∧ PhaseStep s.phase s'.phase ∧
      (s.phase = .open → s'.phase = .sealing →
        s.maturityTimestamp ≤ w.clock.unixTimestamp ∧ s.unresolvedCount = 0) ∧
      (s.phase = .sealing → SameJournal w w' k)) ∧
    (∀ tr' w', Run (act host) w tr' w' → s.phase = .finalized → ∃ s', w'.series k = some s' ∧
      s'.terms = s.terms ∧ SameJournal w w' k ∧
      w'.accumulators (.accumulator k) = w.accumulators (.accumulator k)) ∧
    (∀ acc amount guard w', acc.series = k →
      w.execute host (.deposit acc amount guard) = .ok w' →
        s.phase = .open ∧ w.clock.unixTimestamp < s.startTimestamp) ∧
    ∀ tr' w', Run (act host) w tr' w' → s.startTimestamp ≤ w.clock.unixTimestamp →
      ∃ s', w'.series k = some s' ∧ s'.nominalBacking ≤ s.nominalBacking := by
  have hl := h.linked
  obtain ⟨b, hb, hbs⟩ := hl.exists_books hs
  have hphased := h.phased hb
  have hredeemable := (h.redeemable hb).1
  subst hbs
  refine ⟨fun hopen => ?_, fun hsealing => ?_, hredeemable.pools, fun a w' ha => act_phase hl hs ha,
    fun tr' w' hrun hfinal => frozen_of_run hl hs hfinal hrun, ?_,
    fun tr' w' hrun hlate => backing_of_run hl hs hlate hrun⟩
  · obtain ⟨hcleared, hacc⟩ := hphased.cleared hopen
    rw [books_accumulator hb, hacc]
    exact ⟨hcleared, rfl⟩
  · exact hphased.current (by rw [hsealing]; decide)
  · rintro acc amount guard w' rfl hx
    exact deposit_early hx hs

/-- The sample is final after its completion, and stays as it is through a burn and two
redemptions. -/
theorem phase_machine_sample : ∃ s s', (Sample.world 15).series Sample.seriesKey = some s ∧
    s.phase = .finalized ∧ (Sample.world 18).series Sample.seriesKey = some s' ∧
    s'.terms = s.terms := by
  obtain ⟨s, hs, hfinal⟩ := @Sample.series_of_any 15 (fun s => decide (s.phase = .finalized))
    (by decide +kernel)
  have hfinal := of_decide_eq_true hfinal
  obtain ⟨-, -, -, -, hkept, -, -⟩ := phase_machine (Sample.history 15) hs
  obtain ⟨s', hs', hterms, -⟩ := hkept _ _ (@Sample.between 15 18 (by decide)) hfinal
  exact ⟨s, s', hs, hfinal, hs', hterms⟩

end World

end DividendX
