import DividendX.Lib.HashChain
import DividendX.Records

/-!
# What the journal hash binds

The journal hash is the digest of a hash chain over the accepted records, and the records of one
event are linked by a chain inside it. Messages of the three kinds are told apart by their first
bytes and their parts have fixed lengths, so that the general binding of hash chains applies: two
histories with the same hash have the same records.

`JournalState` replays a log without a chain: heads, records, counters, version and hash of a
series are a function of it (`History.journalState`), so the same log means the same journal.
-/

namespace DividendX

open LittleEndian

/-! ## Messages -/

theorem EventInput.serialize_injective {a b : EventInput} (h : a.serialize = b.serialize) :
    a = b := by
  -- Every field has a fixed width, so they split off from the last to the first.
  rw [serialize] at h
  obtain ⟨h, hevidence⟩ := List.append_inj' h (by simp)
  obtain ⟨h, hslot⟩ := List.append_inj' h (by simp)
  obtain ⟨h, hpayment⟩ := List.append_inj' h (by simp)
  obtain ⟨h, htime⟩ := List.append_inj' h (by simp)
  obtain ⟨h, hfinal⟩ := List.append_inj' h (by simp)
  obtain ⟨h, hm1⟩ := List.append_inj' h (by simp)
  obtain ⟨h, hm0⟩ := List.append_inj' h (by simp)
  obtain ⟨h, hstatus⟩ := List.append_inj' h (by simp)
  obtain ⟨h, hdate⟩ := List.append_inj' h (by simp)
  obtain ⟨hid, hrevision⟩ := List.append_inj' h (by simp)
  have word64 : ∀ {x y : UInt64}, fixed 8 x.toNat = fixed 8 y.toNat → x = y := by
    intro x y hxy
    exact UInt64.toNat_inj.mp (fixed_injective x.toNat_lt y.toNat_lt hxy)
  have word32 : ∀ {x y : UInt32}, fixed 4 x.toNat = fixed 4 y.toNat → x = y := by
    intro x y hxy
    exact UInt32.toNat_inj.mp (fixed_injective x.toNat_lt y.toNat_lt hxy)
  have flag : a.sourceFinal = b.sourceFinal := by
    cases ha : a.sourceFinal <;> cases hb : b.sourceFinal <;> simp_all
  have time : a.originalEffectiveTime = b.originalEffectiveTime := by
    simpa using congrArg UInt64.toInt64 (word64 htime)
  cases a
  cases b
  simp only [EventInput.mk.injEq]
  exact ⟨List.Vector.toList_injective hid, word64 hrevision, word32 hdate,
    List.singleton_inj.mp hstatus, word64 hm0, word64 hm1, flag, time, word32 hpayment,
    word64 hslot, List.Vector.toList_injective hevidence⟩

/-- Genesis and history messages differ in the nineteenth byte. -/
theorem genesis_prefix_ne_history (as bs : List UInt8) :
    "dividendx:journal-history:v1".toUTF8.data.toList ++ as ≠
      "dividendx:journal-genesis:v1".toUTF8.data.toList ++ bs := by
  intro h
  obtain ⟨hheader, -⟩ := List.append_inj h (by decide)
  exact absurd hheader (by decide)

/-- The chain behind a journal hash. -/
def journalChain (host : Host) (k : Pubkey) (policyDigest : Bytes32) :
    HashChain EventInput (List UInt8) Bytes32 where
  hash := host.sha256
  seed := "dividendx:journal-genesis:v1".toUTF8.data.toList
    ++ (host.addressBytes k).toList ++ policyDigest.toList
  entry log input := "dividendx:event-revision:v1".toUTF8.data.toList
    ++ (host.addressBytes k).toList ++ (linkHash host k (recordsOf input.eventId log)).toList
    ++ input.serialize
  extend journalHash recordHash := "dividendx:journal-history:v1".toUTF8.data.toList
    ++ journalHash.toList ++ recordHash.toList
  extend_ne_seed d e := by
    rw [List.append_assoc, List.append_assoc]
    exact genesis_prefix_ne_history _ _
  extend_injective := by
    intro d e d' e' h
    obtain ⟨h, he⟩ := List.append_inj' h (by simp)
    obtain ⟨-, hd⟩ := List.append_inj' h (by simp)
    exact ⟨List.Vector.toList_injective hd, List.Vector.toList_injective he⟩
  entry_injective := by
    intro log x log' x' h
    obtain ⟨-, hinput⟩ := List.append_inj h (by simp)
    exact EventInput.serialize_injective hinput

/-! ## Replaying a log -/

/-- The journal of a series on its own. -/
structure JournalState where
  heads : Bytes32 → Option EventHead
  revisions : Bytes32 → UInt64 → Option EventRevision
  eventCount : Nat
  unresolvedCount : Nat
  inYearQualifiedCount : Nat
  journalVersion : Nat
  journalHash : Bytes32

namespace JournalState

variable (host : Host) (k : Pubkey) (year : UInt16)

/-- The journal of a new series. -/
def start (policyDigest : Bytes32) : JournalState :=
  { heads := fun _ => none, revisions := fun _ _ => none, eventCount := 0, unresolvedCount := 0,
    inYearQualifiedCount := 0, journalVersion := 0,
    journalHash := initialJournalHash host k policyDigest }

/-- One more record. -/
def record (j : JournalState) (input : EventInput) : JournalState :=
  let head := (j.heads input.eventId).getD .zeroed
  let isNew := (j.heads input.eventId).isNone
  let link := if isNew then zero32 else head.latestRecordHash
  let recordHash := hashEventRecord host k input link
  { heads := Function.update j.heads input.eventId (some
      { series := k, eventId := input.eventId,
        index := if isNew then UInt8.ofNat j.eventCount else head.index,
        latestRevision := input.revision, latestRecordHash := recordHash,
        latestResolved := input.isResolved, latestInYearQualified := input.counts year })
    revisions := Function.update j.revisions input.eventId (Function.update
      (j.revisions input.eventId) input.revision
      (some (input.toRevision (.event k input.eventId) link recordHash)))
    eventCount := j.eventCount + isNew.toNat
    unresolvedCount := j.unresolvedCount - (!isNew && !head.latestResolved).toNat
      + (!input.isResolved).toNat
    inYearQualifiedCount := j.inYearQualifiedCount - (!isNew && head.latestInYearQualified).toNat
      + (input.counts year).toNat
    journalVersion := j.journalVersion + 1
    journalHash := nextJournalHash host j.journalHash recordHash }

/-- The journal a log leaves behind. -/
def replay (policyDigest : Bytes32) (log : List EventInput) : JournalState :=
  log.foldl (record host k year) (start host k policyDigest)

theorem replay_snoc (policyDigest : Bytes32) (log : List EventInput) (input : EventInput) :
    replay host k year policyDigest (log ++ [input]) =
      (replay host k year policyDigest log).record host k year input := by
  rw [replay, List.foldl_append]
  rfl

end JournalState

/-- The journal in the books of a series. -/
def Books.journalState (b : Books) : JournalState :=
  { heads := b.heads, revisions := b.revisions, eventCount := b.series.eventCount.toNat,
    unresolvedCount := b.series.unresolvedCount.toNat,
    inYearQualifiedCount := b.series.inYearQualifiedCount.toNat,
    journalVersion := b.series.journalVersion.toNat, journalHash := b.series.journalHash }

namespace Books

variable {host : Host} {k : Pubkey} {b b' : Books} {c : Change}

theorem Fresh.journalState (h : b.Fresh host k) :
    b.journalState = JournalState.start host k b.series.policyDigest := by
  obtain ⟨assetKey, asset, year, start, maturity, mintKey, profile, hs⟩ := h.series
  rw [Books.journalState, JournalState.start, funext h.heads,
    funext fun id => funext (h.revisions id), hs]
  rfl

/-- Nothing but a record changes the journal. -/
theorem Step.journalState_kept (h : b.Step host k c b') (hc : c.recorded = none) :
    b'.journalState = b.journalState := by
  cases h with
  | record _ _ _ _ _ _ _ _ _ => cases hc
  | @redeem side _ _ _ _ _ _ _ _ _ _ _ _ _ _ _ _ =>
    cases side with
    | pt => rfl
    | dr => rfl
  | _ => rfl

/-- A record is replayed. -/
theorem Step.journalState_record {input : EventInput} (h : b.Step host k (.record input) b') :
    b'.journalState = b.journalState.record host k b.series.year input := by
  cases h with
  | record _ _ valid _ _ _ counted hjv _ =>
    obtain ⟨clock, hvalid⟩ := valid
    obtain ⟨rfl, rfl, -⟩ := validateEventInput_ok hvalid
    obtain ⟨events, unresolved, unresolvedMid, qualified, qualifiedMid, hevents, hmid, hqmid,
      hunresolved, hqualified, rfl⟩ := updateCounters_eq_ok.mp counted
    have hindex : UInt8.ofNat b.series.eventCount.toNat = b.series.eventCount := UInt8.ofNat_toNat
    simp only [Books.journalState, JournalState.record, Books.putRevision,
      Books.headOf, Books.isNew, recordedHead, recordedRevision, JournalState.mk.injEq, hindex] at *
    refine ⟨rfl, rfl, hevents, ?_, ?_, hjv, rfl⟩
    · rw [hunresolved, hmid, Nat.add_sub_cancel]
    · rw [hqualified, hqmid, Nat.add_sub_cancel]

end Books

namespace World

variable {host : Host} {w₀ w w' : World} {tr : List Action} {k : Pubkey} {b : Books} {s : Series}

/-- **The journal of a series is its log, replayed.** -/
theorem History.journalState (h : History host w₀ tr w) (hb : w.books k = some b) :
    b.journalState = .replay host k b.series.year b.series.policyDigest (log host k w₀ tr) := by
  refine h.rec_books hb (P := fun tr _ b => b.journalState =
    .replay host k b.series.year b.series.policyDigest (log host k w₀ tr)) ?_ ?_
  · intro tr a w w' b _ _ _ hfresh hsilent _
    rw [log_of_silent hsilent]
    exact hfresh.journalState
  · intro tr w a w' b c b' hist hb hP ha hb' hstep hlabels
    have hyear : b'.series.year = b.series.year := congrArg Identity.year hstep.identity
    have hdigest : b'.series.policyDigest = b.series.policyDigest :=
      congrArg Identity.policyDigest hstep.identity
    rw [log_snoc hist.2, newRecord_eq hb ha hb' hstep hlabels, hyear, hdigest]
    cases hc : c.recorded with
    | none =>
      rw [Option.toList_none, List.append_nil, hstep.journalState_kept hc]
      exact hP
    | some input =>
      obtain rfl := Change.recorded_eq_some.mp hc
      rw [Option.toList_some, JournalState.replay_snoc, ← hP]
      exact hstep.journalState_record

/-- **The journal hash is the digest of the log.** -/
theorem History.journalHash (h : History host w₀ tr w) (hb : w.books k = some b) :
    b.series.journalHash =
      (journalChain host k b.series.policyDigest).digest (log host k w₀ tr) := by
  refine h.rec_books hb (P := fun tr _ b => b.series.journalHash =
    (journalChain host k b.series.policyDigest).digest (log host k w₀ tr)) ?_ ?_
  · intro tr a w w' b _ _ _ hfresh hsilent _
    obtain ⟨assetKey, asset, year, start, maturity, mintKey, profile, hs⟩ := hfresh.series
    rw [log_of_silent hsilent, hs]
    rfl
  · intro tr w a w' b c b' hist hb hP ha hb' hstep hlabels
    have hdigest : b'.series.policyDigest = b.series.policyDigest :=
      congrArg Identity.policyDigest hstep.identity
    rw [log_snoc hist.2, newRecord_eq hb ha hb' hstep hlabels, hdigest]
    cases hc : c.recorded with
    | none =>
      rw [Option.toList_none, List.append_nil, (hstep.unrecorded hc).2.2.2]
      exact hP
    | some input =>
      obtain rfl := Change.recorded_eq_some.mp hc
      rw [Option.toList_some, HashChain.digest_snoc, ← hP]
      have hlink := (hist.chained hb).link input.eventId
      cases hstep with
      | record _ _ _ _ _ _ counted _ _ =>
        obtain ⟨_, _, _, _, _, -, -, -, -, -, rfl⟩ := updateCounters_eq_ok.mp counted
        change nextJournalHash host b.series.journalHash _ = _
        rw [hlink]
        rfl

/-- The accumulator of a final series is the product over all events. -/
theorem History.staged_final (h : History host w₀ tr w) (hb : w.books k = some b) :
    b.series.phase = .finalized →
      Staged b ∧ b.accumulator.cursor = b.series.sealedEventCount := by
  refine h.rec_books hb (P := fun _ _ b => b.series.phase = .finalized →
    Staged b ∧ b.accumulator.cursor = b.series.sealedEventCount) ?_ ?_
  · intro tr a w w' b _ _ _ hfresh _ _ hfinal
    obtain ⟨assetKey, asset, year, start, maturity, mintKey, profile, hs⟩ := hfresh.series
    rw [hs] at hfinal
    cases hfinal
  · intro tr w a w' b c b' hist hbooks hP _ _ hstep _ hfinal
    cases hstep with
    | complete phase done _ _ _ _ =>
      -- the only step into the final phase, and the cursor is at the end
      exact ⟨(hist.staged hbooks phase).congr rfl rfl rfl rfl rfl, done⟩
    | @redeem side _ _ _ _ _ _ _ _ phase _ _ _ _ _ _ _ =>
      obtain ⟨hstaged, hdone⟩ := hP phase
      cases side with
      | pt => exact ⟨hstaged.congr rfl rfl rfl rfl rfl, hdone⟩
      | dr => exact ⟨hstaged.congr rfl rfl rfl rfl rfl, hdone⟩
    | record phase _ _ _ _ _ counted _ _ =>
      obtain ⟨_, _, _, _, _, -, -, -, -, -, rfl⟩ := updateCounters_eq_ok.mp counted
      cases phase.symm.trans hfinal
    | deposit _ phase _ _ _ _ _ _ _ => cases phase.symm.trans hfinal
    | recombine _ phase _ _ _ _ _ => exact absurd hfinal phase
    | accumulate phase _ _ _ _ _ _ _ => cases phase.symm.trans hfinal
    | begin _ _ _ _ => cases hfinal
    | abort _ _ => cases hfinal
    | _ =>
      obtain ⟨hstaged, hdone⟩ := hP hfinal
      exact ⟨hstaged.congr rfl rfl rfl rfl rfl, hdone⟩

/-- The journals of two histories of one series are the same, and so is the product of their
factors once both are final. -/
structure SameHistory (k : Pubkey) (w w' : World) (s s' : Series) : Prop where
  accounts : SameJournal w w' k
  events : s'.eventCount = s.eventCount
  unresolved : s'.unresolvedCount = s.unresolvedCount
  qualified : s'.inYearQualifiedCount = s.inYearQualifiedCount
  version : s'.journalVersion = s.journalVersion
  ratio : s.phase = .finalized → s'.phase = .finalized → ∀ a a',
    w.accumulators (.accumulator k) = some a → w'.accumulators (.accumulator k) = some a' →
    (ofBytes a'.numerator : ℚ) / ofBytes a'.denominator =
      (ofBytes a.numerator : ℚ) / ofBytes a.denominator

/-- The same log leads to the same journal. -/
theorem History.same {w₀' : World} {tr' : List Action} {s' : Series} (h : History host w₀ tr w)
    (h' : History host w₀' tr' w') (hs : w.series k = some s) (hs' : w'.series k = some s')
    (hdigest : s'.policyDigest = s.policyDigest)
    (hlog : log host k w₀' tr' = log host k w₀ tr) : SameHistory k w w' s s' := by
  obtain ⟨b, hb, rfl⟩ := h.linked.exists_books hs
  obtain ⟨b', hb', rfl⟩ := h'.linked.exists_books hs'
  have hyear : b'.series.year = b.series.year := by
    have hkey := (h.linked.series hs).key
    rw [(h'.linked.series hs').key] at hkey
    exact (Pubkey.series.inj hkey).2
  have hstate := h'.journalState hb'
  rw [hlog, hyear, hdigest, ← h.journalState hb] at hstate
  simp only [Books.journalState, JournalState.mk.injEq] at hstate
  obtain ⟨hheads, hrevisions, hevents, hunresolved, hqualified, hversion, -⟩ := hstate
  refine ⟨sameJournal_of_books hb hb' hheads hrevisions, UInt8.toNat_inj.mp hevents,
    UInt8.toNat_inj.mp hunresolved, UInt8.toNat_inj.mp hqualified, UInt64.toNat_inj.mp hversion, ?_⟩
  intro hfinal hfinal' a a' ha ha'
  -- Both are staged to the end, over the same heads and with the same factors.
  cases (books_accumulator hb).symm.trans ha
  cases (books_accumulator hb').symm.trans ha'
  obtain ⟨hstaged, hdone⟩ := h.staged_final hb hfinal
  obtain ⟨hstaged', hdone'⟩ := h'.staged_final hb' hfinal'
  obtain ⟨ids, hids, hproduct⟩ := hstaged.total (h.journaled hb) hdone
  obtain ⟨ids', hids', hproduct'⟩ := hstaged'.total (h'.journaled hb') hdone'
  have hsame : ids' = ids := by
    ext id
    rw [hids', hids, hheads]
  have hfactor : b'.factor = b.factor := by
    funext id
    rw [Books.factor, Books.factor, hheads, hrevisions]
  rw [hproduct, hproduct', hsame, hfactor]

/-- **The journal hash binds the history.** If SHA-256 has no collision among the messages hashed
for two histories of a series, equal journal hashes mean that the same records were accepted in the
same order, with the same links, heads and counters, and that the final ratios agree. A
finalization that begins with an expected version and hash therefore seals the one history with
that hash, and the version is its length. -/
theorem journal_binding {w₀' : World} {tr' : List Action} {s' : Series} (h : History host w₀ tr w)
    (h' : History host w₀' tr' w') (hs : w.series k = some s) (hs' : w'.series k = some s')
    (hdigest : s'.policyDigest = s.policyDigest)
    (hfree : (journalChain host k s.policyDigest).CollisionFree (log host k w₀ tr)
      (log host k w₀' tr')) :
    (s'.journalHash = s.journalHash →
      log host k w₀' tr' = log host k w₀ tr ∧ SameHistory k w w' s s') ∧
    ∀ acc version hash coverage u, acc.series = k →
      w.execute host (.beginFinalization acc version hash coverage) = .ok u →
      version.toNat = (log host k w₀ tr).length ∧
      hash = (journalChain host k s.policyDigest).digest (log host k w₀ tr) ∧
      ∀ expected, (journalChain host k s.policyDigest).CollisionFree (log host k w₀ tr) expected →
        (journalChain host k s.policyDigest).digest expected = hash →
        log host k w₀ tr = expected := by
  obtain ⟨b, hb, rfl⟩ := h.linked.exists_books hs
  obtain ⟨b', hb', rfl⟩ := h'.linked.exists_books hs'
  have hhash := h.journalHash hb
  refine ⟨fun heq => ?_, ?_⟩
  · have hhash' := h'.journalHash hb'
    rw [hdigest, heq, hhash] at hhash'
    have hlog := HashChain.digest_injective hfree hhash'
    exact ⟨hlog.symm, h.same h' hs hs' hdigest hlog.symm⟩
  · rintro acc version hash coverage u rfl hx
    obtain ⟨L, profile, hL, hp, -⟩ := beginFinalization_eq_ok.mp hx
    have hsame := Option.some.inj (hs.symm.trans hL.loadedSeries)
    obtain ⟨hversion, hexpected⟩ := hp.journal
    rw [← hsame] at hversion hexpected
    refine ⟨?_, ?_, fun expected hfree' hdigest' => ?_⟩
    · rw [← hversion]
      exact (h.chained hb).length
    · rw [← hexpected]
      exact hhash
    · rw [← hexpected, hhash] at hdigest'
      exact HashChain.digest_injective hfree' hdigest'.symm

/-- The sample has one journal hash from its only record on, and one history behind it. -/
theorem journal_binding_sample : ∃ s s', (Sample.world 10).series Sample.seriesKey = some s ∧
    (Sample.world 18).series Sample.seriesKey = some s' ∧ s'.journalHash = s.journalHash ∧
    log Sample.host Sample.seriesKey Sample.genesis (Sample.actions.take 18) =
      log Sample.host Sample.seriesKey Sample.genesis (Sample.actions.take 10) ∧
    SameHistory Sample.seriesKey (Sample.world 10) (Sample.world 18) s s' := by
  have hany : ∀ n ∈ [10, 18], ((Sample.world n).series Sample.seriesKey).any (fun s =>
      decide (s.journalHash = Sample.journalHash ∧ s.policyDigest = Sample.evidence)) = true := by
    decide +kernel
  have hmessages : ∀ n ∈ [10, 18],
      (journalChain Sample.host Sample.seriesKey Sample.evidence).messages
      (log Sample.host Sample.seriesKey Sample.genesis (Sample.actions.take n)) =
      [Sample.historyMessage, Sample.recordMessage, Sample.genesisMessage] := by
    decide +kernel
  have hdistinct : ∀ m ∈ [Sample.historyMessage, Sample.recordMessage, Sample.genesisMessage],
      ∀ m' ∈ [Sample.historyMessage, Sample.recordMessage, Sample.genesisMessage],
      Sample.sha256 m = Sample.sha256 m' → m = m' := by
    decide +kernel
  obtain ⟨s, hs, h10⟩ := Sample.series_of_any (hany 10 (by simp))
  obtain ⟨s', hs', h18⟩ := Sample.series_of_any (hany 18 (by simp))
  obtain ⟨hhash, hdigest⟩ := of_decide_eq_true h10
  obtain ⟨hhash', hdigest'⟩ := of_decide_eq_true h18
  have heq := hhash'.trans hhash.symm
  refine ⟨s, s', hs, hs', heq, (journal_binding (Sample.history 10) (Sample.history 18) hs hs'
    (hdigest'.trans hdigest.symm) ?_).1 heq⟩
  rw [hdigest, HashChain.CollisionFree, hmessages 10 (by simp), hmessages 18 (by simp)]
  simp only [or_self]
  exact fun m hm m' hm' => hdistinct m hm m' hm'

end World

end DividendX
