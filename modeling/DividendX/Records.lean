import DividendX.Phases

/-!
# The history of records

What an attestor wrote into a journal, in order. `World.log` reads the accepted records of a series
off a run; an exact replay of the latest record of an event is accepted too, and adds nothing.
`Chained` says that the event accounts hold this log and nothing else: one account for each
record, linked to the record of the same event before it, and a head for the last one.
-/

namespace DividendX

/-! ## Records of one event -/

section Link

variable (host : Host) (k : Pubkey)

/-- The records of one event. -/
def recordsOf (id : Bytes32) (log : List EventInput) : List EventInput :=
  log.filter fun input => input.eventId == id

/-- The hash of the last of a list of records of one event, each linked to the one before; zero
when there is none. -/
def linkHash (records : List EventInput) : Bytes32 :=
  records.foldl (fun previous input => hashEventRecord host k input previous) zero32

/-- The account of a record, given the records of its event before it. -/
def storedRecord (id : Bytes32) (earlier : List EventInput) (input : EventInput) : EventRevision :=
  input.toRevision (.event k id) (linkHash host k earlier) (linkHash host k (earlier ++ [input]))

theorem linkHash_snoc (records : List EventInput) (input : EventInput) :
    linkHash host k (records ++ [input]) =
      hashEventRecord host k input (linkHash host k records) := by
  rw [linkHash, List.foldl_append]
  rfl

theorem recordsOf_snoc_self (log : List EventInput) (input : EventInput) :
    recordsOf input.eventId (log ++ [input]) = recordsOf input.eventId log ++ [input] := by
  rw [recordsOf, List.filter_append, List.filter_singleton, beq_self_eq_true]
  rfl

theorem recordsOf_snoc_ne {id : Bytes32} {input : EventInput} (h : id ≠ input.eventId)
    (log : List EventInput) : recordsOf id (log ++ [input]) = recordsOf id log := by
  rw [recordsOf, List.filter_append, List.filter_singleton, beq_false_of_ne (Ne.symm h)]
  exact List.append_nil _

theorem eventId_of_mem_recordsOf {id : Bytes32} {log : List EventInput} {input : EventInput}
    (h : input ∈ recordsOf id log) : input.eventId = id :=
  beq_iff_eq.mp (List.mem_filter.mp h).2

end Link

/-- The record a change adds to the journal. -/
def Change.recorded : Change → Option EventInput
  | record input => some input
  | _ => none

theorem Change.recorded_eq_some {c : Change} {input : EventInput} :
    c.recorded = some input ↔ c = .record input := by
  cases c with
  | record input' => simp [recorded]
  | _ => simp [recorded]

/-- Nothing else touches the journal. -/
theorem Books.Step.unrecorded {host : Host} {k : Pubkey} {b b' : Books} {c : Change}
    (h : b.Step host k c b') (hc : c.recorded = none) :
    b'.heads = b.heads ∧ b'.revisions = b.revisions ∧
      b'.series.journalVersion = b.series.journalVersion ∧
      b'.series.journalHash = b.series.journalHash := by
  cases h with
  | record _ _ _ _ _ _ _ _ _ => cases hc
  | @redeem side _ _ _ _ _ _ _ _ _ _ _ _ _ _ _ _ =>
    cases side with
    | pt => exact ⟨rfl, rfl, rfl, rfl⟩
    | dr => exact ⟨rfl, rfl, rfl, rfl⟩
  | _ => exact ⟨rfl, rfl, rfl, rfl⟩

/-- **A stored record never changes.** -/
theorem Books.Step.revision_kept {host : Host} {k : Pubkey} {b b' : Books} {c : Change}
    (h : b.Step host k c b') {id : Bytes32} {n : UInt64} {r : EventRevision}
    (hr : b.revisions id n = some r) : b'.revisions id n = some r := by
  cases hc : c.recorded with
  | none =>
    rw [(h.unrecorded hc).2.1]
    exact hr
  | some input =>
    obtain rfl := Change.recorded_eq_some.mp hc
    cases h with
    | record _ _ _ _ _ unused _ _ _ =>
      -- the account of the new record was not there
      change b.putRevision _ _ _ id n = _
      by_cases hid : id = input.eventId
      · subst hid
        have hn : n ≠ input.revision := by
          rintro rfl
          cases unused.symm.trans hr
        rw [Books.putRevision, Function.update_self, Function.update_of_ne hn]
        exact hr
      · rw [Books.putRevision, Function.update_of_ne hid]
        exact hr

/-! ## Books and log -/

/-- The event accounts of a series hold its log. -/
structure Chained (host : Host) (k : Pubkey) (log : List EventInput) (b : Books) : Prop where
  increasing : ∀ id, ((recordsOf id log).map EventInput.revision).Pairwise (· < ·)
  stored : ∀ {id earlier input later}, recordsOf id log = earlier ++ input :: later →
    b.revisions id input.revision = some (storedRecord host k id earlier input)
  only : ∀ {id n r}, b.revisions id n = some r → ∃ input ∈ recordsOf id log, input.revision = n
  head : ∀ id, (b.heads id).map (fun h => (h.latestRevision, h.latestRecordHash)) =
    (recordsOf id log).getLast?.map fun input =>
      (input.revision, linkHash host k (recordsOf id log))
  length : b.series.journalVersion.toNat = log.length

namespace Chained

variable {host : Host} {k : Pubkey} {log : List EventInput} {b b' : Books} {c : Change}

theorem fresh (h : b.Fresh host k) : Chained host k [] b := by
  obtain ⟨assetKey, asset, year, start, maturity, mintKey, profile, hs⟩ := h.series
  refine ⟨fun id => List.Pairwise.nil, fun hsplit => ?_, fun hr => ?_, fun id => ?_, ?_⟩
  · exact absurd hsplit (by simp [recordsOf])
  · cases (h.revisions _ _).symm.trans hr
  · rw [h.heads id]
    rfl
  · rw [hs]
    rfl

/-- A step that records nothing. -/
theorem congr (h : Chained host k log b) (hheads : b'.heads = b.heads)
    (hrevisions : b'.revisions = b.revisions)
    (hversion : b'.series.journalVersion = b.series.journalVersion) : Chained host k log b' := by
  refine ⟨h.increasing, ?_, ?_, ?_, ?_⟩
  · rw [hrevisions]
    exact h.stored
  · rw [hrevisions]
    exact h.only
  · rw [hheads]
    exact h.head
  · rw [hversion]
    exact h.length

/-- The latest record of an event is the last of its log. -/
theorem head_some (h : Chained host k log b) {id : Bytes32} {head : EventHead}
    (hhead : b.heads id = some head) : ∃ earlier input, recordsOf id log = earlier ++ [input] ∧
      head.latestRevision = input.revision ∧
      head.latestRecordHash = linkHash host k (recordsOf id log) := by
  have hlast := h.head id
  rw [hhead, Option.map_some] at hlast
  obtain ⟨input, hin, heq⟩ := Option.map_eq_some_iff.mp hlast.symm
  obtain ⟨earlier, hsplit⟩ := List.getLast?_eq_some_iff.mp hin
  obtain ⟨hrevision, hhash⟩ := Prod.mk.inj heq
  exact ⟨earlier, input, hsplit, hrevision.symm, hhash.symm⟩

theorem head_none (h : Chained host k log b) {id : Bytes32} (hhead : b.heads id = none) :
    recordsOf id log = [] := by
  have hlast := h.head id
  rw [hhead, Option.map_none] at hlast
  exact List.getLast?_eq_none_iff.mp (Option.map_eq_none_iff.mp hlast.symm)

/-- No record of an event has a higher revision than its head. -/
theorem le_latest (h : Chained host k log b) {id : Bytes32} {head : EventHead}
    (hhead : b.heads id = some head) {input : EventInput} (hmem : input ∈ recordsOf id log) :
    input.revision ≤ head.latestRevision := by
  obtain ⟨earlier, last, hsplit, hrevision, -⟩ := h.head_some hhead
  have hsorted := h.increasing id
  rw [hsplit, List.map_append, List.pairwise_append] at hsorted
  rw [hsplit, List.mem_append] at hmem
  rw [hrevision]
  rcases hmem with hearlier | hlast
  · exact UInt64.le_of_lt
      (hsorted.2.2 _ (List.mem_map_of_mem hearlier) _ (List.mem_singleton_self _))
  · rw [List.mem_singleton.mp hlast]
    exact UInt64.le_refl _

/-- The link a new record gets is the hash of the record before it. -/
theorem link (h : Chained host k log b) (id : Bytes32) :
    (if b.isNew id then zero32 else (b.headOf id).latestRecordHash) =
      linkHash host k (recordsOf id log) := by
  cases hhead : b.heads id with
  | none =>
    rw [h.head_none hhead, Books.isNew, hhead]
    rfl
  | some head =>
    obtain ⟨-, -, -, -, hhash⟩ := h.head_some hhead
    rw [Books.isNew, Books.headOf, hhead]
    exact hhash

/-- **A record is added**: it goes into an account of its own, linked to the one before. -/
theorem record (h : Chained host k log b) {input : EventInput} {s : Series}
    {resolved inYear : Bool}
    (hlater : ∀ head, b.heads input.eventId = some head → head.latestRevision < input.revision)
    (hversion : s.journalVersion.toNat = b.series.journalVersion.toNat + 1) :
    Chained host k (log ++ [input]) { b with
      series := s
      heads := Function.update b.heads input.eventId (some (recordedHead host k b.series
        (b.headOf input.eventId) (b.isNew input.eventId) input resolved inYear))
      revisions := b.putRevision input.eventId input.revision
        (recordedRevision host k (b.headOf input.eventId) (b.isNew input.eventId) input) } := by
  -- The head names the latest record, and the new revision is later than the head's.
  have hlt : ∀ old ∈ recordsOf input.eventId log, old.revision < input.revision := by
    intro old hold
    cases hhead : b.heads input.eventId with
    | none =>
      rw [h.head_none hhead] at hold
      cases hold
    | some head => exact UInt64.lt_of_le_of_lt (h.le_latest hhead hold) (hlater head hhead)
  have hrecord : recordedRevision host k (b.headOf input.eventId) (b.isNew input.eventId) input =
      storedRecord host k input.eventId (recordsOf input.eventId log) input := by
    rw [recordedRevision, h.link, storedRecord, linkHash_snoc]
  refine ⟨fun id => ?_, @fun id earlier input' later hsplit => ?_, @fun id n r hr => ?_,
    fun id => ?_, ?_⟩
  · by_cases hid : id = input.eventId
    · subst hid
      rw [recordsOf_snoc_self, List.map_append, List.pairwise_append]
      refine ⟨h.increasing _, List.pairwise_singleton _ _, fun n hn m hm => ?_⟩
      obtain ⟨old, hold, rfl⟩ := List.mem_map.mp hn
      rw [List.map_singleton, List.mem_singleton] at hm
      rw [hm]
      exact hlt old hold
    · rw [recordsOf_snoc_ne hid]
      exact h.increasing id
  · change b.putRevision _ _ _ id input'.revision = _
    by_cases hid : id = input.eventId
    · subst hid
      rw [recordsOf_snoc_self] at hsplit
      rcases List.eq_nil_or_concat later with rfl | ⟨front, last, rfl⟩
      · -- the new record itself
        obtain ⟨hearlier, hinput⟩ := List.append_inj' hsplit rfl
        cases hinput
        rw [← hearlier, hrecord, Books.putRevision, Function.update_self, Function.update_self]
      · -- a record that was there already
        rw [List.concat_eq_append, ← List.cons_append, ← List.append_assoc] at hsplit
        obtain ⟨hold, -⟩ := List.append_inj' hsplit rfl
        have hne : input'.revision ≠ input.revision := by
          refine UInt64.ne_of_lt (hlt input' ?_)
          rw [hold]
          exact List.mem_append_right _ List.mem_cons_self
        rw [Books.putRevision, Function.update_self, Function.update_of_ne hne]
        exact h.stored hold
    · rw [recordsOf_snoc_ne hid] at hsplit
      rw [Books.putRevision, Function.update_of_ne hid]
      exact h.stored hsplit
  · change b.putRevision _ _ _ id n = _ at hr
    by_cases hid : id = input.eventId
    · subst hid
      rw [recordsOf_snoc_self]
      by_cases hn : n = input.revision
      · exact ⟨input, List.mem_append_right _ (List.mem_singleton_self _), hn.symm⟩
      · rw [Books.putRevision, Function.update_self, Function.update_of_ne hn] at hr
        obtain ⟨old, hold, hrevision⟩ := h.only hr
        exact ⟨old, List.mem_append_left _ hold, hrevision⟩
    · rw [Books.putRevision, Function.update_of_ne hid] at hr
      rw [recordsOf_snoc_ne hid]
      exact h.only hr
  · change (Function.update b.heads _ _ id).map _ = _
    by_cases hid : id = input.eventId
    · subst hid
      rw [Function.update_self, recordsOf_snoc_self, List.getLast?_append_of_ne_nil _ (by simp),
        linkHash_snoc, ← h.link]
      rfl
    · rw [Function.update_of_ne hid, recordsOf_snoc_ne hid]
      exact h.head id
  · rw [List.length_append, ← h.length]
    exact hversion

/-- **One step** adds at most one record. -/
theorem step (h : Chained host k log b) (hstep : b.Step host k c b') :
    Chained host k (log ++ c.recorded.toList) b' := by
  cases hc : c.recorded with
  | some input =>
    obtain rfl := Change.recorded_eq_some.mp hc
    cases hstep with
    | record _ _ _ later _ _ counted hjv _ =>
      obtain ⟨_, _, _, _, _, -, -, -, -, -, rfl⟩ := updateCounters_eq_ok.mp counted
      exact h.record later hjv
  | none =>
    rw [Option.toList_none, List.append_nil]
    obtain ⟨hheads, hrevisions, hversion, -⟩ := hstep.unrecorded hc
    exact h.congr hheads hrevisions hversion

end Chained

/-! ## The log of a run -/

namespace World

variable {host : Host} {w₀ w w' : World} {tr : List Action} {a : Action} {k : Pubkey} {b b' : Books}
  {s : Series}

/-- The record an accepted action adds to the journal of a series. -/
def newRecord (w : World) (k : Pubkey) : Action → Option EventInput
  | .instruction (.upsertEvent acc input) =>
    if acc.series = k ∧
        (w.heads (.event k input.eventId)).all (fun h => h.latestRevision != input.revision) then
      some input
    else none
  | _ => none

theorem newRecord_eq_some {input : EventInput} : w.newRecord k a = some input ↔
    ∃ acc, a = .instruction (.upsertEvent acc input) ∧ acc.series = k ∧
      ∀ h, w.heads (.event k input.eventId) = some h → h.latestRevision ≠ input.revision := by
  constructor
  · intro hnew
    cases a with
    | instruction ix =>
      cases ix with
      | upsertEvent acc input' =>
        obtain ⟨⟨hk, hfree⟩, ⟨⟩⟩ := Option.ite_none_right_eq_some.mp hnew
        refine ⟨acc, rfl, hk, fun h hh => ?_⟩
        rw [hh, Option.all_some] at hfree
        exact bne_iff_ne.mp hfree
      | _ => cases hnew
    | _ => cases hnew
  · rintro ⟨acc, rfl, hk, hfree⟩
    rw [newRecord, if_pos]
    refine ⟨hk, ?_⟩
    cases hh : w.heads (.event k input.eventId) with
    | none => rfl
    | some h => exact bne_iff_ne.mpr (hfree h hh)

/-- The accepted records of a series along a run. -/
def log (host : Host) (k : Pubkey) : World → List Action → List EventInput
  | _, [] => []
  | w, a :: tr => (w.newRecord k a).toList ++ (w.act host a).elim [] fun w' => log host k w' tr

theorem log_snoc (hrun : Run (act host) w tr w') :
    log host k w (tr ++ [a]) = log host k w tr ++ (w'.newRecord k a).toList := by
  induction tr generalizing w with
  | nil =>
    cases hrun.eq_of_nil
    rw [List.nil_append, log, log, List.nil_append]
    cases act host w' a with
    | none => exact List.append_nil _
    | some u => exact List.append_nil _
  | cons a' tr ih =>
    obtain ⟨u, hu, hrest⟩ := hrun.uncons
    rw [List.cons_append, log, log, hu, Option.elim_some, Option.elim_some, ih hrest,
      List.append_assoc]

theorem newRecord_of_silent (h : Silent k a) : w.newRecord k a = none := by
  cases a with
  | instruction ix =>
    cases ix with
    | upsertEvent acc input =>
      rw [newRecord, if_neg]
      rintro ⟨hk, -⟩
      exact h.records acc input rfl hk
    | _ => rfl
  | _ => rfl

theorem log_of_silent (h : ∀ a ∈ tr, Silent k a) : log host k w tr = [] := by
  induction tr generalizing w with
  | nil => rfl
  | cons a tr ih =>
    rw [log, newRecord_of_silent (h a List.mem_cons_self), Option.toList_none, List.nil_append]
    cases w.act host a with
    | none => rfl
    | some u => exact ih fun a' ha' => h a' (List.mem_cons_of_mem _ ha')

/-- **The label of a step is the record the action adds.** -/
theorem newRecord_eq (hb : w.books k = some b) {c : Change} (ha : w.act host a = some w')
    (hb' : w'.books k = some b') (hstep : b.Step host k c b')
    (hlabels : c.Labels a k b.series.vault) : w.newRecord k a = c.recorded := by
  cases hc : c.recorded with
  | some input =>
    obtain rfl := Change.recorded_eq_some.mp hc
    obtain ⟨acc, rfl, rfl⟩ := hlabels.names
    refine newRecord_eq_some.mpr ⟨acc, rfl, rfl, fun head hhead => ?_⟩
    rw [← books_heads hb] at hhead
    cases hstep with
    | record _ _ _ later _ _ _ _ _ => exact UInt64.ne_of_lt (later head hhead)
  | none =>
    cases hnew : w.newRecord k a with
    | none => rfl
    | some input =>
      obtain ⟨acc, rfl, rfl, hfree⟩ := newRecord_eq_some.mp hnew
      have hversion := (hstep.unrecorded hc).2.2.1
      obtain ⟨p, s, resolved, inYear, hpass, ⟨hreplay, -⟩ | ⟨head, isNew, s', hr⟩⟩ :=
        upsertEvent_ok (Result.toOption_eq_some.mp ha)
      · obtain ⟨head, r, hhead, -, -, hlatest, -⟩ := hreplay.latest
        exact absurd hlatest (hfree head hhead)
      · -- a record that was written shows in the version of the journal
        obtain ⟨s₁, hcounted, jv, v, hjv, -, rfl⟩ := hr.series
        obtain ⟨_, _, _, _, _, -, -, -, -, -, rfl⟩ := updateCounters_eq_ok.mp hcounted
        have hs' := books_series hb'
        rw [hr.written, putSeries_series] at hs'
        cases (books_series hb).symm.trans hpass.series
        rw [← Option.some.inj hs'] at hversion
        have hsame : jv = b.series.journalVersion := hversion
        rw [hsame] at hjv
        exact absurd hjv (Nat.succ_ne_self _).symm

theorem History.chained (h : History host w₀ tr w) (hb : w.books k = some b) :
    Chained host k (log host k w₀ tr) b := by
  refine h.rec_books hb (P := fun tr _ b => Chained host k (log host k w₀ tr) b) ?_ ?_
  · intro tr a w w' b _ _ _ hfresh hsilent _
    rw [log_of_silent hsilent]
    exact Chained.fresh hfresh
  · intro tr w a w' b c b' hist hb hP ha hb' hstep hlabels
    rw [log_snoc hist.2, newRecord_eq hb ha hb' hstep hlabels]
    exact hP.step hstep

/-! ## Replays and conflicts -/

/-- What passed validation passes it later on. -/
theorem validateEventInput_later {input : EventInput} {year : UInt16} {clock clock' : Clock}
    {flags : Bool × Bool} (h : validateEventInput input year clock = .ok flags)
    (hslot : clock.slot ≤ clock'.slot) (htime : clock.unixTimestamp ≤ clock'.unixTimestamp) :
    validateEventInput input year clock' = .ok flags := by
  simp only [validateEventInput, Result.bind_eq_ok, Result.exists_unit, Result.require_eq_ok] at h ⊢
  obtain ⟨h1, h2, h3, h4, h5, hfactor, hflags⟩ := h
  refine ⟨h1, h2, h3, h4, h5, ?_, hflags⟩
  split
  · rename_i hstatus
    rw [if_pos hstatus] at hfactor
    simp only [Result.bind_eq_ok, Result.exists_unit, Result.checkWhen_eq_ok,
      Result.require_eq_ok] at hfactor ⊢
    obtain ⟨hqualified, hfuture⟩ := hfactor
    refine ⟨hqualified, fun hfinal => ?_⟩
    obtain ⟨hpast, hseen⟩ := hfuture hfinal
    exact ⟨Int64.le_trans hpast htime, UInt64.le_trans hseen hslot⟩
  · rename_i hstatus
    rw [if_neg hstatus] at hfactor
    exact hfactor

/-- Every record of the log passed validation, at a time that is past. -/
theorem History.validated (h : History host w₀ tr w) (hb : w.books k = some b) :
    ∀ input ∈ log host k w₀ tr, ∃ flags,
      validateEventInput input b.series.year w.clock = .ok flags := by
  refine h.rec_books hb (P := fun tr w b => ∀ input ∈ log host k w₀ tr, ∃ flags,
      validateEventInput input b.series.year w.clock = .ok flags) ?_ ?_
  · intro tr a w w' b _ _ _ _ hsilent _
    rw [log_of_silent hsilent]
    intro input hin
    cases hin
  · intro tr w a w' b c b' hist hb hP ha hb' hstep hlabels input hin
    obtain ⟨hslot, htime⟩ := act_clock ha
    have hyear : b'.series.year = b.series.year := congrArg Identity.year hstep.identity
    rw [hyear]
    rw [log_snoc hist.2, List.mem_append] at hin
    rcases hin with hold | hnew
    · obtain ⟨flags, hflags⟩ := hP input hold
      exact ⟨flags, validateEventInput_later hflags hslot htime⟩
    · obtain ⟨acc, rfl, rfl, -⟩ := newRecord_eq_some.mp (Option.mem_toList.mp hnew)
      obtain ⟨p, s, resolved, inYear, hpass, -⟩ := upsertEvent_ok (Result.toOption_eq_some.mp ha)
      cases (books_series hb).symm.trans hpass.series
      exact ⟨_, validateEventInput_later hpass.valid hslot htime⟩

/-- An exact replay is accepted and changes nothing. -/
theorem upsertEvent_of_replay {acc : UpsertEventAccounts} {input : EventInput} {p : AssetPolicy}
    {resolved inYear : Bool} (hp : UpsertPasses w acc input p s resolved inYear)
    (hr : Replay w acc.series input) (hk : acc.series ≠ .default) :
    upsertEvent host w acc input = .ok w := by
  obtain ⟨head, r, hhead, hseries, hid, hlatest, hrevision, hhash, hinput⟩ := hr.latest
  simp only [upsertEvent, Result.bind_eq_ok, Result.exists_unit, Result.require_eq_ok,
    World.load_eq_ok, Prod.exists]
  refine ⟨p, hp.asset, s, hp.series, hp.attestor, hp.hasOne, hp.phase,
    hp.revision, resolved, inYear, hp.valid, ?_⟩
  rw [hhead, hrevision, Option.getD_some, Option.getD_some, if_neg (by rw [hseries]; exact hk)]
  simp only [Result.bind_eq_ok, Result.exists_unit, Result.require_eq_ok]
  refine ⟨hseries, hid, ?_, ?_⟩
  · rw [hlatest]
    exact UInt64.le_refl _
  · rw [if_pos hlatest.symm]
    simp only [Result.bind_eq_ok, Result.exists_unit, Result.require_eq_ok, Result.pure_eq_ok]
    exact ⟨⟨hhash, EventRevision.matchesInput_iff.mpr ⟨hinput, rfl⟩⟩,
      put_same_event_accounts hhead hrevision⟩

/-- Once written, a record stays. -/
theorem revisions_of_run (hl : w.Linked) (hrun : Run (act host) w tr w') {key : Pubkey}
    {r : EventRevision} (hr : w.revisions key = some r) : w'.revisions key = some r := by
  obtain ⟨hkey, -, head, hhead, -⟩ := hl.revisions hr
  obtain ⟨hevent, s, hs⟩ := hl.heads hhead
  obtain ⟨b, hb, -⟩ := hl.exists_books hs
  obtain ⟨b', hb'⟩ := books_of_run hl hb hrun
  rw [hkey, hevent] at hr ⊢
  rw [← books_revisions hb] at hr
  rw [← books_revisions hb']
  exact rec_books_from hl hb hrun hb' (P := fun _ b' => b'.revisions _ _ = some r) hr
    fun _ _ _ _ _ hkept hstep _ => hstep.revision_kept hkept

/-- The latest record of an event can be submitted again. -/
theorem History.replay (h : History host w₀ tr w) (hs : w.series k = some s) {id : Bytes32}
    {earlier : List EventInput} {input : EventInput}
    (hlast : recordsOf id (log host k w₀ tr) = earlier ++ [input]) (hopen : s.phase = .open)
    {acc : UpsertEventAccounts} {p : AssetPolicy} (hk : acc.series = k)
    (hone : acc.assetPolicy = s.assetPolicy) (hp : w.policies s.assetPolicy = some p)
    (hattestor : p.attestor = .wallet acc.attestor) : upsertEvent host w acc input = .ok w := by
  subst hk
  have hl := h.linked
  obtain ⟨b, hb, rfl⟩ := hl.exists_books hs
  have hchain := h.chained hb
  have hin : input ∈ recordsOf id (log host acc.series w₀ tr) := by
    rw [hlast]
    exact List.mem_append_right _ (List.mem_singleton_self _)
  obtain rfl := eventId_of_mem_recordsOf hin
  obtain ⟨⟨resolved, inYear⟩, hvalid⟩ := h.validated hb input (List.mem_filter.mp hin).1
  have hrevision := hchain.stored hlast
  rw [books_revisions hb] at hrevision
  have hhead := hchain.head input.eventId
  rw [hlast, List.getLast?_concat, books_heads hb, Option.map_some] at hhead
  obtain ⟨head, hhead, heq⟩ := Option.map_eq_some_iff.mp hhead
  obtain ⟨hlatest, hhash⟩ := Prod.mk.inj heq
  obtain ⟨hkey, -⟩ := hl.heads hhead
  obtain ⟨hseries, hid⟩ := Pubkey.event.inj hkey
  have hpasses : UpsertPasses w acc input p b.series resolved inYear := by
    refine ⟨by rw [hone]; exact hp, hs, hattestor, hone.symm, hopen, ?_, hvalid⟩
    obtain ⟨-, hnonzero, -⟩ := hl.revisions hrevision
    exact UInt64.pos_iff_ne_zero.mpr hnonzero
  refine upsertEvent_of_replay hpasses
    ⟨head, _, hhead, hseries.symm, hid.symm, hlatest, hrevision, hhash.symm, rfl⟩ ?_
  rw [(hl.series hs).key]
  exact fun hdefault => by cases hdefault

/-- Nothing but a later revision is accepted in the place of the latest record. -/
theorem History.conflict (h : History host w₀ tr w) (hs : w.series k = some s)
    {earlier : List EventInput} {latest input : EventInput}
    (hlast : recordsOf input.eventId (log host k w₀ tr) = earlier ++ [latest])
    (hold : input.revision < latest.revision ∨ input.revision = latest.revision ∧ input ≠ latest)
    {acc : UpsertEventAccounts} (hk : acc.series = k) :
    ∃ e, upsertEvent host w acc input = .error e := by
  subst hk
  have hl := h.linked
  obtain ⟨b, hb, rfl⟩ := hl.exists_books hs
  have hchain := h.chained hb
  have hhead := hchain.head input.eventId
  rw [hlast, List.getLast?_concat, books_heads hb, Option.map_some] at hhead
  obtain ⟨head, hhead, heq⟩ := Option.map_eq_some_iff.mp hhead
  obtain ⟨hlatest, -⟩ := Prod.mk.inj heq
  have hle : input.revision ≤ head.latestRevision := by
    rw [hlatest]
    rcases hold with hlt | ⟨hsame, -⟩
    · exact UInt64.le_of_lt hlt
    · exact UInt64.le_of_eq hsame
  cases hx : upsertEvent host w acc input with
  | error e => exact ⟨e, rfl⟩
  | ok w' =>
    obtain ⟨p, s, resolved, inYear, -, ⟨hreplay, -⟩ | ⟨head', isNew, s', hr⟩⟩ := upsertEvent_ok hx
    · -- a replay is the latest record itself
      obtain ⟨head', r, hhead', -, -, hnumber, hrevision, -, hinput⟩ := hreplay.latest
      cases hhead.symm.trans hhead'
      have hstored := hchain.stored hlast
      rw [books_revisions hb, ← hlatest, hnumber] at hstored
      cases hrevision.symm.trans hstored
      rcases hold with hlt | ⟨-, hne⟩
      · rw [← hlatest, hnumber] at hlt
        exact absurd hlt (UInt64.lt_irrefl _)
      · exact absurd hinput.symm hne
    · have hloaded := hr.loaded
      rw [hhead, Option.getD_some] at hloaded
      subst hloaded
      cases isNew with
      | true =>
        -- a head in use names its series
        obtain ⟨hdefault, -⟩ := hr.new rfl
        obtain ⟨-, t, ht⟩ := hl.heads hhead
        rw [hdefault] at ht
        cases (hl.series ht).key
      | false =>
        obtain ⟨-, -, -, hlater⟩ := hr.revised rfl
        exact absurd hlater (UInt64.not_lt.mpr hle)

/-- The event accounts of a series, told by the accepted records of each event in order. -/
structure EventHistory (k : Pubkey) (log : List EventInput) (w : World) : Prop where
  increasing : ∀ id, ((recordsOf id log).map EventInput.revision).Pairwise (· < ·)
  first : ∀ {id input later}, recordsOf id log = input :: later →
    ∃ r, w.revisions (.revision (.event k id) input.revision) = some r ∧ r.toInput = input ∧
      r.previousRevisionHash = zero32
  next : ∀ {id earlier previous input later},
    recordsOf id log = earlier ++ previous :: input :: later →
    ∃ r r', w.revisions (.revision (.event k id) previous.revision) = some r ∧
      r.toInput = previous ∧ w.revisions (.revision (.event k id) input.revision) = some r' ∧
      r'.toInput = input ∧ r'.previousRevisionHash = r.recordHash
  only : ∀ {id n r}, w.revisions (.revision (.event k id) n) = some r →
    r.toInput ∈ recordsOf id log ∧ r.revision = n
  latest : ∀ {id earlier input}, recordsOf id log = earlier ++ [input] →
    ∃ head r, w.heads (.event k id) = some head ∧ head.latestRevision = input.revision ∧
      w.revisions (.revision (.event k id) input.revision) = some r ∧ r.toInput = input ∧
      head.latestRecordHash = r.recordHash
  none : ∀ {id}, recordsOf id log = [] → w.heads (.event k id) = none

theorem History.eventHistory (h : History host w₀ tr w) (hs : w.series k = some s) :
    EventHistory k (log host k w₀ tr) w := by
  obtain ⟨b, hb, -⟩ := h.linked.exists_books hs
  have hchain := h.chained hb
  have hstored : ∀ {id earlier input later},
      recordsOf id (log host k w₀ tr) = earlier ++ input :: later →
      w.revisions (.revision (.event k id) input.revision) =
        some (storedRecord host k id earlier input) := by
    intro id earlier input later hsplit
    rw [← books_revisions hb]
    exact hchain.stored hsplit
  refine ⟨hchain.increasing, @fun id input later hsplit => ?_,
    @fun id earlier previous input later hsplit => ?_, @fun id n r hr => ?_,
    @fun id earlier input hsplit => ?_, @fun id hnil => ?_⟩
  · exact ⟨_, @hstored id [] input later hsplit, rfl, rfl⟩
  · refine ⟨_, _, hstored hsplit, rfl, @hstored id (earlier ++ [previous]) input later ?_, rfl, rfl⟩
    rw [hsplit, List.append_assoc]
    rfl
  · obtain ⟨input, hin, rfl⟩ := hchain.only (by rw [books_revisions hb]; exact hr)
    obtain ⟨earlier, later, hsplit⟩ := List.append_of_mem hin
    cases hr.symm.trans (hstored hsplit)
    exact ⟨hin, rfl⟩
  · have hhead := hchain.head id
    rw [hsplit, List.getLast?_concat, books_heads hb, Option.map_some] at hhead
    obtain ⟨head, hhead, heq⟩ := Option.map_eq_some_iff.mp hhead
    obtain ⟨hlatest, hhash⟩ := Prod.mk.inj heq
    exact ⟨head, _, hhead, hlatest, hstored hsplit, rfl, hhash⟩
  · have hhead := hchain.head id
    rw [hnil, List.getLast?_nil, books_heads hb, Option.map_none] at hhead
    exact Option.map_eq_none_iff.mp hhead

/-- **Event revisions are an immutable, linked, strictly increasing history.** The event accounts
hold the accepted records of each event, linked and in increasing order, with a head for the last
one; none of them ever changes. While the series is open the latest record can be submitted again
without effect, and no other input of that or a lower revision is accepted. -/
theorem revisions_immutable (h : History host w₀ tr w) (hs : w.series k = some s) :
    EventHistory k (log host k w₀ tr) w ∧
    (∀ tr' w' key r, Run (act host) w tr' w' → w.revisions key = some r →
      w'.revisions key = some r) ∧
    (∀ id earlier input acc p, recordsOf id (log host k w₀ tr) = earlier ++ [input] →
      s.phase = .open → acc.series = k → acc.assetPolicy = s.assetPolicy →
      w.policies s.assetPolicy = some p → p.attestor = .wallet acc.attestor →
      w.execute host (.upsertEvent acc input) = .ok w) ∧
    ∀ earlier latest input acc,
      recordsOf input.eventId (log host k w₀ tr) = earlier ++ [latest] → acc.series = k →
      (input.revision < latest.revision ∨ input.revision = latest.revision ∧ input ≠ latest) →
      ∃ e, w.execute host (.upsertEvent acc input) = .error e := by
  refine ⟨h.eventHistory hs, fun tr' w' key r hrun hr => revisions_of_run h.linked hrun hr, ?_, ?_⟩
  · intro id earlier input acc p hlast hopen hk hone hp hattestor
    exact h.replay hs hlast hopen hk hone hp hattestor
  · intro earlier latest input acc hlast hk hold
    exact h.conflict hs hlast hold hk

/-- The sample records its dividend once; submitting it again changes nothing. -/
theorem revisions_immutable_sample :
    log Sample.host Sample.seriesKey Sample.genesis (Sample.actions.take 10) = [Sample.event] ∧
    (Sample.world 10).execute Sample.host (.upsertEvent
      ⟨Sample.attestor, Sample.assetKey, Sample.seriesKey⟩ Sample.event) =
        .ok (Sample.world 10) := by
  have hlog : log Sample.host Sample.seriesKey Sample.genesis (Sample.actions.take 10) =
      [Sample.event] := by decide +kernel
  obtain ⟨s, hs, hopen⟩ := @Sample.series_of_any 10
    (fun s => decide (s.phase = .open ∧ s.assetPolicy = Sample.assetKey)) (by decide +kernel)
  obtain ⟨hopen, hasset⟩ := of_decide_eq_true hopen
  have hpolicy : ((Sample.world 10).policies Sample.assetKey).any
      (fun p => decide (p.attestor = .wallet Sample.attestor)) = true := by decide +kernel
  obtain ⟨p, hp, hattestor⟩ := (Option.any_eq_true _ _).mp hpolicy
  obtain ⟨-, -, hreplay, -⟩ := revisions_immutable (Sample.history 10) hs
  refine ⟨hlog, hreplay Sample.eventId [] _ _ p ?_ hopen rfl hasset.symm ?_
    (of_decide_eq_true hattestor)⟩
  · rw [hlog]
    decide +kernel
  · rw [hasset]
    exact hp

end World

end DividendX
