import DividendX.Supply

/-!
# The journal of a series

The counters of a series against the event accounts they count. `Journaled` is the invariant: the
three counters are totals over all heads, the indices of the heads are distinct and below the event
count, and every head caches the flags of its latest record. Recording is the only step that
touches any of it.
-/

namespace DividendX

open Result

/-! ## Flags -/

/-- The record is final and says what happened. -/
def EventInput.isResolved (input : EventInput) : Bool :=
  (input.status == STATUS_QUALIFIED || input.status == STATUS_CONFIRMED_ZERO
    || input.status == STATUS_CANCELLED) && input.sourceFinal && input.exDate != 0

/-- The record is final, qualified and dated inside the year. -/
def EventInput.counts (input : EventInput) (year : UInt16) : Bool :=
  input.isResolved && input.status == STATUS_QUALIFIED && isInYear input.exDate year

/-- **Validation** assigns flags that depend on the record alone, and a qualified record has an
admissible factor. -/
theorem validateEventInput_ok {input : EventInput} {year : UInt16} {clock : Clock}
    {resolved inYear : Bool} (h : validateEventInput input year clock = .ok (resolved, inYear)) :
    resolved = input.isResolved ∧ inYear = input.counts year ∧
      (input.status = STATUS_QUALIFIED → Qualified input.m0Bits input.m1Bits) := by
  simp only [validateEventInput, bind_eq_ok, require_eq_ok, exists_unit, pure_eq_ok,
    requireNonzero, Prod.mk.injEq] at h
  obtain ⟨-, -, -, -, -, hfactor, hresolved, hinYear⟩ := h
  refine ⟨hresolved.symm, hinYear.symm, fun hstatus => ?_⟩
  rw [if_pos hstatus, bind_eq_ok] at hfactor
  obtain ⟨_, hqualified, -⟩ := hfactor
  exact requireQualifiedFactor_eq_ok.mp hqualified

/-- In an admitted year a record counts iff it is qualified, final at its source and dated in it. -/
theorem EventInput.counts_iff {input : EventInput} {year : UInt16} (hyear : 2020 ≤ year.toNat) :
    input.counts year = true ↔ input.status = STATUS_QUALIFIED ∧ input.sourceFinal = true ∧
      isInYear input.exDate year = true := by
  have hdated : isInYear input.exDate year = true → input.exDate ≠ 0 := by
    intro hin hzero
    rw [isInYear, hzero, beq_iff_eq, ← UInt32.toNat_inj, UInt16.toNat_toUInt32] at hin
    have hzero' : ((0 : UInt32) / 10000).toNat = 0 := by decide
    omega
  simp only [counts, isResolved, Bool.and_eq_true, Bool.or_eq_true, beq_iff_eq, bne_iff_ne]
  refine ⟨fun ⟨⟨⟨⟨_, hfinal⟩, _⟩, hstatus⟩, hin⟩ => ⟨hstatus, hfinal, hin⟩, ?_⟩
  rintro ⟨hstatus, hfinal, hin⟩
  exact ⟨⟨⟨⟨.inl (.inl hstatus), hfinal⟩, hdated hin⟩, hstatus⟩, hin⟩

/-! ## Counting heads -/

/-- The number of heads that pass a test. -/
def CountsHeads (heads : Bytes32 → Option EventHead) (p : EventHead → Bool) (n : Nat) : Prop :=
  HasTotal (fun id => ((heads id).any p).toNat) n

theorem CountsHeads.update {heads : Bytes32 → Option EventHead} {p : EventHead → Bool} {n : Nat}
    (h : CountsHeads heads p n) (id : Bytes32) (head : EventHead) :
    CountsHeads (Function.update heads id (some head)) p
      (n - ((heads id).any p).toNat + (p head).toNat) := by
  have hset :=
    HasTotal.set h (g := fun id' => ((Function.update heads id (some head) id').any p).toNat)
    id fun id' hne => by rw [Function.update_of_ne hne]
  simpa [CountsHeads] using hset

/-- What a head counts for is at most what all heads count for. -/
theorem CountsHeads.le {heads : Bytes32 → Option EventHead} {p : EventHead → Bool} {n : Nat}
    (h : CountsHeads heads p n) (id : Bytes32) : ((heads id).any p).toNat ≤ n := HasTotal.le h id

/-- A counter that is zero has nothing to count. -/
theorem CountsHeads.of_zero {heads : Bytes32 → Option EventHead} {p : EventHead → Bool}
    (h : CountsHeads heads p 0) {id : Bytes32} {head : EventHead} (hhead : heads id = some head) :
    p head = false := by
  have hle := h.le id
  rw [hhead, Option.any_some] at hle
  cases hp : p head with
  | false => rfl
  | true =>
    rw [hp] at hle
    exact absurd hle (by decide)

/-! ## The invariant -/

/-- The counters are exact, indices are distinct, and heads agree with their latest records. -/
structure Journaled (b : Books) : Prop where
  events : CountsHeads b.heads (fun _ => true) b.series.eventCount.toNat
  unresolved : CountsHeads b.heads (fun h => !h.latestResolved) b.series.unresolvedCount.toNat
  qualified : CountsHeads b.heads EventHead.latestInYearQualified
    b.series.inYearQualifiedCount.toNat
  limit : b.series.eventCount.toNat ≤ 64
  index_lt : ∀ {id h}, b.heads id = some h → h.index.toNat < b.series.eventCount.toNat
  index_inj : ∀ {id id' h h'}, b.heads id = some h → b.heads id' = some h' →
    h.index = h'.index → id = id'
  latest : ∀ {id h}, b.heads id = some h → ∃ r, b.revisions id h.latestRevision = some r ∧
    r.recordHash = h.latestRecordHash ∧ ∃ clock, validateEventInput r.toInput b.series.year clock =
      .ok (h.latestResolved, h.latestInYearQualified)

namespace Journaled

variable {host : Host} {k : Pubkey} {b b' : Books} {c : Change}

theorem fresh (h : b.Fresh host k) : Journaled b := by
  obtain ⟨assetKey, asset, year, start, maturity, mintKey, profile, hs⟩ := h.series
  have hnone : ∀ p, CountsHeads b.heads p 0 := by
    intro p
    refine HasTotal.zero.congr fun id => ?_
    rw [h.heads id]
    rfl
  have hempty : ∀ {id head}, ¬ b.heads id = some head := by
    intro id head hhead
    cases (h.heads id).symm.trans hhead
  refine ⟨?_, ?_, ?_, ?_, fun hh => absurd hh hempty, fun hh => absurd hh hempty,
    fun hh => absurd hh hempty⟩
  · rw [hs]
    exact hnone _
  · rw [hs]
    exact hnone _
  · rw [hs]
    exact hnone _
  · rw [hs]
    exact Nat.zero_le _

/-- A step that leaves journal and counters alone. -/
theorem congr (h : Journaled b) (hheads : b'.heads = b.heads)
    (hrevisions : b'.revisions = b.revisions)
    (hevents : b'.series.eventCount = b.series.eventCount)
    (hunresolved : b'.series.unresolvedCount = b.series.unresolvedCount)
    (hqualified : b'.series.inYearQualifiedCount = b.series.inYearQualifiedCount)
    (hyear : b'.series.year = b.series.year) : Journaled b' := by
  refine ⟨?_, ?_, ?_, ?_, ?_, ?_, ?_⟩
  · rw [hheads, hevents]
    exact h.events
  · rw [hheads, hunresolved]
    exact h.unresolved
  · rw [hheads, hqualified]
    exact h.qualified
  · rw [hevents]
    exact h.limit
  · rw [hheads, hevents]
    exact h.index_lt
  · rw [hheads]
    exact h.index_inj
  · rw [hheads, hrevisions, hyear]
    exact h.latest

/-- No counter exceeds the event count. -/
theorem counts_le (h : Journaled b) {p : EventHead → Bool} {n : Nat}
    (hp : CountsHeads b.heads p n) :
    n ≤ b.series.eventCount.toNat := by
  refine HasTotal.mono hp h.events fun id => ?_
  cases hh : b.heads id with
  | none => exact le_rfl
  | some head =>
    rw [Option.any_some, Option.any_some, Bool.toNat_true]
    exact Bool.toNat_le _

/-- What a revised head gives back is what it was counted for. -/
theorem old_flag (b : Books) (id : Bytes32) (p : EventHead → Bool) :
    (!b.isNew id && p (b.headOf id)) = (b.heads id).any p := by
  rw [Books.isNew, Books.headOf]
  cases b.heads id <;> rfl

/-- **The counter updates never fail.** -/
theorem exists_updateCounters (h : Journaled b) (id : Bytes32) (resolved inYear : Bool) :
    ∃ s, updateCounters b.series (b.headOf id) (b.isNew id) resolved inYear = .ok s := by
  have hbyte : ∀ {n : Nat}, n < 256 → ∃ x : UInt8, x.toNat = n :=
    fun hn => ⟨UInt8.ofNat _, UInt8.toNat_ofNat_of_lt hn⟩
  have hle := h.limit
  have hu := h.counts_le h.unresolved
  have hq := h.counts_le h.qualified
  have hu' := h.unresolved.le id
  have hq' := h.qualified.le id
  rw [← old_flag b id] at hu' hq'
  have hone : ∀ x : Bool, x.toNat ≤ 1 := Bool.toNat_le
  have hr := hone (!resolved)
  have hi := hone inYear
  have hevents : b.series.eventCount.toNat + (b.isNew id).toNat < 256 := by
    have := hone (b.isNew id)
    omega
  obtain ⟨events, hevents'⟩ := hbyte hevents
  obtain ⟨um, hum⟩ := hbyte (show b.series.unresolvedCount.toNat -
    (!b.isNew id && !(b.headOf id).latestResolved).toNat < 256 by omega)
  obtain ⟨qm, hqm⟩ := hbyte (show b.series.inYearQualifiedCount.toNat -
    (!b.isNew id && (b.headOf id).latestInYearQualified).toNat < 256 by omega)
  obtain ⟨u, hu''⟩ := hbyte (show um.toNat + (!resolved).toNat < 256 by omega)
  obtain ⟨q, hq''⟩ := hbyte (show qm.toNat + inYear.toNat < 256 by omega)
  exact ⟨_,
    updateCounters_eq_ok.mpr ⟨events, u, um, q, qm, hevents', by omega, by omega, hu'', hq'', rfl⟩⟩

/-- **One step** keeps the journal exact. -/
theorem step (h : Journaled b) (hstep : b.Step host k c b') : Journaled b' := by
  cases hstep with
  | @record input resolved inYear s jv v phase numbered valid later limit unused counted hjv hv =>
    obtain ⟨events, u, um, q, qm, hevents, hum, hqm, hu, hq, rfl⟩ := updateCounters_eq_ok.mp counted
    have hnew : b.isNew input.eventId = true ↔ b.heads input.eventId = none :=
      Option.isNone_iff_eq_none
    -- The flag of the old head is taken off and that of the new one put on, so the count of all
    -- heads rises exactly by one for a new event.
    have hcounted : ∀ {n : Nat} {isNew : Bool}, (!isNew).toNat ≤ n →
        n + isNew.toNat = n - (!isNew).toNat + 1 := by
      rintro n (_ | _) hle
      · exact (Nat.sub_add_cancel hle).symm
      · rfl
    have hall : (b.heads input.eventId).any (fun _ => true) = !b.isNew input.eventId := by
      rw [← old_flag b _ fun _ => true, Bool.and_true]
    rw [old_flag b _ fun h => !h.latestResolved] at hum
    rw [old_flag b _ EventHead.latestInYearQualified] at hqm
    -- The index written is the next one for a new event, its own for an old one: no other head's.
    have hindex : ∀ {id head}, id ≠ input.eventId → b.heads id = some head →
        head.index ≠ if b.isNew input.eventId then b.series.eventCount
          else (b.headOf input.eventId).index := by
      intro id head hne hhead heq
      split at heq
      · have := h.index_lt hhead
        rw [heq] at this
        exact lt_irrefl _ this
      · rename_i hold
        obtain ⟨head', hhead'⟩ := Option.ne_none_iff_exists'.mp fun hnone => hold (hnew.mpr hnone)
        rw [Books.headOf, hhead', Option.getD_some] at heq
        exact hne (h.index_inj hhead hhead' heq)
    refine ⟨?_, ?_, ?_, ?_, ?_, ?_, ?_⟩
    · have hcount := h.events.update input.eventId (recordedHead host k b.series
        (b.headOf input.eventId) (b.isNew input.eventId) input resolved inYear)
      convert hcount using 1
      have hle := h.events.le input.eventId
      rw [hall] at hle ⊢
      exact hevents.trans (hcounted hle)
    · have hcount := h.unresolved.update input.eventId (recordedHead host k b.series
        (b.headOf input.eventId) (b.isNew input.eventId) input resolved inYear)
      convert hcount using 1
      change u.toNat = _
      rw [hu, hum, Nat.add_sub_cancel]
      rfl
    · have hcount := h.qualified.update input.eventId (recordedHead host k b.series
        (b.headOf input.eventId) (b.isNew input.eventId) input resolved inYear)
      convert hcount using 1
      change q.toNat = _
      rw [hq, hqm, Nat.add_sub_cancel]
      rfl
    · change events.toNat ≤ 64
      rw [hevents]
      cases hcase : b.isNew input.eventId with
      | true =>
        have hlt := UInt8.lt_iff_toNat_lt.mp (limit (hnew.mp hcase))
        exact hlt
      | false => exact h.limit
    · intro id head hhead
      change head.index.toNat < events.toNat
      change Function.update b.heads input.eventId _ id = some head at hhead
      rw [hevents]
      by_cases hid : id = input.eventId
      · subst hid
        rw [Function.update_self, Option.some.injEq] at hhead
        subst hhead
        simp only [recordedHead]
        split
        · rename_i hcase
          rw [hcase]
          exact Nat.lt_succ_self _
        · rename_i hold
          obtain ⟨head', hhead'⟩ := Option.ne_none_iff_exists'.mp fun hnone => hold (hnew.mpr hnone)
          rw [Books.headOf, hhead', Option.getD_some]
          exact Nat.lt_add_right _ (h.index_lt hhead')
      · rw [Function.update_of_ne hid] at hhead
        exact Nat.lt_add_right _ (h.index_lt hhead)
    · intro id id' head head' hhead hhead' heq
      change Function.update b.heads input.eventId _ id = some head at hhead
      change Function.update b.heads input.eventId _ id' = some head' at hhead'
      by_cases hid : id = input.eventId
      · by_cases hid' : id' = input.eventId
        · rw [hid, hid']
        · rw [hid, Function.update_self, Option.some.injEq] at hhead
          rw [Function.update_of_ne hid'] at hhead'
          subst hhead
          exact absurd heq.symm (hindex hid' hhead')
      · by_cases hid' : id' = input.eventId
        · rw [hid', Function.update_self, Option.some.injEq] at hhead'
          rw [Function.update_of_ne hid] at hhead
          subst hhead'
          exact absurd heq (hindex hid hhead)
        · rw [Function.update_of_ne hid] at hhead
          rw [Function.update_of_ne hid'] at hhead'
          exact h.index_inj hhead hhead' heq
    · intro id head hhead
      change Function.update b.heads input.eventId _ id = some head at hhead
      change ∃ r, b.putRevision input.eventId input.revision _ id head.latestRevision = some r ∧ _
      by_cases hid : id = input.eventId
      · subst hid
        rw [Function.update_self, Option.some.injEq] at hhead
        subst hhead
        refine ⟨recordedRevision host k (b.headOf input.eventId) (b.isNew input.eventId) input, ?_,
          rfl, valid⟩
        rw [Books.putRevision, Function.update_self]
        exact Function.update_self ..
      · rw [Function.update_of_ne hid] at hhead
        obtain ⟨r, hr, hrest⟩ := h.latest hhead
        refine ⟨r, ?_, hrest⟩
        rw [Books.putRevision, Function.update_of_ne hid]
        exact hr
  | begin _ _ _ _ => exact h.congr rfl rfl rfl rfl rfl rfl
  | accumulate _ _ _ _ _ _ _ _ => exact h.congr rfl rfl rfl rfl rfl rfl
  | complete _ _ _ _ _ _ => exact h.congr rfl rfl rfl rfl rfl rfl
  | abort _ _ => exact h.congr rfl rfl rfl rfl rfl rfl
  | @redeem side _ _ _ _ _ _ _ _ _ _ _ _ _ _ _ _ =>
    cases side <;> exact h.congr rfl rfl rfl rfl rfl rfl
  | _ => exact h.congr rfl rfl rfl rfl rfl rfl

/-- Every index below the event count belongs to a head. -/
theorem exists_index (h : Journaled b) {i : Nat} (hi : i < b.series.eventCount.toNat) :
    ∃ id head, b.heads id = some head ∧ head.index.toNat = i := by
  obtain ⟨ids, hids, hcard⟩ := HasTotal.exists_card h.events
  have hhead : ∀ id ∈ ids, ∃ head, b.heads id = some head := by
    intro id hid
    have hany := (hids id).mp hid
    cases hh : b.heads id with
    | none =>
      rw [hh] at hany
      cases hany
    | some head => exact ⟨head, rfl⟩
  -- an injection of `n` heads into the indices below `n` reaches all of them
  have hsurj : Set.SurjOn (fun id => (b.headOf id).index.toNat) ids
      (Finset.range b.series.eventCount.toNat) := by
    refine Finset.surjOn_of_injOn_of_card_le _ ?_ ?_ (by rw [Finset.card_range, hcard])
    · intro id hid
      obtain ⟨head, hh⟩ := hhead id hid
      simp only [Finset.coe_range, Set.mem_Iio, Books.headOf, hh, Option.getD_some]
      exact h.index_lt hh
    · intro id hid id' hid' heq
      obtain ⟨head, hh⟩ := hhead id hid
      obtain ⟨head', hh'⟩ := hhead id' hid'
      simp only [Books.headOf, hh, hh', Option.getD_some] at heq
      exact h.index_inj hh hh' (UInt8.toNat_inj.mp heq)
  obtain ⟨id, hid, hindex⟩ := hsurj (by rw [Finset.coe_range]; exact hi)
  obtain ⟨head, hh⟩ := hhead id hid
  refine ⟨id, head, hh, ?_⟩
  rw [← hindex]
  simp only [Books.headOf, hh, Option.getD_some]

end Journaled

/-! ## Whole histories -/

namespace World

open Binary64

variable {host : Host} {w₀ w : World} {k key : Pubkey} {s : Series} {b : Books} {tr : List Action}

/-- The event at an address belongs to the series and counts for its year: its latest record is
qualified, final at its source and dated inside the year. -/
def Counts (w : World) (k : Pubkey) (year : UInt16) (key : Pubkey) : Prop :=
  ∃ head r, w.heads key = some head ∧ head.series = k ∧
    w.revisions (.revision key head.latestRevision) = some r ∧ r.status = STATUS_QUALIFIED ∧
    r.sourceFinal = true ∧ isInYear r.exDate year = true

/-- The exact ratio of the multipliers of the latest record at an address. -/
def factor (w : World) (key : Pubkey) : ℚ :=
  ((w.heads key).bind fun head => w.revisions (.revision key head.latestRevision)).elim 1
    fun r => value r.m0Bits / value r.m1Bits

theorem History.journaled (h : History host w₀ tr w) (hb : w.books k = some b) : Journaled b := by
  refine h.rec_books hb (P := fun _ _ b => Journaled b) ?_ ?_
  · intro tr a w w' b _ _ _ hfresh _ _
    exact Journaled.fresh hfresh
  · intro tr w a w' b c b' _ _ hP _ _ hstep _
    exact hP.step hstep

/-- The heads of a series are the ones at the addresses derived from it. -/
theorem Linked.head_iff (hl : w.Linked) {head : EventHead} :
    (w.heads key = some head ∧ head.series = k) ↔
      ∃ id, key = .event k id ∧ w.heads (.event k id) = some head := by
  refine ⟨?_, ?_⟩
  · rintro ⟨hhead, rfl⟩
    obtain ⟨rfl, -⟩ := hl.heads hhead
    exact ⟨head.eventId, rfl, hhead⟩
  · rintro ⟨id, rfl, hhead⟩
    obtain ⟨hkey, -⟩ := hl.heads hhead
    cases hkey
    exact ⟨hhead, rfl⟩

theorem books_heads (hb : w.books k = some b) (id : Bytes32) :
    b.heads id = w.heads (.event k id) := by
  obtain ⟨s, a, -, -, rfl⟩ := books_eq_some.mp hb
  rfl

theorem books_revisions (hb : w.books k = some b) (id : Bytes32) (n : UInt64) :
    b.revisions id n = w.revisions (.revision (.event k id) n) := by
  obtain ⟨s, a, -, -, rfl⟩ := books_eq_some.mp hb
  rfl

/-- The year of a series is an admitted one. -/
theorem Linked.year_ge (hl : w.Linked) (hs : w.series k = some s) : 2020 ≤ s.year.toNat :=
  (yearBounds_eq_ok (hl.series hs).bounds).1

/-- The cached flag of a head says whether its event counts. -/
theorem counts_iff_flag (h : History host w₀ tr w) (hs : w.series k = some s) :
    w.Counts k s.year key ↔ ∃ head, w.heads key = some head ∧ head.series = k ∧
      head.latestInYearQualified = true := by
  have hl := h.linked
  obtain ⟨b, hb, rfl⟩ := hl.exists_books hs
  have hj := h.journaled hb
  have hlatest : ∀ {head}, w.heads key = some head → head.series = k →
      ∃ r, w.revisions (.revision key head.latestRevision) = some r ∧
        (head.latestInYearQualified = true ↔ r.status = STATUS_QUALIFIED ∧ r.sourceFinal = true ∧
          isInYear r.exDate b.series.year = true) := by
    intro head hhead hseries
    obtain ⟨id, rfl, hhead'⟩ := hl.head_iff.mp ⟨hhead, hseries⟩
    rw [← books_heads hb id] at hhead'
    obtain ⟨r, hr, -, clock, hvalid⟩ := hj.latest hhead'
    rw [books_revisions hb] at hr
    refine ⟨r, hr, ?_⟩
    rw [(validateEventInput_ok hvalid).2.1, EventInput.counts_iff (hl.year_ge hs)]
    rfl
  refine ⟨?_, ?_⟩
  · rintro ⟨head, r, hhead, hseries, hr, hcounts⟩
    obtain ⟨r', hr', hiff⟩ := hlatest hhead hseries
    cases hr.symm.trans hr'
    exact ⟨head, hhead, hseries, hiff.mpr hcounts⟩
  · rintro ⟨head, hhead, hseries, hflag⟩
    obtain ⟨r, hr, hiff⟩ := hlatest hhead hseries
    exact ⟨head, r, hhead, hseries, hr, hiff.mp hflag⟩

/-- A counter of the books counts accounts on chain. -/
theorem exists_headKeys (hl : w.Linked) (hb : w.books k = some b) {p : EventHead → Bool} {n : Nat}
    (hp : CountsHeads b.heads p n) :
    ∃ keys : Finset Pubkey, (∀ key, key ∈ keys ↔
      ∃ head, w.heads key = some head ∧ head.series = k ∧ p head = true) ∧ keys.card = n := by
  obtain ⟨ids, hids, hcard⟩ := HasTotal.exists_card hp
  have hinj : Function.Injective (Pubkey.event k) := by
    intro id id' heq
    cases heq
    rfl
  refine ⟨ids.map ⟨Pubkey.event k, hinj⟩, fun key => ?_, by rw [Finset.card_map, hcard]⟩
  rw [Finset.mem_map]
  refine ⟨?_, ?_⟩
  · rintro ⟨id, hid, rfl⟩
    rw [hids, books_heads hb, Option.any_eq_true] at hid
    obtain ⟨head, hhead, htest⟩ := hid
    obtain ⟨hhead', hseries⟩ := hl.head_iff.mpr ⟨id, rfl, hhead⟩
    exact ⟨head, hhead', hseries, htest⟩
  · rintro ⟨head, hhead, hseries, htest⟩
    obtain ⟨id, rfl, hhead'⟩ := hl.head_iff.mp ⟨hhead, hseries⟩
    refine ⟨id, ?_, rfl⟩
    rw [hids, books_heads hb, hhead']
    exact htest

/-- The index stored at an address. -/
def indexAt (w : World) (key : Pubkey) : Nat := (w.heads key).elim 0 fun head => head.index.toNat

/-- The indices of the heads of a series are the numbers below its event count. -/
theorem bijOn_indexAt (hl : w.Linked) (hb : w.books k = some b) (hj : Journaled b)
    {keys : Finset Pubkey} (hkeys : ∀ key, key ∈ keys ↔
      ∃ head, w.heads key = some head ∧ head.series = k) :
    Set.BijOn w.indexAt keys (Set.Iio b.series.eventCount.toNat) := by
  have hmem : ∀ {key}, key ∈ keys → ∃ id head, key = .event k id ∧ b.heads id = some head ∧
      w.indexAt key = head.index.toNat := by
    intro key hkey
    obtain ⟨head, hhead, hseries⟩ := (hkeys key).mp hkey
    obtain ⟨id, rfl, hhead'⟩ := hl.head_iff.mp ⟨hhead, hseries⟩
    refine ⟨id, head, rfl, (books_heads hb id).trans hhead', ?_⟩
    rw [indexAt, hhead]
    rfl
  refine ⟨fun key hkey => ?_, fun key hkey key' hkey' heq => ?_, fun i hi => ?_⟩
  · obtain ⟨id, head, -, hhead, hindex⟩ := hmem hkey
    rw [Set.mem_Iio, hindex]
    exact hj.index_lt hhead
  · obtain ⟨id, head, rfl, hhead, hindex⟩ := hmem hkey
    obtain ⟨id', head', rfl, hhead', hindex'⟩ := hmem hkey'
    rw [hindex, hindex', UInt8.toNat_inj] at heq
    rw [hj.index_inj hhead hhead' heq]
  · obtain ⟨id, head, hhead, hindex⟩ := hj.exists_index hi
    rw [books_heads hb] at hhead
    refine ⟨.event k id, (hkeys _).mpr ⟨head, hl.head_iff.mpr ⟨id, rfl, hhead⟩⟩, ?_⟩
    rw [indexAt, hhead]
    exact hindex

/-- An event without a head and one whose head was never written look the same to `upsert_event`. -/
theorem isNew_eq (hl : w.Linked) (hs : w.series k = some s) (hb : w.books k = some b)
    (id : Bytes32) :
    decide (((w.heads (.event k id)).getD .zeroed).series = .default) = b.isNew id := by
  rw [Books.isNew, books_heads hb]
  cases hhead : w.heads (.event k id) with
  | none => rfl
  | some head =>
    obtain ⟨-, hseries⟩ := hl.head_iff.mpr ⟨id, rfl, hhead⟩
    have hkey := (hl.series hs).key
    refine decide_eq_false ?_
    rw [Option.getD_some, hseries, hkey]
    exact fun heq => by cases heq

/-- **The journal is exact.** The event count is the number of heads and at most 64, their indices
are the numbers below it, the other two counters count the flags of the heads, every head caches
the flags validation assigns to its latest record, and the counter updates of `upsert_event` never
fail. So whenever a deposit succeeds every event is resolved and the product over the events that
count is empty. -/
theorem journal_exact (h : History host w₀ tr w) (hs : w.series k = some s) :
    (∃ keys : Finset Pubkey,
      (∀ key, key ∈ keys ↔ ∃ head, w.heads key = some head ∧ head.series = k) ∧
      keys.card = s.eventCount.toNat ∧ s.eventCount.toNat ≤ 64 ∧
      Set.BijOn w.indexAt keys (Set.Iio s.eventCount.toNat)) ∧
    (∃ keys : Finset Pubkey, (∀ key, key ∈ keys ↔
      ∃ head, w.heads key = some head ∧ head.series = k ∧ head.latestResolved = false) ∧
      keys.card = s.unresolvedCount.toNat) ∧
    (∃ keys : Finset Pubkey, (∀ key, key ∈ keys ↔
      ∃ head, w.heads key = some head ∧ head.series = k ∧ head.latestInYearQualified = true) ∧
      keys.card = s.inYearQualifiedCount.toNat) ∧
    (∀ key head, w.heads key = some head → head.series = k → ∃ r,
      w.revisions (.revision key head.latestRevision) = some r ∧
      (∃ clock flags, validateEventInput r.toInput s.year clock = .ok flags) ∧
      ∀ clock flags, validateEventInput r.toInput s.year clock = .ok flags →
        flags = (head.latestResolved, head.latestInYearQualified)) ∧
    (∀ id resolved inYear, ∃ s', updateCounters s ((w.heads (.event k id)).getD .zeroed)
      (decide (((w.heads (.event k id)).getD .zeroed).series = .default)) resolved inYear =
        .ok s') ∧
    ∀ acc amount guard w', acc.series = k → deposit host w acc amount guard = .ok w' →
      (∀ key head, w.heads key = some head → head.series = k → head.latestResolved = true) ∧
      ∃ keys : Finset Pubkey, (∀ key, key ∈ keys ↔ w.Counts k s.year key) ∧
        ∏ key ∈ keys, w.factor key = 1 := by
  have hl := h.linked
  obtain ⟨b, hb, rfl⟩ := hl.exists_books hs
  have hj := h.journaled hb
  refine ⟨?_, ?_, ?_, ?_, ?_, ?_⟩
  · obtain ⟨keys, hkeys, hcard⟩ := exists_headKeys hl hb hj.events
    simp only [and_true] at hkeys
    exact ⟨keys, hkeys, hcard, hj.limit, bijOn_indexAt hl hb hj hkeys⟩
  · obtain ⟨keys, hkeys, hcard⟩ := exists_headKeys hl hb hj.unresolved
    simp only [Bool.not_eq_true'] at hkeys
    exact ⟨keys, hkeys, hcard⟩
  · exact exists_headKeys hl hb hj.qualified
  · intro key head hhead hseries
    obtain ⟨id, rfl, hhead'⟩ := hl.head_iff.mp ⟨hhead, hseries⟩
    rw [← books_heads hb] at hhead'
    obtain ⟨r, hr, -, clock, hvalid⟩ := hj.latest hhead'
    rw [books_revisions hb] at hr
    refine ⟨r, hr, ⟨clock, _, hvalid⟩, ?_⟩
    rintro clock' ⟨resolved, inYear⟩ hvalid'
    obtain ⟨hresolved, hinYear, -⟩ := validateEventInput_ok hvalid
    obtain ⟨hresolved', hinYear', -⟩ := validateEventInput_ok hvalid'
    rw [hresolved, hinYear, hresolved', hinYear']
  · intro id resolved inYear
    rw [isNew_eq hl hs hb, ← books_heads hb]
    exact hj.exists_updateCounters id resolved inYear
  · rintro acc amount guard w' rfl hx
    obtain ⟨L, hL, hp, -⟩ := deposit_eq_ok.mp hx
    have hseries : b.series = L.series := Option.some.inj (hs.symm.trans hL.series)
    have hjournal := hp.journal
    rw [← hseries, fundingJournalOpen, Bool.and_eq_true, beq_iff_eq, beq_iff_eq] at hjournal
    obtain ⟨hunresolved, hqualified⟩ := hjournal
    -- A deposit finds both counters at zero, so no head carries either flag.
    have hu : CountsHeads b.heads (fun h => !h.latestResolved) 0 := by
      have := hj.unresolved
      rwa [hunresolved] at this
    have hq : CountsHeads b.heads EventHead.latestInYearQualified 0 := by
      have := hj.qualified
      rwa [hqualified] at this
    have hevent : ∀ {key head}, w.heads key = some head → head.series = acc.series →
        ∃ id, b.heads id = some head := by
      intro key head hhead hof
      obtain ⟨id, -, hhead'⟩ := hl.head_iff.mp ⟨hhead, hof⟩
      exact ⟨id, (books_heads hb id).trans hhead'⟩
    refine ⟨fun key head hhead hof => ?_, ∅, fun key => ?_, Finset.prod_empty⟩
    · obtain ⟨id, hhead'⟩ := hevent hhead hof
      have := hu.of_zero hhead'
      rwa [Bool.not_eq_false'] at this
    · rw [counts_iff_flag h hs]
      refine ⟨fun hin => absurd hin (Finset.notMem_empty key), ?_⟩
      rintro ⟨head, hhead, hof, hflag⟩
      obtain ⟨id, hhead'⟩ := hevent hhead hof
      rw [hq.of_zero hhead'] at hflag
      cases hflag

/-- The sample has one head after its event, and its deposit came before any event counted. -/
theorem journal_exact_sample :
    (∃ s, (Sample.world 9).series Sample.seriesKey = some s ∧ s.inYearQualifiedCount = 1 ∧
      ∃ keys : Finset Pubkey, (∀ key, key ∈ keys ↔ ∃ head, (Sample.world 9).heads key = some head ∧
        head.series = Sample.seriesKey) ∧ keys.card = 1) ∧
    ∃ s w', (Sample.world 6).series Sample.seriesKey = some s ∧
      deposit Sample.host (Sample.world 6) Sample.pair 100000 (Sample.guard 0) = .ok w' ∧
      ∃ keys : Finset Pubkey, (∀ key, key ∈ keys ↔
        (Sample.world 6).Counts Sample.seriesKey s.year key) ∧
        ∏ key ∈ keys, (Sample.world 6).factor key = 1 := by
  refine ⟨?_, ?_⟩
  · obtain ⟨s, hs, hfacts⟩ := @Sample.series_of_any 9 (fun s => decide (s.eventCount = 1 ∧
      s.inYearQualifiedCount = 1)) (by decide +kernel)
    obtain ⟨hcount, hqualified⟩ := of_decide_eq_true hfacts
    obtain ⟨⟨keys, hkeys, hcard, -⟩, -⟩ := journal_exact (Sample.history 9) hs
    refine ⟨s, hs, hqualified, keys, hkeys, ?_⟩
    rw [hcard, hcount]
    rfl
  · obtain ⟨s, hs, -⟩ := @Sample.series_of_any 6 (fun _ => true) (by decide +kernel)
    have hok :
        (deposit Sample.host (Sample.world 6) Sample.pair 100000 (Sample.guard 0)).toOption.isSome =
        true := by decide +kernel
    obtain ⟨w', hw'⟩ := Option.isSome_iff_exists.mp hok
    have hx := Result.toOption_eq_some.mp hw'
    exact ⟨s, w', hs, hx, ((journal_exact (Sample.history 6) hs).2.2.2.2.2 Sample.pair 100000
      (Sample.guard 0) w' rfl hx).2⟩

end World

end DividendX
