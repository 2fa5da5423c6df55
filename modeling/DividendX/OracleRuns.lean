import DividendX.Finalization
import DividendX.Oracle
import DividendX.Redemption

/-!
# The oracle along a history

What the protocol tests check on single runs, for all of them: at every cursor the stored fraction
is the oracle's unreduced product of the events that count below it, in whatever order the oracle
takes them; the final pools are the oracle's pools of its reduced product; and what was paid on a
side is the oracle's cumulative payout.

`Priced` is the invariant behind it. It is about exact products, where `Staged` only speaks of their
ratio, and it outlives the completion.
-/

namespace DividendX

open LittleEndian Binary64

namespace Books

/-- The multipliers an event contributes: those of its latest record, if it counts. -/
def multipliers (b : Books) (id : Bytes32) : Option (UInt64 × UInt64) :=
  (b.heads id).bind fun head =>
    if head.latestInYearQualified then
      (b.revisions id head.latestRevision).map fun r => (r.m0Bits, r.m1Bits)
    else none

/-- What an event multiplies the two parts by. -/
def parts (b : Books) (id : Bytes32) : Nat × Nat :=
  (b.multipliers id).elim (1, 1) fun e => (numeratorFactor e.1 e.2, denominatorFactor e.1 e.2)

/-- A list of the events that count below the cursor, each once. -/
structure Counted (b : Books) (ids : List Bytes32) : Prop where
  nodup : ids.Nodup
  mem : ∀ id, id ∈ ids ↔ (b.multipliers id).isSome = true ∧
    ∃ head, b.heads id = some head ∧ head.index.toNat < b.accumulator.cursor.toNat

/-- The multipliers of a list of events. -/
def eventsOf (b : Books) (ids : List Bytes32) : List (UInt64 × UInt64) :=
  ids.filterMap b.multipliers

variable {b b' : Books} {id : Bytes32} {head : EventHead} {r : EventRevision}

theorem multipliers_of_latest (hhead : b.heads id = some head)
    (hr : b.revisions id head.latestRevision = some r) :
    b.multipliers id = if head.latestInYearQualified then some (r.m0Bits, r.m1Bits) else none := by
  rw [multipliers, hhead, Option.bind_some, hr, Option.map_some]

theorem multipliers_congr (hheads : b'.heads = b.heads) (hrevisions : b'.revisions = b.revisions) :
    b'.multipliers = b.multipliers := by
  funext id
  rw [multipliers, multipliers, hheads, hrevisions]

/-- An event that counts was admitted with its multipliers. -/
theorem qualified_of_multipliers (hj : Journaled b) {e : UInt64 × UInt64}
    (h : b.multipliers id = some e) : Qualified e.1 e.2 := by
  obtain ⟨head, hhead, hsome⟩ := Option.bind_eq_some_iff.mp h
  obtain ⟨r, hr, -, clock, hvalid⟩ := hj.latest hhead
  obtain ⟨-, hcounts, hqualified⟩ := validateEventInput_ok hvalid
  cases hflag : head.latestInYearQualified with
  | false =>
    rw [hflag, if_neg (by decide)] at hsome
    cases hsome
  | true =>
    rw [hflag, if_pos rfl, hr, Option.map_some, Option.some.injEq] at hsome
    subst hsome
    refine hqualified ?_
    have hall := hcounts.symm.trans hflag
    simp only [EventInput.counts, Bool.and_eq_true, beq_iff_eq] at hall
    exact hall.1.2

/-- The events that count are among at most 64. -/
theorem Counted.length_le (hj : Journaled b) {ids : List Bytes32} (h : b.Counted ids) :
    ids.length ≤ 64 := by
  obtain ⟨all, hall, hcard⟩ := HasTotal.exists_card hj.events
  rw [← List.toFinset_card_of_nodup h.nodup]
  refine (Finset.card_le_card fun id hid => ?_).trans (hcard.trans_le hj.limit)
  obtain ⟨-, head, hhead, -⟩ := (h.mem id).mp (List.mem_toFinset.mp hid)
  rw [hall, hhead]
  rfl

theorem Counted.qualified (hj : Journaled b) (ids : List Bytes32) :
    ∀ e ∈ b.eventsOf ids, Qualified e.1 e.2 := by
  intro e he
  obtain ⟨id, -, hid⟩ := List.mem_filterMap.mp he
  exact qualified_of_multipliers hj hid

/-- The products over the events below the cursor run over a list of those that count. -/
theorem Counted.prod_parts {ids : List Bytes32} (h : b.Counted ids) {below : Finset Bytes32}
    (hbelow : b.Below b.accumulator.cursor.toNat below) :
    ∏ id ∈ below, (b.parts id).1 = ((b.eventsOf ids).map fun e => numeratorFactor e.1 e.2).prod ∧
      ∏ id ∈ below, (b.parts id).2 =
        ((b.eventsOf ids).map fun e => denominatorFactor e.1 e.2).prod := by
  have hlist : ∀ (f : UInt64 × UInt64 → Nat) (g : Bytes32 → Nat),
      (∀ id, g id = (b.multipliers id).elim 1 f) →
      ∏ id ∈ below, g id = ((b.eventsOf ids).map f).prod := by
    intro f g hg
    have hsub : ids.toFinset ⊆ below := by
      intro id hid
      exact (hbelow id).mpr ((h.mem id).mp (List.mem_toFinset.mp hid)).2
    have hone : ∀ id ∈ below, id ∉ ids.toFinset → g id = 1 := by
      intro id hin hout
      rw [hg]
      cases hm : b.multipliers id with
      | none => rfl
      | some e =>
        refine absurd (List.mem_toFinset.mpr ((h.mem id).mpr ⟨?_, (hbelow id).mp hin⟩)) hout
        rw [hm]
        rfl
    rw [← Finset.prod_subset hsub hone, List.prod_toFinset g h.nodup, eventsOf]
    -- along the list every event has multipliers
    have hall : ∀ id ∈ ids, (b.multipliers id).isSome = true := fun id hid => ((h.mem id).mp hid).1
    clear hsub hone h hbelow
    induction ids with
    | nil => rfl
    | cons id ids ih =>
      obtain ⟨hid, hrest⟩ := List.forall_mem_cons.mp hall
      obtain ⟨e, he⟩ := Option.isSome_iff_exists.mp hid
      rw [List.map_cons, List.prod_cons, ih hrest, List.filterMap_cons_some he, List.map_cons,
        List.prod_cons, hg, he]
      rfl
  refine ⟨hlist _ _ fun id => ?_, hlist _ _ fun id => ?_⟩
  · rw [parts]
    cases b.multipliers id <;> rfl
  · rw [parts]
    cases b.multipliers id <;> rfl

end Books

/-! ## The invariant -/

/-- The stored fraction is the exact product below the cursor, and prices the final pools. -/
structure Priced (b : Books) : Prop where
  minimal : b.series.phase ≠ .open → b.accumulator.numerator = toBytes
    (ofBytes b.accumulator.numerator) ∧
    b.accumulator.denominator = toBytes (ofBytes b.accumulator.denominator)
  product : b.series.phase ≠ .open → ∀ ids, b.Below b.accumulator.cursor.toNat ids →
    ofBytes b.accumulator.numerator = ∏ id ∈ ids, (b.parts id).1 ∧
      ofBytes b.accumulator.denominator = ∏ id ∈ ids, (b.parts id).2
  done : b.series.phase = .finalized → b.accumulator.cursor = b.series.eventCount
  pools : b.series.phase = .finalized → splitPools b.series.finalSupply b.accumulator.numerator
    b.accumulator.denominator = .ok (b.series.ptPool, b.series.drPool)

namespace Priced

variable {host : Host} {k : Pubkey} {b b' : Books} {c : Change}

/-- An open series has nothing to price. -/
theorem of_open (hp : b.series.phase = .open) : Priced b := by
  refine ⟨fun h => absurd hp h, fun h => absurd hp h, fun h => ?_, fun h => ?_⟩
  · cases hp.symm.trans h
  · cases hp.symm.trans h

/-- A step that leaves phase, journal, fraction and pools alone. -/
theorem congr (h : Priced b) (hphase : b'.series.phase = b.series.phase)
    (hheads : b'.heads = b.heads) (hrevisions : b'.revisions = b.revisions)
    (hacc : b'.accumulator = b.accumulator) (hcount : b'.series.eventCount = b.series.eventCount)
    (hsupply : b'.series.finalSupply = b.series.finalSupply)
    (hpt : b'.series.ptPool = b.series.ptPool) (hdr : b'.series.drPool = b.series.drPool) :
    Priced b' := by
  have hparts : b'.parts = b.parts := by
    funext id
    rw [Books.parts, Books.parts, Books.multipliers_congr hheads hrevisions]
  refine ⟨?_, ?_, ?_, ?_⟩
  · rw [hphase, hacc]
    exact h.minimal
  · rw [hphase, hacc, hparts]
    intro hp ids hids
    rw [Books.Below, hheads] at hids
    exact h.product hp ids hids
  · rw [hphase, hacc, hcount]
    exact h.done
  · rw [hphase, hacc, hsupply, hpt, hdr]
    exact h.pools

/-- What one turn does to the stored parts. -/
theorem factorStep_parts {id : Bytes32} {head : EventHead} {r : EventRevision} {n d : List UInt8}
    (hhead : b.heads id = some head) (hr : b.revisions id head.latestRevision = some r)
    (h : factorStep b.accumulator head r = .ok (n, d)) :
    ofBytes n = ofBytes b.accumulator.numerator * (b.parts id).1 ∧
      ofBytes d = ofBytes b.accumulator.denominator * (b.parts id).2 ∧
      (b.accumulator.numerator = toBytes (ofBytes b.accumulator.numerator) →
        n = toBytes (ofBytes n)) ∧
      (b.accumulator.denominator = toBytes (ofBytes b.accumulator.denominator) →
        d = toBytes (ofBytes d)) := by
  rw [Books.parts, Books.multipliers_of_latest hhead hr]
  rw [factorStep] at h
  split_ifs at h ⊢ with hflag
  · obtain ⟨-, -, -, -, -, -, -, rfl, rfl⟩ := multiplyRatio_eq_ok.mp h
    rw [ofBytes_toBytes, ofBytes_toBytes]
    exact ⟨rfl, rfl, fun _ => rfl, fun _ => rfl⟩
  · rw [Result.pure_eq_ok, Prod.mk.injEq] at h
    obtain ⟨rfl, rfl⟩ := h
    exact ⟨(Nat.mul_one _).symm, (Nat.mul_one _).symm, fun hn => hn, fun hd => hd⟩

/-- The events below the next cursor are those below this one and the one at it. -/
theorem below_erase (hj : Journaled b) {id : Bytes32} {head : EventHead} {ids : Finset Bytes32}
    (hhead : b.heads id = some head) (hindex : head.index = b.accumulator.cursor)
    (hids : b.Below (b.accumulator.cursor.toNat + 1) ids) :
    id ∈ ids ∧ b.Below b.accumulator.cursor.toNat (ids.erase id) := by
  refine ⟨(hids id).mpr ⟨head, hhead, by rw [hindex]; exact Nat.lt_succ_self _⟩, fun id' => ?_⟩
  rw [Finset.mem_erase, hids]
  constructor
  · rintro ⟨hne, head', hhead', hlt⟩
    refine ⟨head', hhead', lt_of_le_of_ne (Nat.lt_succ_iff.mp hlt) fun heq => hne ?_⟩
    exact hj.index_inj hhead' hhead ((UInt8.toNat_inj.mp heq).trans hindex.symm)
  · rintro ⟨head', hhead', hlt⟩
    refine ⟨?_, head', hhead', hlt.trans (Nat.lt_succ_self _)⟩
    rintro rfl
    cases hhead.symm.trans hhead'
    rw [hindex] at hlt
    exact lt_irrefl _ hlt

/-- **One step** keeps the stored fraction exact. -/
theorem step (h : Priced b) (hj : Journaled b) (hs : b.series.phase = .sealing → Staged b)
    (hstep : b.Step host k c b') : Priced b' := by
  cases hstep with
  | idle => exact h
  | deposit _ phase _ _ _ _ _ _ _ => exact of_open phase
  | recombine _ _ _ _ _ _ _ => exact h.congr rfl rfl rfl rfl rfl rfl rfl rfl
  | record phase _ _ _ _ _ counted _ _ =>
    obtain ⟨_, _, _, _, _, -, -, -, -, -, rfl⟩ := updateCounters_eq_ok.mp counted
    exact of_open phase
  | begin _ _ _ _ =>
    have hone : ofBytes [1] = 1 := by decide
    have hbytes : [1] = toBytes (ofBytes [1]) := by decide
    refine ⟨fun _ => ⟨hbytes, hbytes⟩, fun _ ids hids => ?_, nofun, nofun⟩
    -- nothing is below the first cursor
    have hempty : ids = ∅ := by
      refine Finset.eq_empty_of_forall_notMem fun id hid => ?_
      obtain ⟨head, -, hlt⟩ := (hids id).mp hid
      exact absurd hlt (Nat.not_lt_zero _)
    rw [hempty, Finset.prod_empty, Finset.prod_empty]
    exact ⟨hone, hone⟩
  | @accumulate id head r n d cursor v phase pending hhead hindex hrevision hfactor hc hv =>
    have hp : b.series.phase ≠ .open := by
      intro ho
      cases phase.symm.trans ho
    obtain ⟨hn, hd, hmn, hmd⟩ := factorStep_parts hhead hrevision hfactor
    obtain ⟨hnum, hden⟩ := h.minimal hp
    refine ⟨fun _ => ⟨hmn hnum, hmd hden⟩, fun _ ids hids => ?_, fun hf => ?_, fun hf => ?_⟩
    · change b.Below cursor.toNat ids at hids
      rw [hc] at hids
      obtain ⟨hmem, hrest⟩ := below_erase hj hhead hindex hids
      obtain ⟨hpn, hpd⟩ := h.product hp _ hrest
      refine ⟨?_, ?_⟩
      · refine hn.trans ?_
        rw [hpn, mul_comm]
        exact Finset.mul_prod_erase ids (fun id => (b.parts id).1) hmem
      · refine hd.trans ?_
        rw [hpd, mul_comm]
        exact Finset.mul_prod_erase ids (fun id => (b.parts id).2) hmem
    · cases phase.symm.trans hf
    · cases phase.symm.trans hf
  | @complete pt dr slot v phase done _ _ pools _ =>
    have hp : b.series.phase ≠ .open := by
      intro ho
      cases phase.symm.trans ho
    exact ⟨fun _ => h.minimal hp, fun _ => h.product hp, fun _ => done.trans (hs phase).count,
      fun _ => pools⟩
  | abort _ _ => exact of_open rfl
  | @redeem side _ _ _ _ _ _ _ _ _ _ _ _ _ _ _ _ =>
    cases side <;> exact h.congr rfl rfl rfl rfl rfl rfl rfl rfl
  | burn _ => exact h.congr rfl rfl rfl rfl rfl rfl rfl rfl
  | donate _ => exact h.congr rfl rfl rfl rfl rfl rfl rfl rfl
  | seize _ => exact h.congr rfl rfl rfl rfl rfl rfl rfl rfl

end Priced

namespace World

variable {host : Host} {w₀ w : World} {k : Pubkey} {b : Books} {tr : List Action}

theorem History.priced (h : History host w₀ tr w) (hb : w.books k = some b) : Priced b := by
  refine h.rec_books hb (P := fun _ _ b => Priced b) ?_ ?_
  · intro tr a w w' b _ _ _ hfresh _ _
    obtain ⟨assetKey, asset, year, start, maturity, mintKey, profile, hs⟩ := hfresh.series
    refine Priced.of_open ?_
    rw [hs]
    rfl
  · intro tr w a w' b c b' hist hbooks hP _ _ hstep _
    exact hP.step (hist.journaled hbooks) (hist.staged hbooks) hstep

/-- The events that count below a cursor can be listed. -/
theorem exists_counted (hj : Journaled b) : ∃ ids, b.Counted ids := by
  obtain ⟨all, hall, -⟩ := HasTotal.exists_card hj.events
  refine ⟨all.toList.filter fun id => decide ((b.multipliers id).isSome = true ∧
    ∃ head, b.heads id = some head ∧ head.index.toNat < b.accumulator.cursor.toNat),
    all.nodup_toList.filter _, fun id => ?_⟩
  rw [List.mem_filter, Finset.mem_toList, decide_eq_true_eq]
  refine ⟨fun h => h.2, fun h => ⟨?_, h⟩⟩
  obtain ⟨-, head, hhead, -⟩ := h
  rw [hall, hhead]
  rfl

/-- A finalized series has every event below its cursor. -/
theorem Counted.all (hj : Journaled b) (hp : Priced b) (hfinal : b.series.phase = .finalized)
    {ids : List Bytes32} (h : b.Counted ids) (id : Bytes32) :
    id ∈ ids ↔ (b.multipliers id).isSome = true := by
  refine ⟨fun hid => ((h.mem id).mp hid).1, fun hsome => (h.mem id).mpr ⟨hsome, ?_⟩⟩
  obtain ⟨e, he⟩ := Option.isSome_iff_exists.mp hsome
  obtain ⟨head, hhead, -⟩ := Option.bind_eq_some_iff.mp he
  refine ⟨head, hhead, ?_⟩
  rw [hp.done hfinal]
  exact hj.index_lt hhead

open Oracle in
/-- **The oracle prices every run.** In every state a series reaches after its seal, take the events
that count below the cursor in any order. The oracle accepts their multipliers; its unreduced
product is the stored fraction, byte for byte. Once the series is final these are all events that
count and the pools are the oracle's pools of its reduced product; with a final supply that is not
zero, what was paid on a side is the oracle's payout for everything redeemed, and the next
redemption pays the oracle's payout. -/
theorem oracle_prices_runs (h : History host w₀ tr w) (hb : w.books k = some b)
    (hsealed : b.series.phase ≠ .open) :
    (∃ ids, b.Counted ids) ∧ ∀ ids, b.Counted ids → ∃ r u,
      accumulate (b.eventsOf ids) = .ok r ∧ accumulateUnreduced (b.eventsOf ids) = .ok u ∧
      b.accumulator.numerator = toBytes u.numerator ∧
      b.accumulator.denominator = toBytes u.denominator ∧
      (b.series.phase = .finalized →
        (∀ id, id ∈ ids ↔ (b.multipliers id).isSome = true) ∧
        Oracle.pools b.series.finalSupply r =
          .ok ⟨b.series.ptPool.toNat, b.series.drPool.toNat⟩ ∧
        ∀ side, b.series.finalSupply ≠ 0 →
          cumulativePayout 0 (b.series.redeemedNominal side) (b.series.pool side)
            b.series.finalSupply = .ok (b.series.paid side) ∧
          ∀ acc amount allowZero guard w', acc.series = k →
            redeem host w acc side amount allowZero guard = .ok w' → ∃ payout,
              cumulativePayout (b.series.redeemedNominal side) amount (b.series.pool side)
                b.series.finalSupply = .ok payout ∧
              w'.bank.balance b.series.vault + payout.toNat = w.bank.balance b.series.vault) := by
  have hj := h.journaled hb
  have hp := h.priced hb
  refine ⟨exists_counted hj, fun ids hids => ?_⟩
  have hlen : (b.eventsOf ids).length ≤ 64 :=
    (List.length_filterMap_le _ _).trans (hids.length_le hj)
  have hall := Books.Counted.qualified hj ids
  -- The heads are finitely many, so those below the cursor are a finite set.
  obtain ⟨below, hbelow⟩ : ∃ below, b.Below b.accumulator.cursor.toNat below := by
    obtain ⟨all, hmem, -⟩ := HasTotal.exists_card hj.events
    refine ⟨all.filter fun id =>
      ∃ head, b.heads id = some head ∧ head.index.toNat < b.accumulator.cursor.toNat, fun id => ?_⟩
    rw [Finset.mem_filter]
    refine ⟨fun hid => hid.2, fun hid => ⟨?_, hid⟩⟩
    obtain ⟨head, hhead, -⟩ := hid
    rw [hmem, hhead]
    rfl
  obtain ⟨hnum, hden⟩ := hids.prod_parts hbelow
  obtain ⟨hn, hd⟩ := hp.product hsealed below hbelow
  obtain ⟨hmn, hmd⟩ := hp.minimal hsealed
  -- The accumulator holds the product over these events, in its shortest bytes.
  rw [hn, hnum] at hmn
  rw [hd, hden] at hmd
  have haccepted := (accumulate_eq_ok hlen).mpr ⟨hall, rfl⟩
  refine ⟨_, _, haccepted, accumulateUnreduced_eq hlen hall, hmn, hmd, fun hfinal => ?_⟩
  obtain ⟨hred, -⟩ := h.redeemable hb
  refine ⟨fun id => Counted.all hj hp hfinal hids id, ?_, fun side hsupply => ⟨?_, ?_⟩⟩
  · -- the stored fraction has the value of the oracle's product
    have hstored : retainedRatio (b.eventsOf ids) =
        .ok (b.accumulator.numerator, b.accumulator.denominator) := by
      rw [hmn, hmd]
      exact accumulateUnreduced_eq_ok.mp (accumulateUnreduced_eq hlen hall)
    have hpools : retainedPools (b.eventsOf ids) b.series.finalSupply =
        .ok (b.series.ptPool, b.series.drPool) :=
      Result.bind_eq_ok.mpr ⟨_, hstored, hp.pools hfinal⟩
    have hsame := poolsOf_accumulate hlen b.series.finalSupply
    rw [hpools, poolsOf, haccepted] at hsame
    exact Result.toOption_eq_some.mp hsame
  · have hwithin := hred.within side hfinal
    refine (cumulativePayout_eq_ok hsupply ?_).mpr ((redemptionPayout_eq_ok hsupply).mpr ⟨?_, ?_⟩)
    · exact (Nat.zero_add _).trans_le hwithin
    · exact (Nat.zero_add _).trans_le hwithin
    · rw [hred.telescoped side hfinal]
      change _ = cumulative (0 + _) _ _ - cumulative 0 _ _
      rw [Nat.zero_add, cumulative_zero, Nat.sub_zero]
  · rintro acc amount allowZero guard w' rfl hx
    obtain ⟨s, payout, hs, -, -, hpayout, hvault, -⟩ := redeem_pays hx
    cases (books_series hb).symm.trans hs
    exact ⟨payout, (cumulativePayout_eq_ok hsupply
      ((redemptionPayout_eq_ok hsupply).mp hpayout).1).mpr hpayout, hvault⟩

/-- In the sample the oracle splits 99000 tokens as the program did. -/
theorem oracle_prices_runs_sample : ∃ b ids r, (Sample.world 18).books Sample.seriesKey = some b ∧
    b.Counted ids ∧ Oracle.accumulate (b.eventsOf ids) = .ok r ∧
    Oracle.pools 99000 r = .ok ⟨79200, 19800⟩ := by
  obtain ⟨s, hs, hfacts⟩ := @Sample.series_of_any 18 (fun s => decide (s.phase = .finalized ∧
    s.finalSupply = 99000 ∧ s.ptPool = 79200 ∧ s.drPool = 19800)) (by decide +kernel)
  obtain ⟨hfinal, hsupply, hpt, hdr⟩ := of_decide_eq_true hfacts
  obtain ⟨b, hb, rfl⟩ := (Sample.history 18).linked.exists_books hs
  obtain ⟨⟨ids, hids⟩, hall⟩ := oracle_prices_runs (Sample.history 18) hb (by simp [hfinal])
  obtain ⟨r, u, hr, -, -, -, hpriced⟩ := hall ids hids
  obtain ⟨-, hpools, -⟩ := hpriced hfinal
  rw [hsupply, hpt, hdr] at hpools
  exact ⟨b, ids, r, hb, hids, hr, hpools⟩

end World

end DividendX
