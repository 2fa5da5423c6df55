import DividendX.Journal
import DividendX.Retention

/-!
# Staged finalization

Between seal and completion the journal does not move, so the accumulator is at every cursor the
product over the events with a smaller index (`Staged`). That gives both halves of the story: the
stages never fail by themselves, and the pools that come out are the specification applied to the
journal at the last seal.
-/

namespace DividendX

open LittleEndian Binary64

/-! ## The product so far -/

/-- The factor an event contributes: the ratio of its latest record if it counts, one otherwise. -/
def Books.factor (b : Books) (id : Bytes32) : ℚ :=
  (b.heads id).elim 1 fun head =>
    if head.latestInYearQualified then
      (b.revisions id head.latestRevision).elim 1 fun r => value r.m0Bits / value r.m1Bits
    else 1

/-- The events below a cursor. -/
def Books.Below (b : Books) (cursor : Nat) (ids : Finset Bytes32) : Prop :=
  ∀ id, id ∈ ids ↔ ∃ head, b.heads id = some head ∧ head.index.toNat < cursor

/-- The accumulator of a sealed series is the product over the events below its cursor. -/
structure Staged (b : Books) : Prop where
  count : b.series.sealedEventCount = b.series.eventCount
  cursor_le : b.accumulator.cursor.toNat ≤ b.series.sealedEventCount.toNat
  minimal : b.accumulator.numerator = toBytes (ofBytes b.accumulator.numerator) ∧
    b.accumulator.denominator = toBytes (ofBytes b.accumulator.denominator)
  bound : RetentionBound (ofBytes b.accumulator.numerator) (ofBytes b.accumulator.denominator)
    b.accumulator.cursor.toNat
  product : ∀ ids, b.Below b.accumulator.cursor.toNat ids →
    (ofBytes b.accumulator.numerator : ℚ) / ofBytes b.accumulator.denominator =
      ∏ id ∈ ids, b.factor id

namespace Staged

variable {host : Host} {k : Pubkey} {b b' : Books} {c : Change}

/-- The seal starts the product. -/
theorem start (hs : b.series.sealedEventCount = b.series.eventCount)
    (ha : b.accumulator.cursor = 0 ∧ b.accumulator.numerator = [1] ∧
      b.accumulator.denominator = [1]) : Staged b := by
  obtain ⟨hcursor, hn, hd⟩ := ha
  have hone : ofBytes [1] = 1 := by decide
  have hbytes : toBytes 1 = [1] := by decide
  refine ⟨hs, ?_, ?_, ?_, ?_⟩
  · rw [hcursor]
    exact Nat.zero_le _
  · rw [hn, hd, hone, hbytes]
    exact ⟨rfl, rfl⟩
  · rw [hn, hd, hone, hcursor]
    exact RetentionBound.start
  · intro ids hids
    have hempty : ids = ∅ := by
      refine Finset.eq_empty_of_forall_notMem fun id hid => ?_
      obtain ⟨head, -, hlt⟩ := (hids id).mp hid
      rw [hcursor] at hlt
      exact absurd hlt (Nat.not_lt_zero _)
    rw [hempty, Finset.prod_empty, hn, hd, hone]
    norm_num

/-- A step that leaves journal, seal and accumulator alone. -/
theorem congr (h : Staged b) (hheads : b'.heads = b.heads) (hrevisions : b'.revisions = b.revisions)
    (hsealed : b'.series.sealedEventCount = b.series.sealedEventCount)
    (hevents : b'.series.eventCount = b.series.eventCount)
    (hacc : b'.accumulator = b.accumulator) : Staged b' := by
  have hfactor : b'.factor = b.factor := by
    funext id
    rw [Books.factor, Books.factor, hheads, hrevisions]
  have hbelow : ∀ {cursor ids}, b'.Below cursor ids → b.Below cursor ids := by
    intro cursor ids hids
    rwa [Books.Below, hheads] at hids
  refine ⟨?_, ?_, ?_, ?_, fun ids hids => ?_⟩
  · rw [hsealed, hevents]
    exact h.count
  · rw [hacc, hsealed]
    exact h.cursor_le
  · rw [hacc]
    exact h.minimal
  · rw [hacc]
    exact h.bound
  · rw [hacc] at hids ⊢
    rw [hfactor]
    exact h.product ids (hbelow hids)

/-- The cursor of a sealed series stays within the journal limit. -/
theorem cursor_limit (h : Staged b) (hj : Journaled b) : b.accumulator.cursor.toNat ≤ 64 := by
  have hle := h.cursor_le
  rw [h.count] at hle
  exact hle.trans hj.limit

/-- **One event.** The factor step at the cursor succeeds, and its result is the next product. -/
theorem exists_factorStep (h : Staged b) (hj : Journaled b)
    (hpending : b.accumulator.cursor < b.series.sealedEventCount) {id : Bytes32} {head : EventHead}
    {r : EventRevision} (hhead : b.heads id = some head)
    (hr : b.revisions id head.latestRevision = some r) :
    ∃ n d, factorStep b.accumulator head r = .ok (n, d) ∧ n = toBytes (ofBytes n) ∧
      d = toBytes (ofBytes d) ∧
      RetentionBound (ofBytes n) (ofBytes d) (b.accumulator.cursor.toNat + 1) ∧
      (ofBytes n : ℚ) / ofBytes d =
        (ofBytes b.accumulator.numerator : ℚ) / ofBytes b.accumulator.denominator
          * b.factor id := by
  have hcursor : b.accumulator.cursor.toNat < 64 := by
    have hlt := UInt8.lt_iff_toNat_lt.mp hpending
    rw [h.count] at hlt
    exact hlt.trans_le hj.limit
  obtain ⟨hn, hd⟩ := h.minimal
  have hfactor : b.factor id =
      if head.latestInYearQualified then value r.m0Bits / value r.m1Bits else 1 := by
    rw [Books.factor, hhead, Option.elim_some, hr, Option.elim_some]
  rw [factorStep, hfactor]
  cases hflag : head.latestInYearQualified with
  | false =>
    refine ⟨_, _, rfl, hn, hd, h.bound.skip, ?_⟩
    rw [if_neg (by decide), mul_one]
  | true =>
    -- the flag was assigned by validation, which admits the factor
    obtain ⟨r', hr', -, clock, hvalid⟩ := hj.latest hhead
    cases hr.symm.trans hr'
    obtain ⟨-, hcounts, hqualified⟩ := validateEventInput_ok hvalid
    rw [hflag] at hcounts
    have hstatus : r.status = STATUS_QUALIFIED := by
      have := hcounts.symm
      simp only [EventInput.counts, Bool.and_eq_true, beq_iff_eq] at this
      exact this.1.2
    have hq : Qualified r.m0Bits r.m1Bits := hqualified hstatus
    have hstep := h.bound.multiplyRatio_toBytes hcursor hq
    rw [← hn, ← hd] at hstep
    refine ⟨_, _, hstep, ?_, ?_, ?_, ?_⟩
    · rw [ofBytes_toBytes]
    · rw [ofBytes_toBytes]
    · rw [ofBytes_toBytes, ofBytes_toBytes]
      exact h.bound.step hq
    · rw [ofBytes_toBytes, ofBytes_toBytes, if_pos rfl]
      exact RetentionBound.ratio_step _ _ hq

/-- **The accumulate step** keeps the product in step with the cursor. -/
theorem accumulate (h : Staged b) (hj : Journaled b)
    (hpending : b.accumulator.cursor < b.series.sealedEventCount) {id : Bytes32} {head : EventHead}
    {r : EventRevision} {n d : List UInt8} {cursor : UInt8} (hhead : b.heads id = some head)
    (hindex : head.index = b.accumulator.cursor)
    (hr : b.revisions id head.latestRevision = some r)
    (hfactor : factorStep b.accumulator head r = .ok (n, d))
    (hc : cursor.toNat = b.accumulator.cursor.toNat + 1)
    (hheads : b'.heads = b.heads) (hrevisions : b'.revisions = b.revisions)
    (hsealed : b'.series.sealedEventCount = b.series.sealedEventCount)
    (hevents : b'.series.eventCount = b.series.eventCount)
    (hacc : b'.accumulator =
      { b.accumulator with cursor := cursor, numerator := n, denominator := d }) : Staged b' := by
  obtain ⟨n', d', hstep, hn, hd, hbound, hratio⟩ := h.exists_factorStep hj hpending hhead hr
  cases hfactor.symm.trans hstep
  have hfactor' : b'.factor = b.factor := by
    funext id
    rw [Books.factor, Books.factor, hheads, hrevisions]
  refine ⟨?_, ?_, ?_, ?_, fun ids hids => ?_⟩
  · rw [hsealed, hevents]
    exact h.count
  · rw [hacc, hsealed]
    change cursor.toNat ≤ _
    have := UInt8.lt_iff_toNat_lt.mp hpending
    omega
  · rw [hacc]
    exact ⟨hn, hd⟩
  · rw [hacc]
    change RetentionBound _ _ cursor.toNat
    rw [hc]
    exact hbound
  · -- the event at the cursor is the one that is new below it
    rw [hacc, Books.Below, hheads] at hids
    change ∀ id, id ∈ ids ↔ ∃ head, b.heads id = some head ∧ head.index.toNat < cursor.toNat at hids
    rw [hc] at hids
    have hmem : id ∈ ids := (hids id).mpr ⟨head, hhead, by rw [hindex]; exact Nat.lt_succ_self _⟩
    have herase : b.Below b.accumulator.cursor.toNat (ids.erase id) := by
      intro id'
      rw [Finset.mem_erase, hids]
      refine ⟨?_, ?_⟩
      · rintro ⟨hne, head', hhead', hlt⟩
        refine ⟨head', hhead', lt_of_le_of_ne (Nat.lt_succ_iff.mp hlt) fun heq => hne ?_⟩
        exact hj.index_inj hhead' hhead ((UInt8.toNat_inj.mp heq).trans hindex.symm)
      · rintro ⟨head', hhead', hlt⟩
        refine ⟨?_, head', hhead', hlt.trans (Nat.lt_succ_self _)⟩
        rintro rfl
        cases hhead.symm.trans hhead'
        rw [hindex] at hlt
        exact lt_irrefl _ hlt
    rw [hacc, hfactor', ← Finset.mul_prod_erase ids b.factor hmem, ← h.product _ herase, mul_comm]
    exact hratio

/-- At the end of the fold every event is below the cursor. -/
theorem total (h : Staged b) (hj : Journaled b)
    (done : b.accumulator.cursor = b.series.sealedEventCount) :
    ∃ ids : Finset Bytes32, (∀ id, id ∈ ids ↔ ∃ head, b.heads id = some head) ∧
      (ofBytes b.accumulator.numerator : ℚ) / ofBytes b.accumulator.denominator =
        ∏ id ∈ ids, b.factor id := by
  obtain ⟨ids, hids, -⟩ := HasTotal.exists_card hj.events
  have hall : ∀ id, id ∈ ids ↔ ∃ head, b.heads id = some head := by
    intro id
    rw [hids, Option.any_eq_true]
    exact exists_congr fun head => and_iff_left rfl
  refine ⟨ids, hall, h.product ids fun id => ?_⟩
  rw [hall, done, h.count]
  exact ⟨fun ⟨head, hhead⟩ => ⟨head, hhead, hj.index_lt hhead⟩,
    fun ⟨head, hhead, _⟩ => ⟨head, hhead⟩⟩

/-- **One step** of a series that is sealed afterwards. -/
theorem step (h : b.series.phase = .sealing → Staged b) (hj : Journaled b)
    (hstep : b.Step host k c b') (hsealed : b'.series.phase = .sealing) : Staged b' := by
  cases hstep with
  | idle => exact h hsealed
  | deposit _ phase _ _ _ _ _ _ _ => cases phase.symm.trans hsealed
  | recombine _ _ _ _ _ _ _ => exact (h hsealed).congr rfl rfl rfl rfl rfl
  | record phase _ _ _ _ _ counted _ _ =>
    obtain ⟨_, _, _, _, _, -, -, -, -, -, rfl⟩ := updateCounters_eq_ok.mp counted
    cases phase.symm.trans hsealed
  | begin _ _ _ _ => exact start rfl ⟨rfl, rfl, rfl⟩
  | accumulate phase pending hhead index hrevision hfactor hc _ =>
    exact (h phase).accumulate hj pending hhead index hrevision hfactor hc rfl rfl rfl rfl rfl
  | complete _ _ _ _ _ _ => cases hsealed
  | abort _ _ => cases hsealed
  | redeem _ phase _ _ _ _ _ _ _ =>
    rw [Series.phase_setRedeemed, phase] at hsealed
    cases hsealed
  | burn _ => exact (h hsealed).congr rfl rfl rfl rfl rfl
  | donate _ => exact (h hsealed).congr rfl rfl rfl rfl rfl
  | seize _ => exact (h hsealed).congr rfl rfl rfl rfl rfl

end Staged

/-! ## The stages never fail by themselves -/

namespace World

variable {host : Host} {w₀ w : World} {k : Pubkey} {s : Series} {b : Books} {tr : List Action}

theorem books_accumulator (hb : w.books k = some b) :
    w.accumulators (.accumulator k) = some b.accumulator := by
  obtain ⟨s, a, -, ha, rfl⟩ := books_eq_some.mp hb
  exact ha

theorem History.staged (h : History host w₀ tr w) (hb : w.books k = some b) :
    b.series.phase = .sealing → Staged b := by
  refine h.rec_books hb (P := fun _ _ b => b.series.phase = .sealing → Staged b) ?_ ?_
  · intro tr a w w' b _ _ _ hfresh _ _ hsealing
    obtain ⟨assetKey, asset, year, start, maturity, mintKey, profile, hs⟩ := hfresh.series
    rw [hs] at hsealing
    cases hsealing
  · intro tr w a w' b c b' hist hbooks hP _ _ hstep _ hsealing
    exact Staged.step hP (hist.journaled hbooks) hstep hsealing

/-- The event at the cursor: its head is the only one, its latest record is there, and the step on
the pair succeeds. -/
theorem exists_accumulateEvent (h : History host w₀ tr w) (hlen : instructionCount tr < 2 ^ 64)
    (hb : w.books k = some b) (hsealing : b.series.phase = .sealing)
    (hpending : b.accumulator.cursor < b.series.sealedEventCount) :
    ∃ key head r, (w.heads key = some head ∧ head.series = k ∧
        head.index = b.accumulator.cursor) ∧
      (∀ key' head', w.heads key' = some head' → head'.series = k →
        head'.index = b.accumulator.cursor → key' = key) ∧
      w.revisions (.revision key head.latestRevision) = some r ∧
      r.recordHash = head.latestRecordHash ∧
      ∀ keeper, ∃ w', accumulateEvent w ⟨keeper, k, .accumulator k, key,
        .revision key head.latestRevision⟩ = .ok w' := by
  have hl := h.linked
  have hj := h.journaled hb
  have hstaged := h.staged hb hsealing
  have hcursor := UInt8.lt_iff_toNat_lt.mp hpending
  rw [hstaged.count] at hcursor
  obtain ⟨id, head, hhead, hindex⟩ := hj.exists_index hcursor
  rw [UInt8.toNat_inj] at hindex
  obtain ⟨r, hr, hhash, -⟩ := hj.latest hhead
  obtain ⟨n, d, hfactor, -⟩ := hstaged.exists_factorStep hj hpending hhead hr
  rw [books_heads hb] at hhead
  rw [books_revisions hb] at hr
  obtain ⟨hhead', hseries⟩ := hl.head_iff.mpr ⟨id, rfl, hhead⟩
  obtain ⟨hkey, -⟩ := hl.revisions hr
  simp only [Pubkey.revision.injEq] at hkey
  refine ⟨.event k id, head, r, ⟨hhead, hseries, hindex⟩, ?_, hr, hhash, fun keeper => ?_⟩
  · intro key' head' hother hof hsame
    obtain ⟨id', rfl, hother'⟩ := hl.head_iff.mp ⟨hother, hof⟩
    rw [← books_heads hb] at hhead hother'
    rw [hj.index_inj hother' hhead (hsame.trans hindex.symm)]
  · -- The cursor is below 64 and the version at most the number of instructions: neither overflows.
    obtain ⟨a, ha, howner⟩ := (hl.series (books_series hb)).accumulator
    cases (books_accumulator hb).symm.trans ha
    have hlimit : b.accumulator.cursor.toNat + 1 < 256 := by
      have := hj.limit
      omega
    obtain ⟨cursor, hc⟩ : ∃ cursor : UInt8, cursor.toNat = b.accumulator.cursor.toNat + 1 :=
      ⟨UInt8.ofNat _, UInt8.toNat_ofNat_of_lt hlimit⟩
    have hversion : b.series.stateVersion.toNat + 1 < 2 ^ 64 := by
      have := h.version_lt hb
      omega
    obtain ⟨v, hv⟩ : ∃ v : UInt64, v.toNat = b.series.stateVersion.toNat + 1 :=
      ⟨UInt64.ofNat _, UInt64.toNat_ofNat_of_lt hversion⟩
    exact ⟨_, accumulateEvent_eq_ok.mpr ⟨b.series, b.accumulator, head, r,
      ⟨books_series hb, ha, hhead, hr, rfl, howner, hsealing, hpending, hindex, hseries,
        hkey.1.symm, hkey.2.symm, hhash⟩, n, d, hfactor, cursor, v, hc, hv, rfl⟩⟩

/-- What completion needs from the outside: the mint inspected as sealed and reviewed, the vault
thawed and covering the quantity. -/
structure Completable (host : Host) (w : World) (s : Series) (q : UInt64) : Prop where
  profile : ∃ p m profile, w.policies s.assetPolicy = some p ∧
    w.bank.mints s.collateralMint = some m ∧
    inspectMint host s.collateralMint m w.clock.unixTimestamp = .ok profile ∧
    profile.extensionsMask = p.extensionsMask ∧
    profile.controlsFingerprint = s.sealedControlsFingerprint ∧
    profile.controlsFingerprint = p.reviewedControlsFingerprint ∧
    requireScaleEqualsSeal s profile.scale = .ok ()
  vault : ∃ v, w.bank.tokens s.vault = some v ∧ v.state = .initialized ∧ q ≤ v.amount

theorem inspectMintInner_initialized {key : Pubkey} {m : Mint} {now : Int64} {bounds : Bool}
    {profile : MintProfile} (h : inspectMintInner host key m now bounds = .ok profile) :
    m.isInitialized = true := by
  simp only [inspectMintInner, Result.bind_eq_ok, Result.require_eq_ok, Result.exists_unit] at h
  exact h.2.1

theorem exists_completeFinalization (hexact : host.Exact) (h : History host w₀ tr w)
    (hlen : instructionCount tr < 2 ^ 64) (hb : w.books k = some b)
    (hsealing : b.series.phase = .sealing)
    (hdone : b.accumulator.cursor = b.series.sealedEventCount) {q : UInt64}
    (hready : Completable host w b.series q) (keeper : Bytes32) :
    ∃ w', completeFinalization host (w.putSeries k { b.series with nominalBacking := q })
      ⟨keeper, b.series.assetPolicy, k, .accumulator k, b.series.collateralMint, b.series.vault,
        b.series.ptMint, b.series.drMint⟩ = .ok w' := by
  have hl := h.linked
  have hs := books_series hb
  have hlinked := hl.series hs
  obtain ⟨p, m, profile, hp, hm, hinspect, hmask, hsealed, hreviewed, hscale⟩ := hready.profile
  obtain ⟨v, hv, hthawed, hcovered⟩ := hready.vault
  obtain ⟨a, ha, howner⟩ := hlinked.accumulator
  cases (books_accumulator hb).symm.trans ha
  obtain ⟨v', hv', hvault⟩ := hlinked.vault
  cases hv.symm.trans hv'
  obtain ⟨p', hp', hdigest, -, -⟩ := hlinked.policy
  cases hp.symm.trans hp'
  obtain ⟨pt, hpt, hptl⟩ := hlinked.claimMint .pt
  obtain ⟨dr, hdr, hdrl⟩ := hlinked.claimMint .dr
  have hptKey : b.series.ptMint = .pt k := hlinked.claimKey .pt
  have hdrKey : b.series.drMint = .dr k := hlinked.claimKey .dr
  have hne : Pubkey.pt k ≠ .dr k := fun heq => by cases heq
  -- the claim mints are still open
  have hopen := fun side => ((h.supplied hb).before (by simp [hsealing]) side).2
  have hptAuth : pt.mintAuthority = some k := by
    rw [← Bank.authority_eq hpt, ← books_authority hb .pt]
    exact hopen .pt
  have hdrAuth : dr.mintAuthority = some k := by
    rw [← Bank.authority_eq hdr, ← books_authority hb .dr]
    exact hopen .dr
  have hj := h.journaled hb
  have hstaged := h.staged hb hsealing
  obtain ⟨ptPool, drPool, hsplit⟩ := hstaged.bound.exists_splitPools (hstaged.cursor_limit hj) q
  rw [← hstaged.minimal.1, ← hstaged.minimal.2] at hsplit
  have hversion : b.series.stateVersion.toNat + 1 < 2 ^ 64 := by
    have := h.version_lt hb
    omega
  obtain ⟨version, hversion'⟩ : ∃ version : UInt64,
      version.toNat = b.series.stateVersion.toNat + 1 :=
    ⟨UInt64.ofNat _, UInt64.toNat_ofNat_of_lt hversion⟩
  have hrevokePt := Host.invoke_eq_ok.mpr ⟨hexact w.bank (.revokeMintAuthority (.pt k) k)
    ⟨pt, hpt, hptAuth⟩ trivial, rfl⟩
  have hdr' : (TokenInstruction.effect w.bank (.revokeMintAuthority (.pt k) k)).mints (.dr k) =
      some dr := (Bank.modifyMint_of_ne (Ne.symm hne)).trans hdr
  have hrevokeDr := Host.invoke_eq_ok.mpr ⟨hexact _ (.revokeMintAuthority (.dr k) k)
    ⟨dr, hdr', hdrAuth⟩ trivial, rfl⟩
  rw [hptKey, hdrKey]
  refine ⟨_, completeFinalization_eq_ok.mpr ⟨⟨p, { b.series with nominalBacking := q },
    b.accumulator, m, v, pt, dr⟩, ?_, ?_, ptPool, drPool, hsplit, _,
    _, hrevokePt, hrevokeDr, version, hversion', rfl⟩⟩
  · exact ⟨hp, putSeries_series .., ha, ⟨hm, inspectMintInner_initialized hinspect⟩,
      ⟨hv, hvault.state⟩, ⟨⟨hpt, hptl.isInitialized⟩, hptl.tokenProgram⟩,
      ⟨⟨hdr, hdrl.isInitialized⟩, hdrl.tokenProgram⟩, rfl, rfl, howner⟩
  · refine ⟨hsealing, hdone, ⟨profile, hinspect, hmask, ⟨hsealed, hreviewed⟩, hscale⟩,
      ⟨⟨rfl, hdigest.symm, rfl, (inspectMintInner_decimals hinspect).1, rfl, hvault.tokenProgram,
        hvault.mint, hvault.owner, hvault.authorities, hthawed⟩, hptKey.symm, hdrKey.symm, hne,
        hptl.tokenProgram, hdrl.tokenProgram⟩, hcovered,
      ⟨hptl.decimals, hptAuth, hptl.freezeAuthority⟩,
        ⟨hdrl.decimals, hdrAuth, hdrl.freezeAuthority⟩⟩

/-- **Finalization is never bricked** by its own arithmetic or bookkeeping. In every reachable
sealed state the accumulator is a fraction in `(0, 1]` of bounded size; below the sealed count
there is exactly one head at the cursor, its latest record exists and matches, and accumulating
the pair succeeds; at the sealed count completion succeeds for every backing. -/
theorem finalization_never_bricked (hexact : host.Exact) (h : History host w₀ tr w)
    (hlen : instructionCount tr < 2 ^ 64) (hs : w.series k = some s)
    (hsealing : s.phase = .sealing) :
    ∃ a, w.accumulators (.accumulator k) = some a ∧
      (1 ≤ ofBytes a.numerator ∧ ofBytes a.numerator ≤ ofBytes a.denominator ∧
        ofBytes a.denominator < 2 ^ 7424) ∧
      (a.cursor < s.sealedEventCount → ∃ key head r,
        (w.heads key = some head ∧ head.series = k ∧ head.index = a.cursor) ∧
        (∀ key' head', w.heads key' = some head' → head'.series = k → head'.index = a.cursor →
          key' = key) ∧
        w.revisions (.revision key head.latestRevision) = some r ∧
        r.recordHash = head.latestRecordHash ∧
        ∀ keeper, ∃ w', accumulateEvent w ⟨keeper, k, .accumulator k, key,
          .revision key head.latestRevision⟩ = .ok w') ∧
      (a.cursor = s.sealedEventCount → ∀ (q : UInt64) (keeper : Bytes32), Completable host w s q →
        ∃ w', completeFinalization host (w.putSeries k { s with nominalBacking := q })
          ⟨keeper, s.assetPolicy, k, .accumulator k, s.collateralMint, s.vault, s.ptMint,
            s.drMint⟩ = .ok w') := by
  obtain ⟨b, hb, rfl⟩ := h.linked.exists_books hs
  have hstaged := h.staged hb hsealing
  refine ⟨b.accumulator, books_accumulator hb, ⟨hstaged.bound.pos, hstaged.bound.le,
    hstaged.bound.lt (hstaged.cursor_limit (h.journaled hb))⟩, ?_, ?_⟩
  · exact exists_accumulateEvent h hlen hb hsealing
  · intro hdone q keeper hready
    exact exists_completeFinalization hexact h hlen hb hsealing hdone hready keeper

/-- The sample, sealed: first with its event still to come, then ready to complete. -/
theorem finalization_never_bricked_sample :
    (∃ a key head w', (Sample.world 12).accumulators (.accumulator Sample.seriesKey) = some a ∧
      a.cursor = 0 ∧ (Sample.world 12).heads key = some head ∧ accumulateEvent (Sample.world 12)
        ⟨Sample.holder, Sample.seriesKey, .accumulator Sample.seriesKey, key,
          .revision key head.latestRevision⟩ = .ok w') ∧
    ∃ s w', (Sample.world 14).series Sample.seriesKey = some s ∧ completeFinalization Sample.host
      ((Sample.world 14).putSeries Sample.seriesKey { s with nominalBacking := s.nominalBacking })
      ⟨Sample.holder, s.assetPolicy, Sample.seriesKey, .accumulator Sample.seriesKey,
        s.collateralMint, s.vault, s.ptMint, s.drMint⟩ = .ok w' := by
  refine ⟨?_, ?_⟩
  · obtain ⟨s, hs, hfacts⟩ := @Sample.series_of_any 12 (fun s => decide (s.phase = .sealing ∧
      s.sealedEventCount = 1)) (by decide +kernel)
    obtain ⟨hsealing, hcount⟩ := of_decide_eq_true hfacts
    obtain ⟨a, ha, -, hpending, -⟩ := finalization_never_bricked Sample.host_exact
      (Sample.history 12) (by decide +kernel) hs hsealing
    have hcursor : (((Sample.world 12).accumulators (.accumulator Sample.seriesKey)).all
        fun a => a.cursor == 0) = true := by decide +kernel
    rw [ha, Option.all_some, beq_iff_eq] at hcursor
    obtain ⟨key, head, r, ⟨hhead, -, -⟩, -, -, -, hstep⟩ := hpending
      (by rw [hcursor, hcount]; decide)
    obtain ⟨w', hw'⟩ := hstep Sample.holder
    exact ⟨a, key, head, w', ha, hcursor, hhead, hw'⟩
  · have hok : (completeFinalization Sample.host (Sample.world 14) Sample.finish).toOption.isSome =
        true := by decide +kernel
    obtain ⟨w', hw'⟩ := Option.isSome_iff_exists.mp hok
    obtain ⟨L, hL, hp, -⟩ := completeFinalization_eq_ok.mp (Result.toOption_eq_some.mp hw')
    obtain ⟨profile, hinspect, hmask, ⟨hsealed, hreviewed⟩, hscale⟩ := hp.profile
    have hs := hL.loadedSeries
    have ha' := hL.loadedAccumulator
    simp only [Sample.finish] at hs ha'
    obtain ⟨a, ha, -, -, hdone⟩ := finalization_never_bricked Sample.host_exact
      (Sample.history 14) (by decide +kernel) hs hp.phase
    cases ha.symm.trans ha'
    have hready : Completable Sample.host (Sample.world 14) L.series L.series.nominalBacking := by
      refine ⟨⟨L.asset, L.mint, profile, ?_, ?_, ?_, hmask, hsealed, hreviewed, hscale⟩, L.vault,
        ?_, hp.accounts.exit.vaultState, hp.covered⟩
      · rw [hp.accounts.exit.assetPolicy]
        exact hL.asset
      · rw [← hp.accounts.exit.collateralMint]
        exact hL.mint.1
      · rw [← hp.accounts.exit.collateralMint]
        exact hinspect
      · rw [← hp.accounts.exit.vault]
        exact hL.loadedVault.1
    obtain ⟨w'', hw''⟩ := hdone hp.done L.series.nominalBacking Sample.holder hready
    exact ⟨L.series, w'', hs, hw''⟩

/-! ## The pools are the specification -/

/-- How a series was finalized: the journal was sealed for the last time when the events with these
factors counted, and completed when the backing was `q`. -/
def FinalizedFrom (host : Host) (w₀ : World) (k : Pubkey) (tr : List Action) (year : UInt16)
    (q : UInt64) (factors : Multiset ℚ) : Prop :=
  ∃ (tr₁ tr₂ tr₃ : List Action) (sealing completion : Action) (wb wc : World) (sc : Series)
    (keys : Finset Pubkey),
    tr = (tr₁ ++ sealing :: tr₂) ++ completion :: tr₃ ∧
    sealing.begins k = true ∧ (∀ a ∈ tr₂ ++ completion :: tr₃, a.begins k = false) ∧
    completion.completes k = true ∧ (∀ a ∈ tr₁ ++ sealing :: tr₂, a.completes k = false) ∧
    Run (act host) w₀ tr₁ wb ∧ Run (act host) w₀ (tr₁ ++ sealing :: tr₂) wc ∧
    wc.series k = some sc ∧ q = sc.nominalBacking ∧
    (∀ key, key ∈ keys ↔ wb.Counts k year key) ∧ factors = keys.val.map wb.factor

/-- A series was finalized in one way. -/
theorem FinalizedFrom.unique {year : UInt16} {q q' : UInt64} {factors factors' : Multiset ℚ}
    (h : FinalizedFrom host w₀ k tr year q factors)
    (h' : FinalizedFrom host w₀ k tr year q' factors') : q = q' ∧ factors = factors' := by
  obtain ⟨tr₁, tr₂, tr₃, sealing, completion, wb, wc, sc, keys, rfl,
    hseal, hlast, hcomplete, hfirst, hwb, hwc, hsc, rfl, hkeys, rfl⟩ := h
  obtain ⟨tr₁', tr₂', tr₃', sealing', completion', wb', wc', sc', keys',
    heq, hseal', hlast', hcomplete', hfirst', hwb', hwc', hsc', rfl, hkeys', rfl⟩ := h'
  obtain ⟨hfront, rfl, rfl⟩ := split_first_unique heq hcomplete hcomplete' hfirst hfirst'
  obtain ⟨rfl, rfl, rfl⟩ := split_last_unique hfront hseal hseal'
    (fun a ha => hlast a (List.mem_append_left _ ha))
    fun a ha => hlast' a (List.mem_append_left _ ha)
  cases hwb.functional hwb'
  cases hwc.functional hwc'
  cases hsc.symm.trans hsc'
  have hsame : keys = keys' := Finset.ext fun key => (hkeys key).trans (hkeys' key).symm
  rw [hsame]
  exact ⟨rfl, rfl⟩

/-- The factors of all events multiply to the factors of those that count. -/
theorem exists_countingKeys (h : History host w₀ tr w) (hb : w.books k = some b) :
    ∃ keys : Finset Pubkey, (∀ key, key ∈ keys ↔ w.Counts k b.series.year key) ∧
      ∀ ids : Finset Bytes32, (∀ id, id ∈ ids ↔ ∃ head, b.heads id = some head) →
        ∏ id ∈ ids, b.factor id = (keys.val.map w.factor).prod := by
  have hl := h.linked
  have hs := books_series hb
  have hj := h.journaled hb
  obtain ⟨keys, hkeys, -⟩ := exists_headKeys hl hb hj.qualified
  refine ⟨keys, fun key => (hkeys key).trans (counts_iff_flag h hs).symm, fun ids hids => ?_⟩
  have hinj : Function.Injective (Pubkey.event k) := by
    intro id id' heq
    cases heq
    rfl
  have hkeysEq : keys = (ids.filter fun id => (b.heads id).any EventHead.latestInYearQualified).map
      ⟨Pubkey.event k, hinj⟩ := by
    ext key
    rw [hkeys, Finset.mem_map]
    refine ⟨?_, ?_⟩
    · rintro ⟨head, hhead, hof, hflag⟩
      obtain ⟨id, rfl, hhead'⟩ := hl.head_iff.mp ⟨hhead, hof⟩
      rw [← books_heads hb] at hhead'
      refine ⟨id, Finset.mem_filter.mpr ⟨(hids id).mpr ⟨head, hhead'⟩, ?_⟩, rfl⟩
      rw [hhead']
      exact hflag
    · rintro ⟨id, hid, rfl⟩
      obtain ⟨hin, hany⟩ := Finset.mem_filter.mp hid
      obtain ⟨head, hhead⟩ := (hids id).mp hin
      rw [hhead, Option.any_some] at hany
      rw [books_heads hb] at hhead
      obtain ⟨hhead', hof⟩ := hl.head_iff.mpr ⟨id, rfl, hhead⟩
      exact ⟨head, hhead', hof, hany⟩
  -- an event that does not count contributes one
  have hone : ∀ id, ¬ (b.heads id).any EventHead.latestInYearQualified = true →
      b.factor id = 1 := by
    intro id hany
    rw [Books.factor]
    cases hhead : b.heads id with
    | none => rfl
    | some head =>
      rw [hhead, Option.any_some] at hany
      rw [Option.elim_some, if_neg hany]
  have hfactor : ∀ id, (b.heads id).any EventHead.latestInYearQualified = true →
      b.factor id = w.factor (.event k id) := by
    intro id hany
    rw [Books.factor, factor, ← books_heads hb]
    cases hhead : b.heads id with
    | none =>
      rw [hhead] at hany
      cases hany
    | some head =>
      rw [hhead, Option.any_some] at hany
      rw [Option.elim_some, if_pos hany, Option.bind_some, books_revisions hb]
  change _ = ∏ key ∈ keys, w.factor key
  rw [hkeysEq, Finset.prod_map, ← Finset.prod_filter_mul_prod_filter_not ids
    (fun id => (b.heads id).any EventHead.latestInYearQualified = true)]
  have hrest : ∏ id ∈ ids.filter fun id =>
      ¬ (b.heads id).any EventHead.latestInYearQualified = true, b.factor id = 1 :=
    Finset.prod_eq_one fun id hid => hone id (Finset.mem_filter.mp hid).2
  rw [hrest, mul_one]
  exact Finset.prod_congr rfl fun id hid => hfactor id (Finset.mem_filter.mp hid).2

/-- The pools of a finalized series by the specification. -/
def PoolsFrom (s : Series) (q : UInt64) (factors : Multiset ℚ) : Prop :=
  s.drPool.toNat = ⌊(q.toNat : ℚ) * (1 - factors.prod)⌋₊ ∧
    s.ptPool.toNat = q.toNat - s.drPool.toNat ∧ (0 < q → 1 ≤ s.ptPool.toNat)

/-- Since the last seal the journal has not moved. -/
def SealedSince (host : Host) (w₀ : World) (k : Pubkey) (tr : List Action) (b : Books) : Prop :=
  ∃ (tr₁ tr₂ : List Action) (sealing : Action) (wb : World) (bb : Books),
    tr = tr₁ ++ sealing :: tr₂ ∧ sealing.begins k = true ∧ (∀ a ∈ tr₂, a.begins k = false) ∧
    Run (act host) w₀ tr₁ wb ∧ wb.books k = some bb ∧ bb.heads = b.heads ∧
    bb.revisions = b.revisions ∧ bb.series.year = b.series.year

/-- Where a series stands, told from its history. -/
structure Told (host : Host) (w₀ : World) (k : Pubkey) (tr : List Action) (b : Books) : Prop where
  uncompleted : b.series.phase ≠ .finalized → ∀ a ∈ tr, a.completes k = false
  sealing : b.series.phase = .sealing → SealedSince host w₀ k tr b
  finalized : b.series.phase = .finalized → ∃ q factors,
    FinalizedFrom host w₀ k tr b.series.year q factors ∧ PoolsFrom b.series q factors

/-- Something that is neither seal nor completion happens, and the journal stays. -/
theorem SealedSince.snoc {b' : Books} {a : Action} (h : SealedSince host w₀ k tr b)
    (ha : a.begins k = false) (hheads : b'.heads = b.heads)
    (hrevisions : b'.revisions = b.revisions)
    (hyear : b'.series.year = b.series.year) : SealedSince host w₀ k (tr ++ [a]) b' := by
  obtain ⟨tr₁, tr₂, sealing, wb, bb, rfl, hseal, hlast, hwb, hbb, hh, hr, hy⟩ := h
  refine ⟨tr₁, tr₂ ++ [a], sealing, wb, bb, by rw [List.append_assoc, List.cons_append], hseal, ?_,
    hwb, hbb, hh.trans hheads.symm, hr.trans hrevisions.symm, hy.trans hyear.symm⟩
  intro a' ha'
  rcases List.mem_append.mp ha' with hold | hnew
  · exact hlast a' hold
  · rw [List.mem_singleton.mp hnew]
    exact ha

theorem FinalizedFrom.snoc {year : UInt16} {q : UInt64} {factors : Multiset ℚ} {a : Action}
    (h : FinalizedFrom host w₀ k tr year q factors) (ha : a.begins k = false) :
    FinalizedFrom host w₀ k (tr ++ [a]) year q factors := by
  obtain ⟨tr₁, tr₂, tr₃, sealing, completion, wb, wc, sc, keys, rfl, hseal, hlast, hrest⟩ := h
  refine ⟨tr₁, tr₂, tr₃ ++ [a], sealing, completion, wb, wc, sc, keys,
    by rw [List.append_assoc, List.cons_append], hseal, ?_, hrest⟩
  intro a' ha'
  rw [← List.cons_append, ← List.append_assoc] at ha'
  rcases List.mem_append.mp ha' with hold | hnew
  · exact hlast a' hold
  · rw [List.mem_singleton.mp hnew]
    exact ha

/-- **Completion** applies the specification to the journal at the last seal. -/
theorem completed {b' : Books} {completion : Action} {ptPool drPool slot v : UInt64}
    (h : History host w₀ tr w) (hb : w.books k = some b) (htold : Told host w₀ k tr b)
    (phase : b.series.phase = .sealing) (done : b.accumulator.cursor = b.series.sealedEventCount)
    (pools : splitPools b.series.nominalBacking b.accumulator.numerator
      b.accumulator.denominator = .ok (ptPool, drPool))
    (hcompletes : completion.completes k = true) (hbegins : completion.begins k = false)
    (hs' : b'.series = { b.series.final ptPool drPool slot with stateVersion := v }) :
    ∃ q factors, FinalizedFrom host w₀ k (tr ++ [completion]) b'.series.year q factors ∧
      PoolsFrom b'.series q factors := by
  have hj := h.journaled hb
  have hstaged := h.staged hb phase
  have huncompleted := htold.uncompleted (by simp [phase])
  obtain ⟨tr₁, tr₂, sealing, wb, bb, rfl, hseal, hlast, hwb, hbb, hheads, hrevisions, hyear⟩ :=
    htold.sealing phase
  obtain ⟨keys, hkeys, hprod⟩ := exists_countingKeys ⟨h.1, hwb⟩ hbb
  have hfactor : bb.factor = b.factor := by
    funext id
    rw [Books.factor, Books.factor, hheads, hrevisions]
  -- All events are folded in by now, and the journal is what it was at the seal.
  obtain ⟨ids, hall, hproduct⟩ := hstaged.total hj done
  rw [← hfactor, hprod ids (by rw [hheads]; exact hall)] at hproduct
  obtain ⟨hdr, hsum, hpt⟩ := splitPools_floor pools
  rw [hproduct] at hdr
  refine ⟨b.series.nominalBacking, keys.val.map wb.factor,
    ⟨tr₁, tr₂, [], sealing, completion, wb, w,
    b.series, keys, rfl, hseal, ?_, hcompletes, huncompleted, hwb,
    h.2, books_series hb, rfl, ?_, rfl⟩, ?_⟩
  · intro a ha
    rcases List.mem_append.mp ha with hold | hnew
    · exact hlast a hold
    · rw [List.mem_singleton.mp hnew]
      exact hbegins
  · rw [hs']
    change ∀ key, key ∈ keys ↔ wb.Counts k b.series.year key
    rw [← hyear]
    exact hkeys
  · rw [hs']
    refine ⟨hdr, ?_, fun hq => UInt64.lt_iff_toNat_lt.mp (hpt hq)⟩
    change ptPool.toNat = b.series.nominalBacking.toNat - drPool.toNat
    omega

namespace Told

variable {b' : Books} {a : Action}

theorem uncompleted_snoc (h : Told host w₀ k tr b) (hp : b.series.phase ≠ .finalized)
    (hc : a.completes k = false) : ∀ a' ∈ tr ++ [a], a'.completes k = false := by
  intro a' ha'
  rcases List.mem_append.mp ha' with hold | hnew
  · exact h.uncompleted hp a' hold
  · rw [List.mem_singleton.mp hnew]
    exact hc

/-- Neither seal nor completion, and journal, phase and pools stay. -/
theorem quiet (h : Told host w₀ k tr b) (hbegins : a.begins k = false)
    (hcompletes : a.completes k = false) (hphase : b'.series.phase = b.series.phase)
    (hheads : b'.heads = b.heads) (hrevisions : b'.revisions = b.revisions)
    (hyear : b'.series.year = b.series.year) (hpt : b'.series.ptPool = b.series.ptPool)
    (hdr : b'.series.drPool = b.series.drPool) : Told host w₀ k (tr ++ [a]) b' := by
  refine ⟨fun hp => ?_, fun hp => ?_, fun hp => ?_⟩
  · rw [hphase] at hp
    exact h.uncompleted_snoc hp hcompletes
  · rw [hphase] at hp
    exact (h.sealing hp).snoc hbegins hheads hrevisions hyear
  · rw [hphase] at hp
    obtain ⟨q, factors, hfrom, hpools⟩ := h.finalized hp
    refine ⟨q, factors, ?_, ?_⟩
    · rw [hyear]
      exact hfrom.snoc hbegins
    · rw [PoolsFrom, hpt, hdr]
      exact hpools

/-- The series is open afterwards. -/
theorem opened (h : Told host w₀ k tr b) (hp : b.series.phase ≠ .finalized)
    (hcompletes : a.completes k = false) (hphase : b'.series.phase = .open) :
    Told host w₀ k (tr ++ [a]) b' := by
  refine ⟨fun _ => h.uncompleted_snoc hp hcompletes, fun hsealing => ?_, fun hfinal => ?_⟩
  · cases hphase.symm.trans hsealing
  · cases hphase.symm.trans hfinal

end Told

theorem History.told (h : History host w₀ tr w) (hb : w.books k = some b) :
    Told host w₀ k tr b := by
  refine h.rec_books hb (P := fun tr _ b => Told host w₀ k tr b) ?_ ?_
  · intro tr a w w' b _ _ _ hfresh hsilent _
    obtain ⟨assetKey, asset, year, start, maturity, mintKey, profile, hs⟩ := hfresh.series
    refine ⟨fun _ a' ha' => (hsilent a' ha').completes, fun hsealing => ?_, fun hfinal => ?_⟩
    · rw [hs] at hsealing
      cases hsealing
    · rw [hs] at hfinal
      cases hfinal
  · intro tr w a w' b c b' hist hbooks htold _ _ hstep hlabels
    have hbegins := hlabels.begins.symm
    have hcompletes := hlabels.completes.symm
    cases hstep with
    | record phase _ _ _ _ _ counted _ _ =>
      obtain ⟨_, _, _, _, _, -, -, -, -, -, rfl⟩ := updateCounters_eq_ok.mp counted
      exact htold.opened (by simp [phase]) hcompletes phase
    | begin phase _ _ _ =>
      refine ⟨fun _ => htold.uncompleted_snoc (by simp [phase]) hcompletes,
        fun _ => ?_, fun hf => ?_⟩
      · exact ⟨tr, [], a, w, b, rfl, hbegins, fun _ hin => absurd hin (List.not_mem_nil), hist.2,
          hbooks, rfl, rfl, rfl⟩
      · cases hf
    | complete phase done _ _ pools _ =>
      refine ⟨fun hf => absurd rfl hf, fun hsealing => ?_, fun _ => ?_⟩
      · cases hsealing
      · exact completed hist hbooks htold phase done pools hcompletes hbegins rfl
    | abort phase _ => exact htold.opened (by simp [phase]) hcompletes rfl
    | @redeem side _ _ _ _ _ _ _ _ _ _ _ _ _ _ _ _ =>
      cases side <;> exact htold.quiet hbegins hcompletes rfl rfl rfl rfl rfl rfl
    | _ => exact htold.quiet hbegins hcompletes rfl rfl rfl rfl rfl rfl

/-- **Final pools are exact.** For every history that brings a series to its final phase: with `q`
the backing when it was completed and `factors` the exact ratios of the events that counted at the
last seal, each once, the dividend pool is `⌊q * (1 - factors.prod)⌋`, the principal pool is the
rest, and it is not empty when `q` is positive. Nothing else enters: any other history with the
same backing and the same factors ends with the same pools. -/
theorem final_pools_exact (h : History host w₀ tr w) (hs : w.series k = some s)
    (hfinal : s.phase = .finalized) :
    ∃ (q : UInt64) (factors : Multiset ℚ), FinalizedFrom host w₀ k tr s.year q factors ∧
      s.drPool.toNat = ⌊(q.toNat : ℚ) * (1 - factors.prod)⌋₊ ∧
      s.ptPool.toNat = q.toNat - s.drPool.toNat ∧ (0 < q → 1 ≤ s.ptPool.toNat) ∧
      ∀ w₀' tr' w' k' s', History host w₀' tr' w' → w'.series k' = some s' →
        s'.phase = .finalized → FinalizedFrom host w₀' k' tr' s'.year q factors →
        s'.drPool = s.drPool ∧ s'.ptPool = s.ptPool := by
  have hpools : ∀ {w₀ : World} {tr : List Action} {w : World} {k : Pubkey} {s : Series},
      History host w₀ tr w → w.series k = some s → s.phase = .finalized →
      ∃ q factors, FinalizedFrom host w₀ k tr s.year q factors ∧ PoolsFrom s q factors := by
    intro w₀ tr w k s h hs hfinal
    obtain ⟨b, hb, rfl⟩ := h.linked.exists_books hs
    exact (h.told hb).finalized hfinal
  obtain ⟨q, factors, hfrom, hdr, hpt, hpos⟩ := hpools h hs hfinal
  refine ⟨q, factors, hfrom, hdr, hpt, hpos, fun w₀' tr' w' k' s' h' hs' hfinal' hfrom' => ?_⟩
  obtain ⟨q', factors', hown, hdr', hpt', -⟩ := hpools h' hs' hfinal'
  obtain ⟨rfl, rfl⟩ := hown.unique hfrom'
  have hsame : s'.drPool = s.drPool := UInt64.toNat_inj.mp (hdr'.trans hdr.symm)
  refine ⟨hsame, UInt64.toNat_inj.mp ?_⟩
  rw [hpt', hpt, hsame]

/-- The sample lost a fifth of its value: of 99000 tokens 19800 go to the dividend side. -/
theorem final_pools_exact_sample : ∃ (s : Series) (q : UInt64) (factors : Multiset ℚ),
    (Sample.world 18).series Sample.seriesKey = some s ∧
    FinalizedFrom Sample.host Sample.genesis Sample.seriesKey (Sample.actions.take 18) s.year q
      factors ∧ ⌊(q.toNat : ℚ) * (1 - factors.prod)⌋₊ = 19800 := by
  obtain ⟨s, hs, hfacts⟩ := @Sample.series_of_any 18 (fun s => decide (s.phase = .finalized ∧
    s.drPool = 19800)) (by decide +kernel)
  obtain ⟨hfinal, hpool⟩ := of_decide_eq_true hfacts
  obtain ⟨q, factors, hfrom, hdr, -⟩ := final_pools_exact (Sample.history 18) hs hfinal
  refine ⟨s, q, factors, hs, hfrom, ?_⟩
  rw [← hdr, hpool]
  rfl

end World

end DividendX
