import DividendX.Custody
import DividendX.Finalization
import DividendX.Mirror
import DividendX.Phases

/-!
# The books and the reference agree

What it means that a state of the reference stands for the books of a series (`Mirrors`), and the
one lemma most steps need: if chain and reference move by the same amounts, they still agree
(`Mirrors.follow`).

Holders appear in the reference under the names of a list of owners. The reference is set up with
that list, so every owner who ever opens a claim account has to be on it.
-/

namespace DividendX

open AnnualReference LittleEndian

/-! ## What the books say -/

/-- The stages of a finalization before the last. -/
def Change.isStage : Change → Bool
  | begin => true
  | accumulate _ => true
  | abort => true
  | _ => false

namespace Books

variable {host : Host} {k : Pubkey} {b b' : Books} {c : Change}

/-- The latest record of an event. -/
def latest (b : Books) (id : Bytes32) : Option EventInput :=
  (b.heads id).bind fun head => (b.revisions id head.latestRevision).map EventRevision.toInput

/-- The snapshot of the reference, from the completion on. -/
def settled (b : Books) : Option AnnualFinalSnapshot :=
  if b.series.phase = .finalized then some b.snapshot else none

theorem settled_of_open (h : b.series.phase ≠ .finalized) : b.settled = none := if_neg h

theorem settled_of_final (h : b.series.phase = .finalized) : b.settled = some b.snapshot := if_pos h

/-- No snapshot before and none after. -/
theorem settled_eq_of_open (h : b.series.phase ≠ .finalized) (h' : b'.series.phase ≠ .finalized) :
    b'.settled = b.settled := (settled_of_open h').trans (settled_of_open h).symm

/-- A head has a record. -/
theorem exists_latest (hj : Journaled b) {id : Bytes32} {head : EventHead}
    (hhead : b.heads id = some head) : ∃ input, b.latest id = some input := by
  obtain ⟨r, hr, -⟩ := hj.latest hhead
  refine ⟨r.toInput, ?_⟩
  rw [latest, hhead, Option.bind_some, hr, Option.map_some]

theorem latest_eq_none (hj : Journaled b) {id : Bytes32} :
    b.latest id = none ↔ b.heads id = none := by
  cases hhead : b.heads id with
  | none => simp [latest, hhead]
  | some head =>
    obtain ⟨input, hinput⟩ := exists_latest hj hhead
    simp [hinput]

/-- After a record that was accepted it is the latest of its event. -/
theorem Step.latest {input : EventInput} (h : b.Step host k (.record input) b') (id : Bytes32) :
    b'.latest id = if id = input.eventId then some input else b.latest id := by
  cases h with
  | record _ _ _ _ _ _ _ _ _ =>
    by_cases hid : id = input.eventId
    · subst hid
      rw [if_pos rfl, Books.latest]
      dsimp only
      rw [Function.update_self, Option.bind_some, recordedHead, putRevision, Function.update_self,
        Function.update_self]
      rfl
    · rw [if_neg hid, Books.latest, Books.latest]
      dsimp only
      rw [Function.update_of_ne hid, putRevision, Function.update_of_ne hid]

/-- A step that is not the program's and moves nothing. -/
theorem Step.eq_of_unbooked (h : b.Step host k c b') (hc : c.isBooked = false)
    (hburned : ∀ side, c.burned side = 0) (hdonation : c.donation = 0) (hseizure : c.seizure = 0) :
    b' = b := by
  cases h with
  | idle => rfl
  | @burn side amount supply hs =>
    have hzero : amount.toNat = 0 := (if_pos rfl).symm.trans (hburned side)
    rw [hzero, Nat.add_zero] at hs
    subst hs
    rw [Function.update_eq_self]
  | donate fits =>
    simp only [Change.donation] at hdonation
    rw [hdonation]
    rfl
  | @seize amount vault hvault =>
    simp only [Change.seizure] at hseizure
    rw [hseizure, Nat.add_zero] at hvault
    subst hvault
    rfl
  | _ => cases hc

/-- A step that burns claims outside of the program. -/
theorem Step.of_burned (h : b.Step host k c b') {side : RedeemSide} (hpos : 0 < c.burned side) :
    ∃ supply, supply + c.burned side = b.supply side ∧
      b' = { b with supply := Function.update b.supply side supply } := by
  cases h with
  | @burn side' amount supply hs =>
    by_cases hside : side' = side
    · subst hside
      refine ⟨supply, ?_, rfl⟩
      rw [← hs]
      exact congrArg (supply + ·) (if_pos rfl)
    · have hzero : Change.burned side (.burn side' amount) = 0 := if_neg hside
      rw [hzero] at hpos
      exact absurd hpos (lt_irrefl 0)
  | _ => exact absurd hpos (lt_irrefl 0)

/-- A step that brings collateral from outside. -/
theorem Step.of_donation (h : b.Step host k c b') (hpos : 0 < c.donation) :
    b.vault + c.donation < 2 ^ 64 ∧ b' = { b with vault := b.vault + c.donation } := by
  cases h with
  | donate fits => exact ⟨fits, rfl⟩
  | _ => exact absurd hpos (lt_irrefl 0)

end Books

namespace World

variable {host : Host} {w₀ w w' : World} {k : Pubkey} {b : Books} {tr : List Action} {id : Bytes32}
  {input : EventInput}

/-- The head over the latest record of an event. -/
structure Heads (b : Books) (id : Bytes32) (input : EventInput) (head : EventHead) : Prop where
  found : b.heads id = some head
  revision : head.latestRevision = input.revision
  event : input.eventId = id
  valid : ∃ clock, validateEventInput input b.series.year clock =
    .ok (head.latestResolved, head.latestInYearQualified)
  stored : ∃ r, b.revisions id head.latestRevision = some r ∧ r.toInput = input

theorem exists_heads (hl : w.Linked) (hb : w.books k = some b) (hj : Journaled b)
    (h : b.latest id = some input) : ∃ head, Heads b id input head := by
  obtain ⟨head, hhead, hmap⟩ := Option.bind_eq_some_iff.mp h
  obtain ⟨r, hr, rfl⟩ := Option.map_eq_some_iff.mp hmap
  obtain ⟨r', hr', -, clock, hvalid⟩ := hj.latest hhead
  cases hr.symm.trans hr'
  -- the record sits at the address of its event and number
  have hstored := hr
  rw [books_revisions hb] at hstored
  obtain ⟨hkey, -, head', hhead', hid⟩ := hl.revisions hstored
  injection hkey with hevent hrevision
  rw [← hevent] at hhead'
  have hkey' := (hl.heads hhead').1
  injection hkey' with hseries hid'
  exact ⟨head, hhead, hrevision, hid.symm.trans hid'.symm, ⟨clock, hvalid⟩, r, hr, rfl⟩

/-- The clock stays past the epoch. -/
theorem History.clock_nonneg (h : History host w₀ tr w) : 0 ≤ w.clock.unixTimestamp.toInt :=
  Int64.le_iff_toInt_le.mp (Int64.le_trans h.1.clock (clock_of_run h.2).2)

/-- A sealed series is mature and has no unresolved event. -/
theorem History.sealable (h : History host w₀ tr w) (hb : w.books k = some b) :
    b.series.phase = .sealing → b.series.maturityTimestamp ≤ w.clock.unixTimestamp ∧
      b.series.unresolvedCount = 0 := by
  refine h.rec_books hb (P := fun _ w b => b.series.phase = .sealing →
    b.series.maturityTimestamp ≤ w.clock.unixTimestamp ∧ b.series.unresolvedCount = 0) ?_ ?_
  · intro tr a w w' b _ _ _ hfresh _ _ hp
    obtain ⟨assetKey, asset, year, start, maturity, mintKey, profile, hs⟩ := hfresh.series
    rw [hs] at hp
    cases hp
  · intro tr w a w' b c b' hist hbooks hP ha _ hstep hlabels hp
    have hclock := (act_clock ha).2
    cases hstep with
    | begin phase resolved covered hv =>
      obtain ⟨acc, version, hash, coverage, rfl, rfl⟩ := hlabels.names
      simp only [World.act, Result.toOption_eq_some] at ha
      obtain ⟨L, profile, hL, hpass, -⟩ := beginFinalization_eq_ok.mp ha
      have hsame : b.series = L.series :=
        Option.some.inj ((books_series hbooks).symm.trans hL.loadedSeries)
      have hmature : b.series.maturityTimestamp ≤ w.clock.unixTimestamp := by
        rw [hsame]
        exact hpass.mature
      exact ⟨Int64.le_trans hmature hclock, resolved⟩
    | record phase _ _ _ _ _ counted _ _ =>
      obtain ⟨_, _, _, _, _, -, -, -, -, -, rfl⟩ := updateCounters_eq_ok.mp counted
      cases phase.symm.trans hp
    | complete _ _ _ _ _ _ => cases hp
    | abort _ _ => cases hp
    | @redeem side _ _ _ _ _ _ _ _ phase _ _ _ _ _ _ _ =>
      rw [Series.phase_setRedeemed] at hp
      cases phase.symm.trans hp
    | _ => exact ⟨Int64.le_trans (hP hp).1 hclock, (hP hp).2⟩

end World

/-! ## A model just constructed -/

namespace AnnualReference.AnnualReferenceModel

variable {s : AnnualReferenceModel} {term : AnnualTermIdentity} {ids : List String}
  {r r' : Record String AnnualAccountState}

theorem checkedAccountId_eq {value id : String} (h : checkedAccountId value = .ok id) :
    id = value := by
  rw [checkedAccountId] at h
  simp only [Result.bind_eq_ok, demand_eq_ok, Result.exists_unit, Result.pure_eq_ok] at h
  exact h.2.symm

theorem addAccount_eq_ok {id : String} (h : addAccount r id = .ok r') :
    checkedAccountId id = .ok id ∧ r.get? id = none ∧ r' = r.set id ⟨0, 0, 0⟩ := by
  rw [addAccount] at h
  simp only [Result.bind_eq_ok, demand_eq_ok, Result.exists_unit, Result.pure_eq_ok] at h
  obtain ⟨id', hid, hnone, rfl⟩ := h
  obtain rfl := checkedAccountId_eq hid
  exact ⟨hid, hnone, rfl⟩

/-- The loop over the account ids. -/
theorem foldlM_addAccount (h : ids.foldlM addAccount r = .ok r') : ids.Nodup ∧
    (∀ id ∈ ids, checkedAccountId id = .ok id ∧ r.get? id = none ∧
      r'.get? id = some ⟨0, 0, 0⟩) ∧ ∀ id, id ∉ ids → r'.get? id = r.get? id := by
  induction ids generalizing r with
  | nil =>
    cases h
    exact ⟨List.nodup_nil, fun _ hid => absurd hid List.not_mem_nil, fun _ _ => rfl⟩
  | cons first ids ih =>
    rw [List.foldlM_cons, Result.bind_eq_ok] at h
    obtain ⟨r₁, hadd, hrest⟩ := h
    obtain ⟨hchecked, hnone, rfl⟩ := addAccount_eq_ok hadd
    obtain ⟨hnodup, hall, hothers⟩ := ih hrest
    have hfresh : first ∉ ids := fun hmem => by
      have hget := (hall first hmem).2.1
      rw [Record.get?_set, if_pos rfl] at hget
      cases hget
    refine ⟨List.nodup_cons.mpr ⟨hfresh, hnodup⟩, fun id hid => ?_, fun id hid => ?_⟩
    · rcases List.mem_cons.mp hid with rfl | hmem
      · refine ⟨hchecked, hnone, ?_⟩
        rw [hothers id hfresh, Record.get?_set, if_pos rfl]
      · obtain ⟨hc, hn, hg⟩ := hall id hmem
        have hne : id ≠ first := fun heq => hfresh (heq ▸ hmem)
        rw [Record.get?_set, if_neg hne] at hn
        exact ⟨hc, hn, hg⟩
    · rw [List.mem_cons, not_or] at hid
      rw [hothers id hid.2, Record.get?_set, if_neg hid.1]

/-- What the constructor sets up. -/
structure Started (s : AnnualReferenceModel) (term : AnnualTermIdentity) (ids : List String) :
    Prop where
  terms : s.terms = (term, unixDays term.year 1 1 * 86400, unixDays (term.year + 1) 1 1 * 86400,
    false, none)
  texts : ∀ text ∈ [term.chain, term.issuer, term.mint],
    textLength text ≠ 0 ∧ textLength text ≤ MAX_TEXT_LENGTH
  accountable : s.accountableRaw = 0
  custody : s.actualCustodyRaw = 0
  supply : ∀ side, s.supply side = 0
  redeemed : ∀ side, s.redeemed side = 0
  nodup : ids.Nodup
  accounts : ∀ id ∈ ids, s.requireAccount id = .ok ⟨0, 0, 0⟩

theorem new_started (h : new term ids = .ok s) : s.Started term ids := by
  rw [new, checkedTermIdentity] at h
  simp only [Result.bind_eq_ok, demand_eq_ok, Result.exists_unit, Result.pure_eq_ok,
    checkedText_eq_ok] at h
  obtain ⟨_, ⟨hyear, _, ⟨rfl, hchain⟩, _, ⟨rfl, hissuer⟩, _, ⟨rfl, hmint⟩, _, ⟨rfl, hsymbol⟩, rfl⟩,
    hlen, accounts, haccounts, rfl⟩ := h
  obtain ⟨hnodup, hall, -⟩ := foldlM_addAccount haccounts
  refine ⟨rfl, ?_, rfl, rfl, fun side => ?_, fun side => ?_, hnodup, fun id hid => ?_⟩
  · simp [hchain, hissuer, hmint]
  · cases side <;> rfl
  · cases side <;> rfl
  · obtain ⟨hc, -, hg⟩ := hall id hid
    rw [requireAccount]
    simp only [Result.bind_eq_ok, Result.okOr_eq_ok]
    exact ⟨id, hc, hg⟩

/-- Nothing moved. -/
theorem Shifted.refl (s : AnnualReferenceModel) : s.Shifted s {} := by
  refine ⟨rfl, (Int.add_zero _).symm, (Int.add_zero _).symm, fun _ => (Int.add_zero _).symm,
    fun _ => (Int.add_zero _).symm, fun id => ?_⟩
  cases s.accounts.get? id with
  | none => rfl
  | some a => simp [Movement.account]

end AnnualReference.AnnualReferenceModel

/-! ## Agreement -/

section Agreement

variable {host : Host} {N : Naming} {owners : List Pubkey} {k : Pubkey} {w₀ w w' : World}
  {tr : List Action} {a : Action} {b b' : Books} {cs new : List Call} {x x' : ExactReferenceModel}
  {m : Movement}

/-- The owners have names of their own, and the texts are ones the reference takes. -/
structure Enrolled (N : Naming) (owners : List Pubkey) : Prop where
  proper : N.Proper
  texts : ∀ text ∈ [N.term.chain, N.term.issuer, N.term.mint],
    textLength text ≠ 0 ∧ textLength text ≤ MAX_TEXT_LENGTH
  distinct : ∀ owner ∈ owners, ∀ owner' ∈ owners,
    N.account owner = N.account owner' → owner = owner'

theorem Enrolled.account_iff (h : Enrolled N owners) {owner owner' : Pubkey} (ho : owner ∈ owners)
    (ho' : owner' ∈ owners) : N.account owner = N.account owner' ↔ owner = owner' :=
  ⟨h.distinct owner ho owner' ho', congrArg N.account⟩

/-- The state of the reference stands for the books after the calls `cs`. -/
structure Mirrors (N : Naming) (owners : List Pubkey) (k : Pubkey) (w : World) (b : Books)
    (cs : List Call) (x : ExactReferenceModel) : Prop where
  inv : x.base.Inv
  covered : x.base.Covered
  terms : x.base.terms = (N.term, b.series.startTimestamp.toInt, b.series.maturityTimestamp.toInt,
    false, b.settled)
  accountable : x.base.accountableRaw = b.series.nominalBacking.toNat
  custody : x.base.actualCustodyRaw = b.vault
  supply : ∀ side : RedeemSide, x.base.supply side.claim = b.supply side
  redeemed : ∀ side : RedeemSide,
    x.base.redeemed side.claim = (b.series.redeemedNominal side).toNat
  accounts : ∀ owner ∈ owners, ∃ account, x.base.requireAccount (N.account owner) = .ok account ∧
    account.collateralRaw = credited cs (N.account owner) ∧ 0 ≤ account.collateralRaw ∧
    ∀ side : RedeemSide, ∃ n : Nat, w.bank.Owns (claimMintOf k side) owner n ∧
      account.claims side.claim = n
  journal : ∀ id, x.journal.get? (N.event id) = (b.latest id).map N.record
  keys : ∀ key event, x.journal.get? key = some event → ∃ id, key = N.event id

namespace Mirrors

theorem term (h : Mirrors N owners k w b cs x) : x.base.term = N.term :=
  congrArg Prod.fst h.terms

theorem start (h : Mirrors N owners k w b cs x) :
    x.base.startSeconds = b.series.startTimestamp.toInt := congrArg (fun t => t.2.1) h.terms

theorem maturity (h : Mirrors N owners k w b cs x) :
    x.base.maturitySeconds = b.series.maturityTimestamp.toInt :=
  congrArg (fun t => t.2.2.1) h.terms

theorem free (h : Mirrors N owners k w b cs x) : x.base.custodyBlocked = false :=
  congrArg (fun t => t.2.2.2.1) h.terms

theorem snapshot (h : Mirrors N owners k w b cs x) : x.base.snapshot = b.settled :=
  congrArg (fun t => t.2.2.2.2) h.terms

/-- What is left of the pool of a side. -/
theorem remaining (h : Mirrors N owners k w b cs x) (hr : Redeemable b.series)
    (hfinal : b.series.phase = .finalized) (side : RedeemSide) :
    x.base.remaining side.claim = (b.series.pool side).toNat - (b.series.paid side).toNat := by
  have hsnapshot := h.snapshot.trans (Books.settled_of_final hfinal)
  have hpool : b.snapshot.pool side.claim = (b.series.pool side).toNat := by cases side <;> rfl
  have hdenominator : b.snapshot.supplyDenominatorRaw = b.series.finalSupply.toNat := rfl
  rw [(h.inv.final hsnapshot).remaining, hpool, hdenominator, h.redeemed,
    hr.telescoped side hfinal, cumulative]
  push_cast
  rfl

/-- Both sides owe the same. -/
theorem obligation (h : Mirrors N owners k w b cs x) (hr : Redeemable b.series) :
    x.base.obligation = b.series.debt := by
  by_cases hfinal : b.series.phase = .finalized
  · have hpt := h.remaining hr hfinal .pt
    have hdr := h.remaining hr hfinal .dr
    have hlept : b.series.ptPaid.toNat ≤ b.series.ptPool.toNat := hr.paid_le hfinal .pt
    have hledr : b.series.drPaid.toNat ≤ b.series.drPool.toNat := hr.paid_le hfinal .dr
    change x.base.remainingPtPoolRaw = (b.series.ptPool.toNat : Int) - b.series.ptPaid.toNat at hpt
    change x.base.remainingDrPoolRaw = (b.series.drPool.toNat : Int) - b.series.drPaid.toNat at hdr
    rw [AnnualReferenceModel.obligation_final (h.snapshot.trans (Books.settled_of_final hfinal)),
      hpt, hdr, Series.debt_of_final hfinal]
    omega
  · rw [AnnualReferenceModel.obligation_open (h.snapshot.trans (Books.settled_of_open hfinal)),
      h.accountable, Series.debt_of_open hfinal]

/-- A redemption pays the same. -/
theorem shareStep (h : Mirrors N owners k w b cs x)
    (hne : b.snapshot.supplyDenominatorRaw ≠ 0) {side : RedeemSide} {amount payout : UInt64}
    (hpriced : redemptionPayout (b.series.redeemedNominal side) amount (b.series.pool side)
      b.series.finalSupply = .ok payout) :
    x.base.shareStep b.snapshot side.claim amount.toNat = payout.toNat := by
  have hsupply : b.series.finalSupply ≠ 0 := by
    intro heq
    refine hne ?_
    change (b.series.finalSupply.toNat : Int) = 0
    rw [heq]
    rfl
  obtain ⟨-, hpay⟩ := (redemptionPayout_eq_ok hsupply).mp hpriced
  have hpool : b.snapshot.pool side.claim = (b.series.pool side).toNat := by cases side <;> rfl
  have hmono := cumulative_mono
    (Nat.le_add_right (b.series.redeemedNominal side).toNat amount.toNat)
    (b.series.pool side).toNat b.series.finalSupply.toNat
  rw [AnnualReferenceModel.shareStep, h.redeemed, hpool, hpay, Int.ofNat_sub hmono, cumulative,
    cumulative]
  push_cast
  rfl

end Mirrors

/-- The value of a fraction does not change in lowest terms. -/
theorem value_lowest (n d : Nat) : ((Fraction.lowest ⟨n, d⟩).numerator : ℚ) /
    (Fraction.lowest ⟨n, d⟩).denominator = n / d := by
  rcases Nat.eq_zero_or_pos d with rfl | hd
  · simp [Fraction.lowest]
  · rw [Fraction.lowest_eq_ofRat _ (by exact_mod_cast hd), Fraction.value_ofRat, Int.cast_natCast,
      Int.cast_natCast]

/-- **Agreement**, as far as it can be read off the series, its accumulator, its mints and its
vault. -/
structure Reconciled (w : World) (k : Pubkey) (s : Series) (x : ExactReferenceModel) : Prop where
  accountable : x.base.accountableRaw = s.nominalBacking.toNat
  custody : x.base.actualCustodyRaw = w.bank.balance s.vault
  supply : ∀ side : RedeemSide, x.base.supply side.claim = w.bank.supply (claimMintOf k side)
  obligation : ∃ owed, s.obligations = .ok owed ∧ x.base.obligation = owed.toNat
  opened : s.phase ≠ .finalized → x.base.snapshot = none
  final : s.phase = .finalized → ∃ f a, x.base.snapshot = some f ∧
    w.accumulators (.accumulator k) = some a ∧
    (f.index.numerator : ℚ) / f.index.denominator = ofBytes a.numerator / ofBytes a.denominator ∧
    (∀ side : RedeemSide, f.pool side.claim = (s.pool side).toNat) ∧
    f.supplyDenominatorRaw = s.finalSupply.toNat
  remaining : s.phase = .finalized → ∀ side : RedeemSide,
    x.base.remaining side.claim = (s.pool side).toNat - (s.paid side).toNat

theorem Mirrors.reconciled (h : Mirrors N owners k w b cs x)
    (hist : World.History host w₀ tr w) (hb : w.books k = some b) : Reconciled w k b.series x := by
  have hr := (hist.redeemable hb).1
  obtain ⟨owed, howed, hdebt⟩ := hr.exists_obligations
  refine ⟨h.accountable, ?_, fun side => ?_, ⟨owed, howed, ?_⟩, fun hopen => ?_, fun hfinal => ?_,
    fun hfinal side => h.remaining hr hfinal side⟩
  · rw [h.custody, World.books_vault hb]
  · rw [h.supply, World.books_supply hb]
  · rw [h.obligation hr, hdebt]
  · exact h.snapshot.trans (Books.settled_of_open hopen)
  · have hsnapshot := h.snapshot.trans (Books.settled_of_final hfinal)
    exact ⟨_, _, hsnapshot, World.books_accumulator hb, value_lowest _ _,
      fun side => by cases side <;> rfl, rfl⟩

/-- The books move by what a movement says of the reference. -/
structure Followed (N : Naming) (owners : List Pubkey) (k : Pubkey) (w : World) (b b' : Books)
    (a : Action) (new : List Call) (m : Movement) : Prop where
  identity : b'.series.identity = b.series.identity
  settled : b'.settled = b.settled
  accountable : (b'.series.nominalBacking.toNat : Int) =
    b.series.nominalBacking.toNat + m.accountable
  custody : (b'.vault : Int) = b.vault + m.custody
  supply : ∀ side : RedeemSide, (b'.supply side : Int) = b.supply side + m.supply side.claim
  redeemed : ∀ side : RedeemSide, ((b'.series.redeemedNominal side).toNat : Int) =
    (b.series.redeemedNominal side).toNat + m.redeemed side.claim
  claims : ∀ owner ∈ owners, ∀ side : RedeemSide,
    a.flow w k owner side = m.claims (N.account owner) side.claim
  credit : ∀ owner ∈ owners, credited new (N.account owner) = m.collateral (N.account owner)
  gain : ∀ id, 0 ≤ m.collateral id

/-- Books that stay. -/
theorem Followed.refl (hflow : ∀ owner side, a.flow w k owner side = 0)
    (hcredit : ∀ id, credited new id = 0) : Followed N owners k w b b a new {} :=
  ⟨rfl, rfl, (Int.add_zero _).symm, (Int.add_zero _).symm, fun _ => (Int.add_zero _).symm,
    fun _ => (Int.add_zero _).symm, fun _ _ _ => hflow _ _, fun _ _ => hcredit _, fun _ => le_rfl⟩

/-- Books whose amounts stay. -/
theorem Followed.still (hidentity : b'.series.identity = b.series.identity)
    (hsettled : b'.settled = b.settled)
    (hnominal : b'.series.nominalBacking = b.series.nominalBacking) (hvault : b'.vault = b.vault)
    (hsupply : b'.supply = b.supply)
    (hredeemed : ∀ side, b'.series.redeemedNominal side = b.series.redeemedNominal side)
    (hflow : ∀ owner side, a.flow w k owner side = 0) (hcredit : ∀ id, credited new id = 0) :
    Followed N owners k w b b' a new {} := by
  refine ⟨hidentity, hsettled, ?_, ?_, fun side => ?_, fun side => ?_, fun _ _ _ => hflow _ _,
    fun _ _ => hcredit _, fun _ => le_rfl⟩
  · rw [hnominal]
    exact (Int.add_zero _).symm
  · rw [hvault]
    exact (Int.add_zero _).symm
  · rw [hsupply]
    exact (Int.add_zero _).symm
  · rw [hredeemed]
    exact (Int.add_zero _).symm

/-- **Chain and reference move alike.** -/
theorem Mirrors.follow (h : Mirrors N owners k w b cs x) (hl : w.Linked)
    (ha : w.act host a = some w') (hf : Followed N owners k w b b' a new m)
    (hshift : x.base.Shifted x'.base m) (hinv : x'.base.Inv) (hcovered : x'.base.Covered)
    (hjournal : ∀ id, x'.journal.get? (N.event id) = (b'.latest id).map N.record)
    (hkeys : ∀ key event, x'.journal.get? key = some event → ∃ id, key = N.event id) :
    Mirrors N owners k w' b' (cs ++ new) x' := by
  have hstart : b'.series.startTimestamp = b.series.startTimestamp :=
    congrArg Identity.startTimestamp hf.identity
  have hmaturity : b'.series.maturityTimestamp = b.series.maturityTimestamp :=
    congrArg Identity.maturityTimestamp hf.identity
  refine ⟨hinv, hcovered, ?_, ?_, ?_, fun side => ?_, fun side => ?_, fun owner ho => ?_, hjournal,
    hkeys⟩
  · rw [hshift.terms, h.terms, hstart, hmaturity, hf.settled]
  · rw [hshift.accountable, h.accountable, hf.accountable]
  · rw [hshift.custody, h.custody, hf.custody]
  · rw [hshift.supply, h.supply, hf.supply]
  · rw [hshift.redeemed, h.redeemed, hf.redeemed]
  · obtain ⟨account, hrequire, hcollateral, hnonneg, hclaims⟩ := h.accounts owner ho
    refine ⟨_, hshift.requireAccount hrequire, ?_, Int.add_nonneg hnonneg (hf.gain _),
      fun side => ?_⟩
    · rw [credited_append, ← hcollateral, hf.credit owner ho]
      rfl
    · obtain ⟨n, hn, hclaim⟩ := hclaims side
      obtain ⟨n', hn', hsum⟩ := World.act_owns hl ha hn
      refine ⟨n', hn', ?_⟩
      rw [hsum, hf.claims owner ho side, ← hclaim]
      cases side <;> rfl

/-- What is known where a run has arrived. -/
structure Setting (host : Host) (N : Naming) (owners : List Pubkey) (k : Pubkey) (w₀ : World)
    (tr : List Action) (w : World) (b : Books) (cs : List Call) (x : ExactReferenceModel) :
    Prop where
  enrolled : Enrolled N owners
  history : World.History host w₀ tr w
  books : w.books k = some b
  year : N.term.year = b.series.year.toNat
  opened : ∀ key side owner, Action.open key (claimMintOf k side) owner ∈ tr → owner ∈ owners
  untouched : Untouched b.series.vault tr
  clock : w.clock.unixTimestamp.toInt ≤ 2 ^ 53 - 1
  mirrors : Mirrors N owners k w b cs x

namespace Setting

/-- The reference makes the calls of the action, and both sides agree afterwards. -/
def Simulates (N : Naming) (owners : List Pubkey) (k : Pubkey) (w' : World) (b' : Books)
    (cs new : List Call) (x : ExactReferenceModel) : Prop :=
  ∃ x', Method.replay ExactOperation.apply x new = some x' ∧
    Mirrors N owners k w' b' (cs ++ new) x'

/-- Who owns a claim account has a name. -/
theorem owner_mem (S : Setting host N owners k w₀ tr w b cs x) {key : Pubkey} {t : TokenAccount}
    {side : RedeemSide} (ht : w.bank.tokens key = some t) (hmint : t.mint = claimMintOf k side) :
    t.owner ∈ owners := by
  have hopened := S.history.opened ht (by rw [hmint]; exact isClaimMint_claimMintOf k side)
  rw [hmint] at hopened
  exact S.opened _ _ _ hopened

/-- The account of the owner of a claim account, and what it holds at least. -/
theorem account (S : Setting host N owners k w₀ tr w b cs x) {key : Pubkey} {t : TokenAccount}
    {side : RedeemSide} (ht : w.bank.tokens key = some t) (hmint : t.mint = claimMintOf k side) :
    ∃ account, x.base.requireAccount (N.account t.owner) = .ok account ∧
      (account.collateralRaw = credited cs (N.account t.owner) ∧ 0 ≤ account.collateralRaw) ∧
      (t.amount.toNat : Int) ≤ account.claims side.claim := by
  obtain ⟨account, hrequire, hcollateral, hnonneg, hclaims⟩ :=
    S.mirrors.accounts _ (S.owner_mem ht hmint)
  obtain ⟨n, hn, hclaim⟩ := hclaims side
  refine ⟨account, hrequire, ⟨hcollateral, hnonneg⟩, ?_⟩
  have hle := HasTotal.le hn key
  rw [Bank.owned_eq ht, if_pos ⟨hmint, rfl⟩, Bank.balance_eq ht] at hle
  rw [hclaim]
  exact_mod_cast hle

/-- Custody covers what is owed. -/
theorem solvent (S : Setting host N owners k w₀ tr w b cs x) :
    x.base.obligation ≤ x.base.actualCustodyRaw := by
  have hcustody := S.history.custody S.books S.untouched
  rw [S.mirrors.obligation (S.history.redeemable S.books).1, S.mirrors.custody, hcustody]
  push_cast
  omega

theorem now (S : Setting host N owners k w₀ tr w b cs x) :
    0 ≤ w.clock.unixTimestamp.toInt ∧ w.clock.unixTimestamp.toInt ≤ 2 ^ 53 - 1 :=
  ⟨S.history.clock_nonneg, S.clock⟩

/-- An action that is no call. -/
theorem quiet (S : Setting host N owners k w₀ tr w b cs x) (ha : w.act host a = some w')
    (hnew : new = []) (hf : Followed N owners k w b b' a [] {}) (hlatest : b'.latest = b.latest) :
    Simulates N owners k w' b' cs new x := by
  subst hnew
  refine ⟨x, rfl, S.mirrors.follow S.history.linked ha hf (.refl _) S.mirrors.inv S.mirrors.covered
    (fun id => ?_) S.mirrors.keys⟩
  rw [hlatest]
  exact S.mirrors.journal id

/-- Nothing that concerns the series. -/
theorem still (S : Setting host N owners k w₀ tr w b cs x) (ha : w.act host a = some w')
    (hsame : b' = b) (hnew : new = []) (hflow : ∀ owner side, a.flow w k owner side = 0) :
    Simulates N owners k w' b' cs new x := by
  subst hsame
  exact S.quiet ha hnew (.refl hflow fun _ => rfl) rfl

/-- An action that is one call, of an operation without the journal. -/
theorem call (S : Setting host N owners k w₀ tr w b cs x) (ha : w.act host a = some w')
    (operation : Operation) {o : ExactOperation} {r : Returned}
    (ho : o.apply = ExactReferenceModel.lift operation.apply) (hreports : operation.reports = false)
    (hreturns : Method.Returns operation.apply x.base fun r' s' => r' = r ∧ x.base.Shifted s' m)
    (hnew : new = [(o, r)]) (hf : Followed N owners k w b b' a new m)
    (hlatest : b'.latest = b.latest) : Simulates N owners k w' b' cs new x := by
  obtain ⟨r', s', happly, rfl, hshift⟩ := hreturns
  have hafter := operation.after S.mirrors.inv
  rw [happly] at hafter
  refine ⟨{ x with base := s' }, ?_, S.mirrors.follow S.history.linked ha hf hshift hafter.1
    (hafter.2 hreports S.mirrors.covered) (fun id => ?_) S.mirrors.keys⟩
  · rw [hnew]
    refine Method.replay_cons.mpr ⟨_, ?_, rfl⟩
    rw [ho, ExactReferenceModel.lift, happly]
  · rw [hlatest]
    exact S.mirrors.journal id

/-- The books after an instruction on the series. -/
theorem stepped (S : Setting host N owners k w₀ tr w b cs x) (hb' : w'.books k = some b')
    {c : Change} (hm : World.Moves host w w' k c) : b.Step host k c b' := by
  obtain ⟨b₂, hb₂, hstep⟩ := hm.step S.books
  obtain rfl : b' = b₂ := Option.some.inj (hb'.symm.trans hb₂)
  exact hstep

/-- An instruction on another series. -/
theorem elsewhere (S : Setting host N owners k w₀ tr w b cs x) (ha : w.act host a = some w')
    (hb' : w'.books k = some b') {k₀ : Pubkey} {c : Change} (hm : World.Moves host w w' k₀ c)
    (hk : k₀ ≠ k) (hnew : new = []) (hflow : ∀ owner side, a.flow w k owner side = 0) :
    Simulates N owners k w' b' cs new x :=
  S.still ha (Option.some.inj (hb'.symm.trans (hm.touches.books (Ne.symm hk) S.books))) hnew hflow

/-- Outside of the program nothing changes the books but a burn, a donation or a seizure. -/
theorem outside (S : Setting host N owners k w₀ tr w b cs x) (ha : w.act host a = some w')
    (hb' : w'.books k = some b') (hix : a.instruction? = none) :
    ∃ c, b.Step host k c b' ∧ c.Labels a k b.series.vault ∧ c.isBooked = false := by
  obtain ⟨c, b₂, hb₂, hstep, hlabels⟩ := World.act_books S.history.linked ha S.books
  obtain rfl : b' = b₂ := Option.some.inj (hb'.symm.trans hb₂)
  refine ⟨c, hstep, hlabels, ?_⟩
  cases hc : c.isBooked with
  | false => rfl
  | true =>
    have hsome := hlabels.booked hc
    rw [hix] at hsome
    cases hsome

/-- An action outside of the program that is none of these. -/
theorem same (S : Setting host N owners k w₀ tr w b cs x) (ha : w.act host a = some w')
    (hb' : w'.books k = some b') (hix : a.instruction? = none)
    (hburn : ∀ side, a.directBurn (claimMintOf k side) = 0)
    (hdonation : a.donation b.series.vault = 0) (hseizure : a.seizure b.series.vault = 0) :
    b' = b := by
  obtain ⟨c, hstep, hlabels, hc⟩ := S.outside ha hb' hix
  exact hstep.eq_of_unbooked hc (fun side => (hlabels.burned side).trans (hburn side))
    (hlabels.donation.trans hdonation) (hlabels.seizure.trans hseizure)

end Setting

end Agreement

end DividendX
