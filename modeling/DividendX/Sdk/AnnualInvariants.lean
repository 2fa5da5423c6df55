import DividendX.Sdk.AnnualReference
import Mathlib.Algebra.Order.BigOperators.Group.List
import Mathlib.Algebra.Order.Ring.Int

/-!
# Invariants of the accounting reference

What holds in every state that any sequence of operations reaches, and that an operation which
throws has changed nothing. The second part needs the first: `burn` and `redeem` check the sum of a
counter after they have changed balances and supplies, and that check cannot fail because the
counters of a side add up to the accountable amount.
-/

namespace DividendX

namespace AnnualReference

open Method

/-! ## Readings by side -/

/-- The pool of a side. -/
def AnnualFinalSnapshot.pool (f : AnnualFinalSnapshot) : AnnualClaimSide → Int
  | .pt => f.ptPoolRaw
  | .dr => f.drPoolRaw

namespace AnnualReferenceModel

/-- The supply of a side. -/
def supply (s : AnnualReferenceModel) : AnnualClaimSide → Int
  | .pt => s.ptSupplyRaw
  | .dr => s.drSupplyRaw

/-- Claims of a side that were burned outside of redemption. -/
def burned (s : AnnualReferenceModel) : AnnualClaimSide → Int
  | .pt => s.externallyBurnedPtRaw
  | .dr => s.externallyBurnedDrRaw

/-- Claims of a side that were redeemed. -/
def redeemed (s : AnnualReferenceModel) : AnnualClaimSide → Int
  | .pt => s.redeemedPtClaimsRaw
  | .dr => s.redeemedDrClaimsRaw

/-- What is left of the pool of a side. -/
def remaining (s : AnnualReferenceModel) : AnnualClaimSide → Int
  | .pt => s.remainingPtPoolRaw
  | .dr => s.remainingDrPoolRaw

/-- All claims of a side that accounts hold. -/
def held (s : AnnualReferenceModel) (side : AnnualClaimSide) : Int :=
  s.accounts.sum fun _ account => account.claims side

end AnnualReferenceModel

/-! ## The index -/

/-- A fraction in lowest terms, above zero and at most one. -/
structure Retained (i : RationalIndex) : Prop where
  coprime : Int.gcd i.numerator i.denominator = 1
  pos : 0 < i.numerator
  le : i.numerator ≤ i.denominator

/-- `reduce` of a proper fraction. -/
theorem reduce_retained {n d : Int} (hn : 0 < n) (hle : n ≤ d) :
    ∃ i, reduce n d = .ok i ∧ Retained i := by
  have hd : 0 < d := lt_of_lt_of_le hn hle
  have hcheck : ¬ (n < 0 ∨ d ≤ 0) := by omega
  refine ⟨Fraction.lowest ⟨n, d⟩, ?_, ?_⟩
  · simp [reduce, demand, Result.require, hcheck, bind, Except.bind, pure, Except.pure]
  · have hx : (0 : ℚ) < (n : ℚ) / d := by positivity
    have hx' : (n : ℚ) / d ≤ 1 := by
      rw [div_le_one (by exact_mod_cast hd)]
      exact_mod_cast hle
    rw [Fraction.lowest_eq_ofRat n hd]
    refine ⟨((n : ℚ) / d).reduced, Rat.num_pos.mpr hx, ?_⟩
    exact Rat.num_le_denom_iff.mpr hx'

/-- A factor that parses is positive. -/
theorem parsePositiveDecimal_pos {value : String} {i : RationalIndex}
    (h : parsePositiveDecimal value = .ok i) : 0 < i.numerator ∧ 0 < i.denominator := by
  simp only [parsePositiveDecimal, reduce] at h
  simp only [Result.bind_eq_ok, demand_eq_ok, Result.exists_unit, Result.pure_eq_ok] at h
  obtain ⟨-, ⟨whole, fraction⟩, -, hne, hcheck, rfl⟩ := h
  have hd : (0 : Int) < 10 ^ fraction.length := by positivity
  have hn : (0 : Int) < (ofDigits (whole ++ fraction) : Nat) := by
    exact_mod_cast Nat.pos_of_ne_zero hne
  rw [Fraction.lowest_eq_ofRat _ hd]
  refine ⟨Rat.num_pos.mpr ?_, Fraction.denominator_ofRat_pos _⟩
  positivity

/-- A record the journal may hold: its factors parse, and those of a qualified one do not fall. -/
def AnnualEventRecord.Sound (e : AnnualEventRecord) : Prop :=
  ∃ m0 m1, parsePositiveDecimal e.m0 = .ok m0 ∧ parsePositiveDecimal e.m1 = .ok m1
    ∧ (e.status = .qualified → m0.numerator * m1.denominator ≤ m1.numerator * m0.denominator)

theorem multiplyEvent_retained (year : Int) {index : RationalIndex} {e : AnnualEventRecord}
    (hindex : Retained index) (he : e.Sound) :
    ∃ i, AnnualReferenceModel.multiplyEvent year index e = .ok i ∧ Retained i := by
  rw [AnnualReferenceModel.multiplyEvent]
  split
  · exact ⟨index, rfl, hindex⟩
  · split
    · exact ⟨index, rfl, hindex⟩
    · rename_i hcounts
      obtain ⟨m0, m1, hm0, hm1, hrise⟩ := he
      have hqualified : e.status = .qualified := by
        by_contra hne
        exact hcounts (.inr hne)
      obtain ⟨h0n, h0d⟩ := parsePositiveDecimal_pos hm0
      obtain ⟨h1n, h1d⟩ := parsePositiveDecimal_pos hm1
      have hle := mul_le_mul hindex.le (hrise hqualified) (by positivity)
        (hindex.pos.le.trans hindex.le)
      have hpos : 0 < index.numerator * m0.numerator * m1.denominator :=
        mul_pos (mul_pos hindex.pos h0n) h1d
      have hle' : index.numerator * m0.numerator * m1.denominator
          ≤ index.denominator * m0.denominator * m1.numerator := by
        calc index.numerator * m0.numerator * m1.denominator
            = index.numerator * (m0.numerator * m1.denominator) := by ring
          _ ≤ index.denominator * (m1.numerator * m0.denominator) := hle
          _ = index.denominator * m0.denominator * m1.numerator := by ring
      obtain ⟨i, hi, hretained⟩ := reduce_retained hpos hle'
      refine ⟨i, ?_, hretained⟩
      rw [hm0, hm1]
      exact hi

/-- The loop of `currentIndex` keeps a proper fraction in lowest terms. -/
theorem foldlM_multiplyEvent {year : Int} {events : List AnnualEventRecord} {index : RationalIndex}
    (hindex : Retained index) (he : ∀ e ∈ events, e.Sound) :
    ∃ i, events.foldlM (AnnualReferenceModel.multiplyEvent year) index = .ok i ∧ Retained i := by
  induction events generalizing index with
  | nil => exact ⟨index, rfl, hindex⟩
  | cons e events ih =>
    obtain ⟨j, hj, hretained⟩ := multiplyEvent_retained year hindex (he e List.mem_cons_self)
    obtain ⟨i, hi, hfinal⟩ := ih hretained fun e' he' => he e' (List.mem_cons_of_mem _ he')
    refine ⟨i, ?_, hfinal⟩
    rw [List.foldlM_cons, hj]
    exact hi

namespace AnnualReferenceModel

/-! ## The invariant -/

/-- Accounts hold the supplies. -/
structure Holdings (s : AnnualReferenceModel) : Prop where
  nonneg : ∀ {id account}, s.accounts.get? id = some account → ∀ side, 0 ≤ account.claims side
  supply : ∀ side, s.supply side = s.held side

/-- Every claim of a side is in the supply, was burned, or was redeemed. -/
structure Accounted (s : AnnualReferenceModel) : Prop where
  accountable : ∀ side, s.accountableRaw = s.supply side + s.burned side + s.redeemed side
  burned : ∀ side, 0 ≤ s.burned side
  redeemed : ∀ side, 0 ≤ s.redeemed side
  le : s.accountableRaw ≤ U64_MAX

/-- The final pools: they split the accountable amount, and each has paid the floor of its share. -/
structure Allotted (s : AnnualReferenceModel) (f : AnnualFinalSnapshot) : Prop where
  accountable : f.accountableRaw = s.accountableRaw
  denominator : f.supplyDenominatorRaw = s.accountableRaw
  pools : f.ptPoolRaw + f.drPoolRaw = s.accountableRaw
  nonneg : ∀ side, 0 ≤ f.pool side
  index : Retained f.index
  remaining : ∀ side, s.remaining side =
    f.pool side - s.redeemed side * f.pool side / f.supplyDenominatorRaw

/-- The invariant. -/
structure Inv (s : AnnualReferenceModel) : Prop where
  holdings : s.Holdings
  accounted : s.Accounted
  events : ∀ {id e}, s.events.get? id = some e → e.Sound
  unredeemed : s.snapshot = none → ∀ side, s.redeemed side = 0
  final : ∀ {f}, s.snapshot = some f → s.Allotted f

/-- Custody holds what is owed and what was donated. -/
def Covered (s : AnnualReferenceModel) : Prop :=
  s.actualCustodyRaw = s.obligation + s.donationsRaw

/-- The invariant is kept, and custody stays covered. -/
def Keeps (s s' : AnnualReferenceModel) : Prop := s'.Inv ∧ (s.Covered → s'.Covered)

variable {s s' : AnnualReferenceModel} {id : String} {account account' : AnnualAccountState}

/-- **The index** of a state with a sound journal. -/
theorem Inv.currentIndex (h : s.Inv) : ∃ i, s.currentIndex = .ok i ∧ Retained i := by
  refine foldlM_multiplyEvent ⟨by decide, by decide, by decide⟩ fun e he => ?_
  obtain ⟨⟨k, e'⟩, hmem, rfl⟩ := List.mem_map.mp he
  exact h.events (Record.get?_of_mem hmem)

/-! ## Accounts -/

theorem requireAccount_eq_ok (h : s.requireAccount id = .ok account) :
    s.accounts.get? id = some account := by
  rw [requireAccount, checkedAccountId] at h
  simp only [Result.bind_eq_ok, demand_eq_ok, Result.exists_unit, Result.pure_eq_ok,
    Result.okOr_eq_ok] at h
  obtain ⟨id', ⟨-, rfl⟩, hget⟩ := h
  exact hget

/-- A balance is at most the supply. -/
theorem Holdings.claims_le (h : s.Holdings) (hget : s.accounts.get? id = some account)
    (side : AnnualClaimSide) : account.claims side ≤ s.supply side := by
  rw [h.supply side]
  exact Record.le_sum (fun _ _ hget' => h.nonneg hget' side) hget

/-- What accounts hold moves with the one account that is set. -/
theorem held_setAccount (account' : AnnualAccountState) (hget : s.accounts.get? id = some account)
    (side : AnnualClaimSide) :
    (s.setAccount id account').held side + account.claims side
      = s.held side + account'.claims side :=
  Record.sum_set hget

/-- One account changes, and the supplies change as it does. -/
theorem Holdings.set (h : s.Holdings) (hget : s.accounts.get? id = some account)
    (haccounts : s'.accounts = s.accounts.set id account')
    (hnonneg : ∀ side, 0 ≤ account'.claims side)
    (hsupply : ∀ side,
      s'.supply side = s.supply side + account'.claims side - account.claims side) :
    s'.Holdings := by
  refine ⟨fun {j a} hj side => ?_, fun side => ?_⟩
  · rw [haccounts, Record.get?_set] at hj
    split at hj
    · cases hj
      exact hnonneg side
    · exact h.nonneg hj side
  · have hheld : s'.held side = (s.setAccount id account').held side := by
      rw [held, haccounts]
      rfl
    have hset := held_setAccount account' hget side
    have hold := h.supply side
    rw [hheld, hsupply side]
    omega

/-- Nothing about accounts changes. -/
theorem Holdings.congr (h : s.Holdings) (haccounts : s'.accounts = s.accounts)
    (hsupply : ∀ side, s'.supply side = s.supply side) : s'.Holdings := by
  refine ⟨fun hget => h.nonneg (haccounts ▸ hget), fun side => ?_⟩
  rw [hsupply side, h.supply side, held, held, haccounts]

/-! ## Checks -/

theorem checkedRaw_eq_ok {value amount : Int} {allowZero : Bool}
    (h : checkedRaw value allowZero = .ok amount) :
    amount = value ∧ 0 ≤ value ∧ (allowZero = false → 0 < value) ∧ value ≤ U64_MAX := by
  rw [checkedRaw] at h
  simp only [Result.bind_eq_ok, demand_eq_ok, Result.exists_unit, Result.pure_eq_ok] at h
  obtain ⟨hcheck, rfl⟩ := h
  refine ⟨rfl, by omega, fun hzero => ?_, by omega⟩
  have hne : ¬ value = 0 := fun heq => hcheck (.inr (.inl ⟨hzero, heq⟩))
  omega

theorem addU64_eq_ok {left right sum : Int} :
    addU64 left right = .ok sum ↔ sum = left + right ∧ 0 ≤ left + right
      ∧ left + right ≤ U64_MAX := by
  rw [addU64, checkedRaw]
  simp only [Result.bind_eq_ok, demand_eq_ok, Result.exists_unit, Result.pure_eq_ok]
  constructor
  · rintro ⟨_, ⟨hcheck, -⟩, rfl⟩
    exact ⟨rfl, by omega, by omega⟩
  · rintro ⟨rfl, hlo, hhi⟩
    exact ⟨_, ⟨by simp; omega, rfl⟩, rfl⟩

theorem obligation_open (h : s.snapshot = none) : s.obligation = s.accountableRaw := by
  simp [obligation, h]

theorem obligation_final {f : AnnualFinalSnapshot} (h : s.snapshot = some f) :
    s.obligation = s.remainingPtPoolRaw + s.remainingDrPoolRaw := by
  simp [obligation, h]

/-- A state that differs in nothing the final pools depend on. -/
theorem Allotted.congr {f : AnnualFinalSnapshot} (h : s.Allotted f)
    (haccountable : s'.accountableRaw = s.accountableRaw)
    (hredeemed : ∀ side, s'.redeemed side = s.redeemed side)
    (hremaining : ∀ side, s'.remaining side = s.remaining side) : s'.Allotted f := by
  refine ⟨?_, ?_, ?_, h.nonneg, h.index, fun side => ?_⟩
  · rw [haccountable, h.accountable]
  · rw [haccountable, h.denominator]
  · rw [haccountable, h.pools]
  · rw [hremaining, hredeemed, h.remaining side]

/-! ## Operations -/

theorem deposit_settles {raw nowSeconds : Int} (h : s.Inv) :
    Settles s (deposit id raw nowSeconds) s fun _ s' => s.Keeps s' := by
  refine .this (.check fun account haccount => .check fun amount hamount => .check fun now _ =>
    .check fun _ hopen => .check fun _ _ => .check fun _ _ => .check fun nextQ hQ =>
    .check fun nextPt hPt => .check fun nextDr hDr => .check fun nextCustody hcustody =>
    .check fun accountPt haPt => .check fun accountDr haDr =>
      .assign (.assign (.assign (.assign (.done ?_)))))
  have hget := requireAccount_eq_ok haccount
  obtain ⟨rfl, -, hpos, -⟩ := checkedRaw_eq_ok hamount
  obtain ⟨rfl, -, hle⟩ := addU64_eq_ok.mp hQ
  obtain ⟨rfl, -, -⟩ := addU64_eq_ok.mp hPt
  obtain ⟨rfl, -, -⟩ := addU64_eq_ok.mp hDr
  obtain ⟨rfl, -, -⟩ := addU64_eq_ok.mp hcustody
  obtain ⟨rfl, hptLo, -⟩ := addU64_eq_ok.mp haPt
  obtain ⟨rfl, hdrLo, -⟩ := addU64_eq_ok.mp haDr
  rw [demand_eq_ok] at hopen
  refine ⟨⟨?_, ?_, h.events, fun _ => h.unredeemed hopen, fun hfinal => ?_⟩, fun hcovered => ?_⟩
  · refine h.holdings.set hget rfl (fun side => ?_) fun side => ?_
    · cases side with
      | pt => exact hptLo
      | dr => exact hdrLo
    · cases side <;> simp [supply, setAccount, AnnualAccountState.claims] <;> omega
  · refine ⟨fun side => ?_, h.accounted.burned, h.accounted.redeemed, hle⟩
    have haccountable := h.accounted.accountable side
    cases side <;> simp [supply, burned, redeemed, setAccount] at haccountable ⊢ <;> omega
  · exact absurd hfinal (by simp [setAccount, hopen])
  · simp only [Covered, obligation, setAccount, hopen] at hcovered ⊢
    simp at hcovered ⊢
    omega

/-- A record that passes `validateEvent` is sound. -/
theorem validateEvent_sound {input record : AnnualEventRecord}
    (h : s.validateEvent input = .ok record) : record.Sound := by
  rw [validateEvent] at h
  simp only [Result.bind_eq_ok, demand_eq_ok, Result.exists_unit, Result.pure_eq_ok] at h
  obtain ⟨_, -, -, _, -, _, -, _, -, -, -, m0, hm0, m1, hm1, hfall, rfl⟩ := h
  refine ⟨m0, m1, hm0, hm1, fun hqualified => ?_⟩
  have hnot : ¬ compare m1 m0 < 0 := by
    intro hlt
    refine hfall ⟨hlt, ?_, ?_⟩ <;> simp_all
  simp only [compare, Fraction.compare] at hnot
  split at hnot
  · exact absurd (by decide) hnot
  · omega

/-- The journal takes a sound record; nothing else changes. -/
theorem Inv.record (h : s.Inv) {record : AnnualEventRecord} (hsound : record.Sound) :
    s.Keeps { s with events := s.events.set record.id record } := by
  refine ⟨⟨h.holdings.congr rfl fun side => by cases side <;> rfl, ?_, fun {j e} hget => ?_,
    h.unredeemed, fun hfinal => ?_⟩, fun hcovered => hcovered⟩
  · exact ⟨h.accounted.accountable, h.accounted.burned, h.accounted.redeemed, h.accounted.le⟩
  · dsimp only at hget
    rw [Record.get?_set] at hget
    split at hget
    · cases hget
      exact hsound
    · exact h.events hget
  · exact (h.final hfinal).congr rfl (fun _ => rfl) fun _ => rfl

theorem recordEvent_settles {input : AnnualEventRecord} (h : s.Inv) :
    Settles s (recordEvent input) s fun _ s' => s.Keeps s' := by
  refine .this (.check fun _ _ => .check fun record hrecord => ?_)
  have hsound := validateEvent_sound hrecord
  split
  · split
    · exact .pure ⟨h, fun hcovered => hcovered⟩
    · exact .check fun _ _ => .assign (.pure (h.record hsound))
  · exact .check fun _ _ => .assign (.pure (h.record hsound))

theorem transfer_settles {fromId toId : String} {side : AnnualClaimSide} {raw : Int} (h : s.Inv) :
    Settles s (transfer fromId toId side raw) s fun _ s' => s.Keeps s' := by
  refine .this (.check fun source hsource => .check fun target htarget =>
      .check fun amount hamount =>
    .check fun _ hdiffer => .check fun _ henough => .check fun nextTo hnext => .assign (.done ?_))
  have hfrom := requireAccount_eq_ok hsource
  have hto := requireAccount_eq_ok htarget
  obtain ⟨rfl, -, -, -⟩ := checkedRaw_eq_ok hamount
  obtain ⟨rfl, hlo, -⟩ := addU64_eq_ok.mp hnext
  rw [demand_eq_ok] at hdiffer henough
  -- the target is as it was when the source has paid
  have hto' :
      (s.setAccount fromId (source.setClaims side (source.claims side - amount))).accounts.get?
      toId = some target := by
    simp only [setAccount]
    rw [Record.get?_set, if_neg (Ne.symm hdiffer)]
    exact hto
  refine ⟨⟨⟨fun {j a} hj other => ?_, fun other => ?_⟩, ?_, h.events,
    h.unredeemed, fun hfinal => ?_⟩,
    fun hcovered => hcovered⟩
  · have hsourceNonneg := h.holdings.nonneg hfrom other
    have htargetNonneg := h.holdings.nonneg hto other
    simp only [setAccount, Record.get?_set] at hj
    split at hj
    · cases hj
      rw [AnnualAccountState.claims_setClaims]
      split
      · exact hlo
      · exact htargetNonneg
    · split at hj
      · cases hj
        rw [AnnualAccountState.claims_setClaims]
        split
        · omega
        · exact hsourceNonneg
      · exact h.holdings.nonneg hj other
  · have hpaid := held_setAccount (source.setClaims side (source.claims side - amount)) hfrom other
    have hreceived :=
      held_setAccount (target.setClaims side (target.claims side + amount)) hto' other
    rw [AnnualAccountState.claims_setClaims] at hpaid hreceived
    have hsupply :
        (setAccount (setAccount s fromId (source.setClaims side (source.claims side - amount)))
        toId (target.setClaims side (target.claims side + amount))).supply other
          = s.supply other := by
      cases other <;> rfl
    rw [hsupply, h.holdings.supply other]
    split at hpaid
    · rename_i heq
      subst heq
      rw [if_pos rfl] at hreceived
      omega
    · rename_i hne
      rw [if_neg hne] at hreceived
      omega
  · exact ⟨h.accounted.accountable, h.accounted.burned, h.accounted.redeemed, h.accounted.le⟩
  · exact (h.final hfinal).congr rfl (fun _ => rfl) fun _ => rfl

theorem recombine_settles {raw : Int} (h : s.Inv) :
    Settles s (recombine id raw) s fun _ s' => s.Keeps s' := by
  refine .this (.check fun _ hopen => .check fun account haccount => .check fun amount hamount =>
    .check fun _ henough => .check fun _ _ => .check fun nextCollateral _ =>
    .assign (.assign (.assign (.assign (.done ?_)))))
  have hget := requireAccount_eq_ok haccount
  obtain ⟨rfl, hnonneg, -, -⟩ := checkedRaw_eq_ok hamount
  rw [demand_eq_ok] at hopen henough
  refine ⟨⟨?_, ?_, h.events, fun _ => h.unredeemed hopen, fun hfinal => ?_⟩, fun hcovered => ?_⟩
  · refine h.holdings.set hget rfl (fun side => ?_) fun side => ?_
    · cases side <;> simp [AnnualAccountState.claims] <;> omega
    · cases side <;> simp [supply, setAccount, AnnualAccountState.claims] <;> omega
  · have hle := h.accounted.le
    refine ⟨fun side => ?_, h.accounted.burned, h.accounted.redeemed, ?_⟩
    · have haccountable := h.accounted.accountable side
      cases side <;> simp [supply, burned, redeemed, setAccount] at haccountable ⊢ <;> omega
    · simp only [setAccount]
      omega
  · exact absurd hfinal (by simp [setAccount, hopen])
  · simp only [Covered, obligation, setAccount, hopen] at hcovered ⊢
    simp at hcovered ⊢
    omega

/-- A counter of a side can take what an account still holds of it. -/
theorem Inv.addU64_counter (h : s.Inv) {side : AnnualClaimSide} {amount counter : Int}
    (hget : s.accounts.get? id = some account) (hpos : 0 < amount)
    (henough : ¬ account.claims side < amount)
    (hcounter : counter = s.burned side ∨ counter = s.redeemed side) :
    addU64 counter amount = .ok (counter + amount) := by
  have hheld := h.holdings.claims_le hget side
  have haccountable := h.accounted.accountable side
  have hburned := h.accounted.burned side
  have hredeemed := h.accounted.redeemed side
  have hle := h.accounted.le
  refine addU64_eq_ok.mpr ⟨rfl, ?_, ?_⟩
  · rcases hcounter with rfl | rfl <;> omega
  · rcases hcounter with rfl | rfl <;> omega

/-- Claims of one side leave an account and the supply for one of the counters. -/
theorem Inv.retire (h : s.Inv) {side : AnnualClaimSide} {amount : Int}
    (hget : s.accounts.get? id = some account) (henough : ¬ account.claims side < amount)
    (haccounts : s'.accounts = s.accounts.set id account')
    (hclaims : ∀ other, account'.claims other =
      account.claims other - if other = side then amount else 0)
    (hsupply : ∀ other, s'.supply other = s.supply other - if other = side then amount else 0)
    (hretired : ∀ other, s'.burned other + s'.redeemed other =
      s.burned other + s.redeemed other + if other = side then amount else 0)
    (hburned : ∀ other, s.burned other ≤ s'.burned other)
    (hredeemed : ∀ other, s.redeemed other ≤ s'.redeemed other)
    (haccountable : s'.accountableRaw = s.accountableRaw) : s'.Holdings ∧ s'.Accounted := by
  refine ⟨h.holdings.set hget haccounts (fun other => ?_) fun other => ?_,
    fun other => ?_, fun other => ?_, fun other => ?_, ?_⟩
  · have hnonneg := h.holdings.nonneg hget other
    rw [hclaims other]
    split
    · rename_i heq
      subst heq
      omega
    · omega
  · rw [hclaims other, hsupply other]
    omega
  · have hold := h.accounted.accountable other
    have hnew := hretired other
    rw [haccountable, hsupply other]
    omega
  · exact (h.accounted.burned other).trans (hburned other)
  · exact (h.accounted.redeemed other).trans (hredeemed other)
  · rw [haccountable]
    exact h.accounted.le

theorem burn_settles {side : AnnualClaimSide} {raw : Int} (h : s.Inv) :
    Settles s (burn id side raw) s fun _ s' => s.Keeps s' := by
  refine .this (.check fun account haccount => .check fun amount hamount => .check fun _ henough =>
    .assign ?_)
  have hget := requireAccount_eq_ok haccount
  obtain ⟨rfl, -, hpos, -⟩ := checkedRaw_eq_ok hamount
  have hpos := hpos rfl
  rw [demand_eq_ok] at henough
  have hcounter := h.addU64_counter hget hpos henough (.inl rfl)
  -- what a state needs to be the one after the burn
  have hkeeps : ∀ s' : AnnualReferenceModel,
      s'.accounts = s.accounts.set id (account.setClaims side (account.claims side - amount)) →
      (∀ other, s'.supply other = s.supply other - if other = side then amount else 0) →
      (∀ other, s'.burned other = s.burned other + if other = side then amount else 0) →
      s'.accountableRaw = s.accountableRaw → (∀ other, s'.redeemed other = s.redeemed other) →
      (∀ other, s'.remaining other = s.remaining other) → s'.events = s.events →
      s'.snapshot = s.snapshot → (s.Covered → s'.Covered) → s.Keeps s' := by
    intro s' haccounts hsupply hburned haccountable hredeemed hremaining hevents hsnapshot hcovered
    obtain ⟨hholdings, haccounted⟩ := h.retire hget henough haccounts
      (fun other => by rw [AnnualAccountState.claims_setClaims]; split <;> simp_all) hsupply
      (fun other => by rw [hburned, hredeemed]; omega)
      (fun other => by rw [hburned]; split <;> omega)
        (fun other => (hredeemed other).ge) haccountable
    refine ⟨⟨hholdings, haccounted, fun hget => h.events (hevents ▸ hget), fun hopen side => ?_,
      fun hfinal => ?_⟩, hcovered⟩
    · rw [hredeemed]
      exact h.unredeemed (hsnapshot ▸ hopen) side
    · exact (h.final (hsnapshot ▸ hfinal)).congr haccountable hredeemed hremaining
  cases side with
  | pt =>
    refine .assign (.pass hcounter (.done (hkeeps _ rfl (fun other => ?_) (fun other => ?_) rfl
      (fun other => ?_) (fun other => ?_) rfl rfl fun hcovered => hcovered)))
    all_goals cases other <;> simp [supply, burned, redeemed, remaining, setAccount]
  | dr =>
    refine .assign (.pass hcounter (.done (hkeeps _ rfl (fun other => ?_) (fun other => ?_) rfl
      (fun other => ?_) (fun other => ?_) rfl rfl fun hcovered => hcovered)))
    all_goals cases other <;> simp [supply, burned, redeemed, remaining, setAccount]

/-! ## Pools -/

theorem Inv.accountable_nonneg (h : s.Inv) : 0 ≤ s.accountableRaw := by
  have hheld : 0 ≤ s.held .pt := by
    apply List.sum_nonneg
    intro x hx
    obtain ⟨e, he, rfl⟩ := List.mem_map.mp hx
    exact h.holdings.nonneg (Record.get?_of_mem he) .pt
  have hsupply := h.holdings.supply .pt
  have haccountable := h.accounted.accountable .pt
  have hburned := h.accounted.burned .pt
  have hredeemed := h.accounted.redeemed .pt
  omega

/-- The two pools of an index split the accountable amount. -/
theorem Inv.previewAllocation (h : s.Inv) (hopen : s.snapshot = none)
    {allocation : AnnualAllocation}
    (hallocation : s.previewAllocation = .ok allocation) :
    allocation.accountableRaw = s.accountableRaw
      ∧ allocation.ptPoolRaw + allocation.drPoolRaw = s.accountableRaw
      ∧ 0 ≤ allocation.ptPoolRaw ∧ 0 ≤ allocation.drPoolRaw ∧ Retained allocation.index := by
  obtain ⟨i, hi, hretained⟩ := h.currentIndex
  simp only [AnnualReferenceModel.previewAllocation, hopen, hi, Result.bind_eq_ok, Except.ok.injEq,
    exists_eq_left', Result.pure_eq_ok] at hallocation
  subst hallocation
  have hQ := h.accountable_nonneg
  have hn := hretained.pos
  have hle := hretained.le
  have hprod : 0 ≤ s.accountableRaw * (i.denominator - i.numerator) :=
    mul_nonneg hQ (by omega)
  have hdr : (s.accountableRaw * (i.denominator - i.numerator)).tdiv i.denominator
      ≤ s.accountableRaw := by
    rw [Int.tdiv_eq_ediv_of_nonneg hprod]
    apply Int.ediv_le_of_le_mul (by omega)
    exact mul_le_mul_of_nonneg_left (by omega) hQ
  refine ⟨rfl, by dsimp only; omega, by dsimp only; omega, ?_, hretained⟩
  exact Int.tdiv_nonneg hprod (by omega)

theorem finalize_settles {nowSeconds : Int} {ledgerComplete : Bool} (h : s.Inv) :
    Settles s (finalize nowSeconds ledgerComplete) s fun _ s' => s.Keeps s' := by
  refine .this (.check fun now _ => .check fun _ hopen => .check fun _ _ => .check fun _ _ =>
    .check fun _ _ => .check fun _ _ => .check fun allocation hallocation =>
    .assign (.assign (.assign (.pure ?_))))
  rw [demand_eq_ok] at hopen
  obtain ⟨haccountable, hpools, hpt, hdr, hretained⟩ := h.previewAllocation hopen hallocation
  have hredeemed := h.unredeemed hopen
  refine ⟨⟨h.holdings.congr rfl fun side => by cases side <;> rfl, ?_, h.events, ?_, ?_⟩, ?_⟩
  · exact ⟨h.accounted.accountable, h.accounted.burned, h.accounted.redeemed, h.accounted.le⟩
  · exact fun hnone => nomatch hnone
  · intro f hf
    obtain rfl := Option.some.inj hf
    refine ⟨haccountable, rfl, hpools, fun side => ?_, hretained, fun side => ?_⟩
    · cases side with
      | pt => exact hpt
      | dr => exact hdr
    · have hzero := hredeemed side
      cases side <;> simp [remaining, redeemed, AnnualFinalSnapshot.pool] at hzero ⊢ <;>
        simp [hzero]
  · intro hcovered
    simp only [Covered, obligation, hopen] at hcovered ⊢
    simp at hcovered ⊢
    omega

/-- A redemption pays the step of the floor of a side's share. -/
theorem Inv.previewRedemption (h : s.Inv) {side : AnnualClaimSide} {amount payout : Int}
    (hpayout : s.previewRedemption id side amount = .ok payout) :
    ∃ f account, s.snapshot = some f ∧ s.accounts.get? id = some account
      ∧ ¬ account.claims side < amount
      ∧ payout = (s.redeemed side + amount) * f.pool side / f.supplyDenominatorRaw
        - s.redeemed side * f.pool side / f.supplyDenominatorRaw := by
  simp only [AnnualReferenceModel.previewRedemption] at hpayout
  simp only [Result.bind_eq_ok, demand_eq_ok, Result.exists_unit, Result.okOr_eq_ok] at hpayout
  obtain ⟨account, haccount, amount, hamount, f, hf, henough, hvalue⟩ := hpayout
  obtain ⟨rfl, -, hpos, -⟩ := checkedRaw_eq_ok hamount
  have hpos := hpos rfl
  have hredeemed := h.accounted.redeemed side
  have hpool := (h.final hf).nonneg side
  refine ⟨f, account, hf, requireAccount_eq_ok haccount, henough, ?_⟩
  split at hvalue
  · rename_i hzero
    rw [Result.pure_eq_ok] at hvalue
    simp [hzero, ← hvalue]
  · rw [Result.pure_eq_ok] at hvalue
    have hfirst : 0 ≤ (s.redeemed side + amount) * f.pool side := mul_nonneg (by omega) hpool
    have hsecond : 0 ≤ s.redeemed side * f.pool side := mul_nonneg hredeemed hpool
    rw [← Int.tdiv_eq_ediv_of_nonneg hfirst, ← Int.tdiv_eq_ediv_of_nonneg hsecond]
    cases side with
    | pt => exact hvalue.symm
    | dr => exact hvalue.symm

theorem redeem_settles {side : AnnualClaimSide} {raw : Int} {allowZero : Bool} (h : s.Inv) :
    Settles s (redeem id side raw allowZero) s fun _ s' => s.Keeps s' := by
  refine .this (.check fun account haccount => .check fun amount hamount =>
    .check fun payout hpayout => .check fun _ _ => .check fun _ _ =>
      .check fun nextCollateral _ => ?_)
  have hget := requireAccount_eq_ok haccount
  obtain ⟨rfl, -, hpos, -⟩ := checkedRaw_eq_ok hamount
  have hpos := hpos rfl
  obtain ⟨f, account', hf, hget', henough, hstep⟩ := h.previewRedemption hpayout
  rw [hget] at hget'
  cases hget'
  have hcounter := h.addU64_counter hget hpos henough (.inr rfl)
  have hallotted := h.final hf
  -- what a state needs to be the one after the redemption
  have hkeeps : ∀ s' : AnnualReferenceModel,
      s'.accounts = s.accounts.set id { account.setClaims side (account.claims side - amount) with
        collateralRaw := nextCollateral } →
      (∀ other, s'.supply other = s.supply other - if other = side then amount else 0) →
      (∀ other, s'.redeemed other = s.redeemed other + if other = side then amount else 0) →
      (∀ other, s'.remaining other = s.remaining other - if other = side then payout else 0) →
      s'.accountableRaw = s.accountableRaw → (∀ other, s'.burned other = s.burned other) →
      s'.events = s.events → s'.snapshot = s.snapshot →
      s'.actualCustodyRaw = s.actualCustodyRaw - payout → s'.donationsRaw = s.donationsRaw →
      s.Keeps s' := by
    intro s' haccounts hsupply hredeemed hremaining haccountable hburned hevents hsnapshot hactual
      hdonations
    have hclaims : ∀ other, AnnualAccountState.claims { account.setClaims side
        (account.claims side - amount) with collateralRaw := nextCollateral } other =
        account.claims other - if other = side then amount else 0 := by
      intro other
      cases side <;> cases other <;> simp [AnnualAccountState.claims, AnnualAccountState.setClaims]
    obtain ⟨hholdings, haccounted⟩ := h.retire hget henough haccounts hclaims hsupply
      (fun other => by rw [hburned, hredeemed]; omega) (fun other => (hburned other).ge)
      (fun other => by rw [hredeemed]; split <;> omega) haccountable
    have hf' : s'.snapshot = some f := hsnapshot.trans hf
    refine ⟨⟨hholdings, haccounted, fun hget => h.events (hevents ▸ hget), fun hopen => ?_,
      fun {f'} hfinal => ?_⟩, fun hcovered => ?_⟩
    · rw [hf'] at hopen
      cases hopen
    · rw [hf'] at hfinal
      obtain rfl := Option.some.inj hfinal
      refine ⟨?_, ?_, ?_, hallotted.nonneg, hallotted.index, fun other => ?_⟩
      · rw [haccountable, hallotted.accountable]
      · rw [haccountable, hallotted.denominator]
      · rw [haccountable, hallotted.pools]
      · have hold := hallotted.remaining other
        rw [hremaining, hredeemed]
        split
        · rename_i heq
          subst heq
          omega
        · simp only [add_zero, sub_zero]
          exact hold
    · have hpt := hremaining .pt
      have hdr := hremaining .dr
      simp only [Covered, obligation_final hf, obligation_final hf'] at hcovered ⊢
      simp only [remaining] at hpt hdr
      cases side <;> simp at hpt hdr <;> omega
  have hlast : ∀ account' : AnnualAccountState,
      (s.accounts.set id account').set id
        { account.setClaims side (account.claims side - amount) with
          collateralRaw := nextCollateral } =
      s.accounts.set id { account.setClaims side (account.claims side - amount) with
        collateralRaw := nextCollateral } := fun _ => Record.set_set _ _ _ _
  cases side with
  | pt =>
    refine .check fun _ _ => .assign (.assign (.pass hcounter (.assign (.assign (.assign (.assign
      (.pure (hkeeps _ (hlast _) (fun other => ?_) (fun other => ?_) (fun other => ?_) rfl
        (fun other => ?_) rfl rfl rfl rfl))))))))
    all_goals cases other <;> simp [supply, burned, redeemed, remaining, setAccount]
  | dr =>
    refine .check fun _ _ => .assign (.assign (.pass hcounter (.assign (.assign (.assign (.assign
      (.pure (hkeeps _ (hlast _) (fun other => ?_) (fun other => ?_) (fun other => ?_) rfl
        (fun other => ?_) rfl rfl rfl rfl))))))))
    all_goals cases other <;> simp [supply, burned, redeemed, remaining, setAccount]

/-! ## Custody -/

/-- Only custody fields change. -/
theorem Inv.custody (h : s.Inv) (actual donations : Int) (blocked : Bool) :
    Inv { s with actualCustodyRaw := actual, donationsRaw := donations,
                 custodyBlocked := blocked } := by
  refine ⟨h.holdings.congr rfl fun side => by cases side <;> rfl, ?_, h.events, h.unredeemed,
    fun hfinal => ?_⟩
  · exact ⟨h.accounted.accountable, h.accounted.burned, h.accounted.redeemed, h.accounted.le⟩
  · exact (h.final hfinal).congr rfl (fun _ => rfl) fun _ => rfl

theorem donate_settles {raw : Int} (h : s.Inv) :
    Settles s (donate raw) s fun _ s' => s.Keeps s' := by
  refine .this (.check fun amount _ => .check fun nextActual hactual =>
    .check fun nextDonations hdonations => .assign (.done ⟨h.custody _ _ _, fun hcovered => ?_⟩))
  obtain ⟨rfl, -, -⟩ := addU64_eq_ok.mp hactual
  obtain ⟨rfl, -, -⟩ := addU64_eq_ok.mp hdonations
  simp only [Covered, obligation] at hcovered ⊢
  omega

theorem setCustodyBlocked_settles {blocked : Bool} (h : s.Inv) :
    Settles s (setCustodyBlocked blocked) s fun _ s' => s.Keeps s' :=
  .done ⟨h.custody _ _ _, fun hcovered => hcovered⟩

theorem reportActualCustody_settles {raw : Int} (h : s.Inv) :
    Settles s (reportActualCustody raw) s fun _ s' => s'.Inv :=
  .check fun _ _ => .done (h.custody _ _ _)

/-- The state the constructor gives. -/
theorem inv_new {term : AnnualTermIdentity} {accountIds : List String}
    (h : new term accountIds = .ok s) : s.Inv ∧ s.Covered := by
  rw [new] at h
  simp only [Result.bind_eq_ok, demand_eq_ok, Result.exists_unit, Result.pure_eq_ok] at h
  obtain ⟨term, -, -, accounts, haccounts, rfl⟩ := h
  -- every account starts empty
  have hempty : ∀ (ids : List String) (r r' : Record String AnnualAccountState),
      (∀ e ∈ r.entries, e.2 = ⟨0, 0, 0⟩) → ids.foldlM addAccount r = .ok r' →
      ∀ e ∈ r'.entries, e.2 = ⟨0, 0, 0⟩ := by
    intro ids
    induction ids with
    | nil =>
      intro r r' hr hfold
      cases hfold
      exact hr
    | cons rawId ids ih =>
      intro r r' hr hfold
      rw [List.foldlM_cons, Result.bind_eq_ok] at hfold
      obtain ⟨r₁, hadd, hrest⟩ := hfold
      refine ih r₁ r' (fun e he => ?_) hrest
      rw [addAccount] at hadd
      simp only [Result.bind_eq_ok, demand_eq_ok, Result.exists_unit, Result.pure_eq_ok] at hadd
      obtain ⟨id, -, -, rfl⟩ := hadd
      have hget := Record.get?_of_mem he
      rw [Record.get?_set] at hget
      split at hget
      · exact (Option.some.inj hget).symm
      · exact hr (e.1, e.2) (Record.mem_of_get? hget)
  have hall := hempty accountIds ∅ accounts (fun e he => by cases he) haccounts
  refine ⟨⟨⟨fun {id account} hget side => ?_, fun side => ?_⟩, ?_, fun hget => ?_, fun _ side => ?_,
    fun hfinal => by cases hfinal⟩, rfl⟩
  · have hzero := hall _ (Record.mem_of_get? hget)
    dsimp only at hzero
    rw [hzero]
    cases side <;> decide
  · have hsum : accounts.sum (fun _ account => account.claims side) = 0 := by
      apply List.sum_eq_zero
      intro x hx
      obtain ⟨e, he, rfl⟩ := List.mem_map.mp hx
      rw [hall e he]
      cases side <;> rfl
    rw [held]
    rw [hsum]
    cases side <;> rfl
  · refine ⟨fun side => ?_, fun side => ?_, fun side => ?_, show (0 : Int) ≤ U64_MAX by decide⟩
    all_goals cases side <;> simp [supply, burned, redeemed]
  · cases hget
  · cases side <;> rfl

end AnnualReferenceModel

/-! ## Runs -/

open AnnualReferenceModel

/-- Operations that leave custody to the books. -/
def Operation.reports : Operation → Bool
  | .reportActualCustody _ => true
  | _ => false

variable {s : AnnualReferenceModel}

/-- **One operation**: it throws and changes nothing, or keeps the invariant; and custody stays
covered unless it was reported. -/
theorem Operation.settles (operation : Operation) (h : s.Inv) :
    Settles s operation.apply s fun _ s' =>
      s'.Inv ∧ (operation.reports = false → s.Covered → s'.Covered) := by
  have hkept : ∀ {α : Type} {m : Operate α} {f : α → Returned},
      Settles s m s (fun _ s' => s.Keeps s') →
      Settles s (m >>= fun a => pure (f a)) s fun _ s' =>
        s'.Inv ∧ (operation.reports = false → s.Covered → s'.Covered) := by
    intro α m f hm
    exact (hm.mono fun _ _ hkeeps => ⟨hkeeps.1, fun _ => hkeeps.2⟩).returns
  cases operation with
  | deposit accountId raw nowSeconds => exact hkept (deposit_settles h)
  | recordEvent input => exact hkept (recordEvent_settles h)
  | transfer fromId toId side raw => exact hkept (transfer_settles h)
  | recombine accountId raw => exact hkept (recombine_settles h)
  | burn accountId side raw => exact hkept (burn_settles h)
  | finalize nowSeconds ledgerComplete => exact hkept (finalize_settles h)
  | redeem accountId side raw allowZero => exact hkept (redeem_settles h)
  | donate raw => exact hkept (donate_settles h)
  | setCustodyBlocked blocked => exact hkept (setCustodyBlocked_settles h)
  | reportActualCustody raw =>
    exact ((reportActualCustody_settles h).mono fun _ _ hinv =>
      ⟨hinv, fun hreports => nomatch hreports⟩).returns

/-- After any operation the invariant holds, whether it returned or threw. -/
theorem Operation.after (operation : Operation) (h : s.Inv) :
    (operation.apply s).2.Inv
      ∧ (operation.reports = false → s.Covered → (operation.apply s).2.Covered) := by
  have hsettles := operation.settles h
  cases hresult : operation.apply s with
  | mk r s' =>
    cases r with
    | ok a => exact hsettles.of_ok hresult
    | error e =>
      obtain rfl := hsettles.of_error hresult
      exact ⟨h, fun _ hcovered => hcovered⟩

/-- **All operations** of a sequence. -/
theorem inv_afterAll (operations : List Operation) (h : s.Inv) :
    (afterAll s operations).Inv
      ∧ ((∀ operation ∈ operations, operation.reports = false) → s.Covered →
        (afterAll s operations).Covered) := by
  induction operations generalizing s with
  | nil => exact ⟨h, fun _ hcovered => hcovered⟩
  | cons operation operations ih =>
    obtain ⟨hinv, hcovers⟩ := operation.after h
    obtain ⟨hinv', hcovers'⟩ := ih hinv
    refine ⟨hinv', fun hreports hcovered => ?_⟩
    exact hcovers' (fun o ho => hreports o (List.mem_cons_of_mem _ ho))
      (hcovers (hreports operation List.mem_cons_self) hcovered)

/-- **The reference keeps its books.** Whatever is asked of a model of any term and accounts, in the
state `s` that is reached:

* the supply of a side is what accounts hold of it;
* the accountable amount is supply, burned and redeemed claims of either side;
* the index is a fraction in lowest terms, above zero and at most one;
* final pools split the accountable amount, and what remains of a pool is the pool less the floor of
  the redeemed share;
* custody is what is owed and what was donated, unless it was reported;
* an operation that throws leaves the state as it was.
-/
theorem reference_keeps_books {term : AnnualTermIdentity} {accountIds : List String}
    {s₀ : AnnualReferenceModel} (h : new term accountIds = .ok s₀) (operations : List Operation) :
    (∀ side, (afterAll s₀ operations).supply side = (afterAll s₀ operations).held side)
    ∧ (∀ side, (afterAll s₀ operations).accountableRaw = (afterAll s₀ operations).supply side
      + (afterAll s₀ operations).burned side + (afterAll s₀ operations).redeemed side)
    ∧ (∃ i, (afterAll s₀ operations).currentIndex = .ok i ∧ Retained i)
    ∧ (∀ f, (afterAll s₀ operations).snapshot = some f →
      f.ptPoolRaw + f.drPoolRaw = (afterAll s₀ operations).accountableRaw ∧ Retained f.index
      ∧ f.supplyDenominatorRaw = (afterAll s₀ operations).accountableRaw
      ∧ ∀ side, (afterAll s₀ operations).remaining side = f.pool side
        - (afterAll s₀ operations).redeemed side * f.pool side / f.supplyDenominatorRaw)
    ∧ ((∀ raw, Operation.reportActualCustody raw ∉ operations) →
      (afterAll s₀ operations).actualCustodyRaw =
        (afterAll s₀ operations).obligation + (afterAll s₀ operations).donationsRaw)
    ∧ (∀ operation e s', Operation.apply operation (afterAll s₀ operations) = (.error e, s') →
      s' = afterAll s₀ operations) := by
  obtain ⟨hinv₀, hcovered₀⟩ := inv_new h
  obtain ⟨hinv, hcovers⟩ := inv_afterAll operations hinv₀
  refine ⟨hinv.holdings.supply, hinv.accounted.accountable, hinv.currentIndex, fun f hf => ?_,
    fun hreports => ?_, fun operation e s' herror => ?_⟩
  · have hallotted := hinv.final hf
    exact ⟨hallotted.pools, hallotted.index, hallotted.denominator, hallotted.remaining⟩
  · refine hcovers (fun operation hmem => ?_) hcovered₀
    cases operation with
    | reportActualCustody raw => exact absurd hmem (hreports raw)
    | _ => rfl
  · exact (operation.settles hinv).of_error herror

namespace Sample

/-- A series of two holders. -/
def term : AnnualTermIdentity :=
  { chain := "solana", issuer := "issuer", mint := "mint", symbol := "KO", year := 2027 }

/-- A dividend that leaves four fifths of a share. -/
def event : AnnualEventRecord :=
  { id := "q1", revision := 1, chain := "solana", issuer := "issuer", mint := "mint"
    exDate := some "2027-03-12", status := .qualified, m0 := "1.0", m1 := "1.25"
    finalized := true }

/-- A year of the series: a refused second start, and one redemption after finalization. -/
def operations : List Operation :=
  [.deposit "alice" 103 1_700_000_000, .recordEvent event, .transfer "alice" "bob" .dr 40,
    .burn "bob" .dr 5, .donate 7, .finalize 1_831_000_000 true, .deposit "alice" 1 1_831_000_000,
    .redeem "bob" .dr 20 false]

end Sample

/-- A year in numbers: `103` split at four fifths, and a fifth of twenty claims paid. -/
theorem reference_keeps_books_sample : ∃ s₀, new Sample.term ["alice", "bob"] = .ok s₀
    ∧ (∀ side, (afterAll s₀ Sample.operations).supply side
      = (afterAll s₀ Sample.operations).held side)
    ∧ (afterAll s₀ Sample.operations).remainingDrPoolRaw = 17
    ∧ (afterAll s₀ Sample.operations).actualCustodyRaw = 107 := by
  have hnew : (new Sample.term ["alice", "bob"]).toOption.any (fun s₀ =>
      (afterAll s₀ Sample.operations).remainingDrPoolRaw = 17
        ∧ (afterAll s₀ Sample.operations).actualCustodyRaw = 107) = true := by
    decide +kernel
  rw [Option.any_eq_true] at hnew
  obtain ⟨s₀, hs₀, hvalues⟩ := hnew
  obtain ⟨hremaining, hactual⟩ := of_decide_eq_true hvalues
  have hok := Result.toOption_eq_some.mp hs₀
  exact ⟨s₀, hok, (reference_keeps_books hok Sample.operations).1, hremaining, hactual⟩

end AnnualReference

end DividendX
