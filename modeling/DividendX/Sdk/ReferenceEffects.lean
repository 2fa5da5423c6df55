import DividendX.Sdk.ExactReference

/-!
# What an accepted operation of the reference changes

`AnnualInvariants` says what the operations keep. This module says when each of them returns, and by
how much it moves the numbers of the model (`Movement`). A movement is additive, so that it can be
compared with what another party's books do in the same step.
-/

namespace DividendX

namespace AnnualReference

open Method

/-- How far the numbers of a model move. -/
structure Movement where
  accountable : Int := 0
  custody : Int := 0
  supply : AnnualClaimSide → Int := fun _ => 0
  redeemed : AnnualClaimSide → Int := fun _ => 0
  claims : String → AnnualClaimSide → Int := fun _ _ => 0
  collateral : String → Int := fun _ => 0

/-- What a movement makes of the account under an id. -/
def Movement.account (m : Movement) (id : String) (account : AnnualAccountState) :
    AnnualAccountState :=
  { collateralRaw := account.collateralRaw + m.collateral id
    ptRaw := account.ptRaw + m.claims id .pt
    drRaw := account.drRaw + m.claims id .dr }

namespace AnnualReferenceModel

/-- What operations on amounts leave alone. -/
def terms (s : AnnualReferenceModel) :
    AnnualTermIdentity × Int × Int × Bool × Option AnnualFinalSnapshot :=
  (s.term, s.startSeconds, s.maturitySeconds, s.custodyBlocked, s.snapshot)

/-- The numbers of a model moved. -/
structure Shifted (s s' : AnnualReferenceModel) (m : Movement) : Prop where
  terms : s'.terms = s.terms
  accountable : s'.accountableRaw = s.accountableRaw + m.accountable
  custody : s'.actualCustodyRaw = s.actualCustodyRaw + m.custody
  supply : ∀ side, s'.supply side = s.supply side + m.supply side
  redeemed : ∀ side, s'.redeemed side = s.redeemed side + m.redeemed side
  accounts : ∀ id, s'.accounts.get? id = (s.accounts.get? id).map (m.account id)

variable {s s' : AnnualReferenceModel} {id : String} {account account' : AnnualAccountState}
  {m : Movement}

/-- One account is written. -/
theorem accounts_of_set (account' : AnnualAccountState) (hget : s.accounts.get? id = some account)
    (haccount : account' = m.account id account)
    (hothers : ∀ other, other ≠ id → ∀ a, m.account other a = a) (other : String) :
    (s.accounts.set id account').get? other = (s.accounts.get? other).map (m.account other) := by
  rw [Record.get?_set]
  split
  · rename_i heq
    rw [heq, hget, haccount]
    rfl
  · rename_i hne
    cases s.accounts.get? other with
    | none => rfl
    | some a => rw [Option.map_some, hothers other hne a]

/-- An account that is required after a movement. -/
theorem Shifted.requireAccount (h : s.Shifted s' m) (hget : s.requireAccount id = .ok account) :
    s'.requireAccount id = .ok (m.account id account) := by
  rw [AnnualReferenceModel.requireAccount] at hget ⊢
  simp only [Result.bind_eq_ok, Result.okOr_eq_ok] at hget ⊢
  obtain ⟨id', hid, hget⟩ := hget
  refine ⟨id', hid, ?_⟩
  have hsame : id' = id := by
    rw [checkedAccountId] at hid
    simp only [Result.bind_eq_ok, demand_eq_ok, Result.exists_unit, Result.pure_eq_ok] at hid
    exact hid.2.symm
  rw [hsame] at hget ⊢
  rw [h.accounts, hget]
  rfl

/-! ## Checks that pass -/

theorem demand_ok {p : Prop} [Decidable p] {c : AnnualReferenceErrorCode} {message : String}
    (h : p) : demand p c message = .ok () :=
  demand_eq_ok.mpr h

theorem addU64_ok {left right : Int} (hlo : 0 ≤ left + right) (hhi : left + right ≤ U64_MAX) :
    addU64 left right = .ok (left + right) :=
  addU64_eq_ok.mpr ⟨rfl, hlo, hhi⟩

theorem checkedRaw_ok {raw : Int} (hpos : 0 < raw) (hle : raw ≤ U64_MAX) :
    checkedRaw raw = .ok raw := by
  rw [checkedRaw]
  simp only [Result.bind_eq_ok, demand_eq_ok, Result.exists_unit, Result.pure_eq_ok, and_true]
  omega

theorem checkedNow_ok {now : Int} (hlo : 0 ≤ now) (hhi : now ≤ 2 ^ 53 - 1) :
    checkedNow now = .ok now := by
  rw [checkedNow]
  simp only [Result.bind_eq_ok, demand_eq_ok, Result.exists_unit, Result.pure_eq_ok, and_true]
  omega

theorem requireCustodyAvailable_ok (hfree : s.custodyBlocked = false)
    (hcovered : s.obligation ≤ s.actualCustodyRaw) : s.requireCustodyAvailable = .ok () := by
  rw [requireCustodyAvailable]
  simp only [Result.bind_eq_ok, demand_eq_ok, Result.exists_unit]
  exact ⟨hfree, not_lt.mpr hcovered⟩

/-- Claims of a side are at most the accountable amount. -/
theorem Inv.supply_le (h : s.Inv) (side : AnnualClaimSide) : s.supply side ≤ s.accountableRaw := by
  have haccountable := h.accounted.accountable side
  have hburned := h.accounted.burned side
  have hredeemed := h.accounted.redeemed side
  omega

theorem Inv.supply_nonneg (h : s.Inv) (side : AnnualClaimSide) : 0 ≤ s.supply side := by
  rw [h.holdings.supply side]
  apply List.sum_nonneg
  intro x hx
  obtain ⟨e, he, rfl⟩ := List.mem_map.mp hx
  exact h.holdings.nonneg (Record.get?_of_mem he) side

/-! ## Operations -/

/-- A deposit within its bounds returns. -/
theorem deposit_returns {raw now : Int} (h : s.Inv) (hrequire : s.requireAccount id = .ok account)
    (hpos : 0 < raw) (hnow : 0 ≤ now ∧ now ≤ 2 ^ 53 - 1) (hopen : s.snapshot = none)
    (hearly : now < s.startSeconds) (hfree : s.custodyBlocked = false)
    (hcovered : s.accountableRaw ≤ s.actualCustodyRaw) (hfits : s.accountableRaw + raw ≤ U64_MAX)
    (hcustody : s.actualCustodyRaw + raw ≤ U64_MAX) :
    Returns (deposit id raw now) s fun _ s' => s.Shifted s'
      { accountable := raw, custody := raw, supply := fun _ => raw
        claims := fun other _ => if other = id then raw else 0 } := by
  have hget := requireAccount_eq_ok hrequire
  have hQ := h.accountable_nonneg
  have hobligation := obligation_open hopen
  -- the claims of an account are part of the supply, and the supply of the accountable amount
  have hsupplyPt : addU64 s.ptSupplyRaw raw = .ok (s.ptSupplyRaw + raw) := by
    have hle := h.supply_le .pt
    have hnonneg := h.supply_nonneg .pt
    simp only [supply] at hle hnonneg
    exact addU64_ok (by omega) (by omega)
  have hsupplyDr : addU64 s.drSupplyRaw raw = .ok (s.drSupplyRaw + raw) := by
    have hle := h.supply_le .dr
    have hnonneg := h.supply_nonneg .dr
    simp only [supply] at hle hnonneg
    exact addU64_ok (by omega) (by omega)
  have hclaims : ∀ side, addU64 (account.claims side) raw = .ok (account.claims side + raw) := by
    intro side
    have hle := h.supply_le side
    have hheld := h.holdings.claims_le hget side
    have hnonneg := h.holdings.nonneg hget side
    exact addU64_ok (by omega) (by omega)
  refine .this (.pass hrequire (.pass (checkedRaw_ok hpos (by omega))
    (.pass (checkedNow_ok hnow.1 hnow.2) (.pass (demand_ok hopen)
    (.pass (demand_ok (not_le.mpr hearly)) (.pass (requireCustodyAvailable_ok hfree (by omega))
    (.pass (addU64_ok (by omega) hfits) (.pass hsupplyPt (.pass hsupplyDr
    (.pass (addU64_ok (by omega) hcustody) (.pass (hclaims .pt) (.pass (hclaims .dr)
    (.assign (.assign (.assign (.assign (.done ?_)))))))))))))))))
  refine ⟨rfl, rfl, rfl, fun side => ?_, fun side => ?_, ?_⟩
  · cases side <;> rfl
  · cases side <;> exact (Int.add_zero _).symm
  · refine accounts_of_set _ hget ?_ fun other hother a => ?_
    · simp [Movement.account, AnnualAccountState.claims]
    · simp [Movement.account, hother]

/-- So does a transfer of what is there. -/
theorem transfer_returns {fromId toId : String} {source target : AnnualAccountState}
    {side : AnnualClaimSide} {raw : Int} (h : s.Inv)
    (hsource : s.requireAccount fromId = .ok source) (htarget : s.requireAccount toId = .ok target)
    (hpos : 0 < raw) (hdiffer : fromId ≠ toId) (henough : raw ≤ source.claims side) :
    Returns (transfer fromId toId side raw) s fun _ s' => s.Shifted s'
      { claims := fun other side' => if side' = side then
          (if other = toId then raw else 0) - (if other = fromId then raw else 0) else 0 } := by
  have hfrom := requireAccount_eq_ok hsource
  have hto := requireAccount_eq_ok htarget
  have hle := h.accounted.le
  have hsupply := h.supply_le side
  -- both accounts together hold at most the supply
  have hboth : target.claims side + raw ≤ s.supply side := by
    have hpaid := held_setAccount (source.setClaims side (source.claims side - raw)) hfrom side
    rw [AnnualAccountState.claims_setClaims, if_pos rfl] at hpaid
    have hrest : target.claims side ≤
        (s.setAccount fromId (source.setClaims side (source.claims side - raw))).held side := by
      refine Record.le_sum (k := toId) (f := fun _ (a : AnnualAccountState) => a.claims side)
        (fun other a hget => ?_) ?_
      · rw [setAccount, Record.get?_set] at hget
        split at hget
        · cases hget
          rw [AnnualAccountState.claims_setClaims, if_pos rfl]
          omega
        · exact h.holdings.nonneg hget side
      · rw [setAccount, Record.get?_set, if_neg (Ne.symm hdiffer)]
        exact hto
    have hheld := h.holdings.supply side
    omega
  have hnonneg := h.holdings.nonneg hto side
  refine .this (.pass hsource (.pass htarget (.pass (checkedRaw_ok hpos (by omega))
    (.pass (demand_ok hdiffer) (.pass (demand_ok (not_lt.mpr henough))
    (.pass (addU64_ok (by omega) (by omega)) (.assign (.done ?_))))))))
  refine ⟨rfl, (Int.add_zero _).symm, (Int.add_zero _).symm, fun side => ?_, fun side => ?_,
    fun other => ?_⟩
  · cases side <;> exact (Int.add_zero _).symm
  · cases side <;> exact (Int.add_zero _).symm
  · simp only [setAccount, Record.get?_set]
    split
    · rename_i heq
      rw [heq, hto, Option.map_some, Option.some.injEq]
      simp only [Movement.account, if_neg (Ne.symm hdiffer)]
      cases side <;> simp [AnnualAccountState.setClaims, AnnualAccountState.claims]
    · rename_i hne
      split
      · rename_i heq
        rw [heq, hfrom, Option.map_some, Option.some.injEq]
        simp only [Movement.account, if_neg hdiffer]
        cases side <;> simp [AnnualAccountState.setClaims, AnnualAccountState.claims] <;> omega
      · rename_i hne'
        cases s.accounts.get? other with
        | none => rfl
        | some a => simp [Movement.account, hne, hne']

/-- So does a recombination of what is there. -/
theorem recombine_returns {raw : Int} (h : s.Inv) (hrequire : s.requireAccount id = .ok account)
    (hpos : 0 < raw) (hopen : s.snapshot = none) (henough : ∀ side, raw ≤ account.claims side)
    (hfree : s.custodyBlocked = false) (hcovered : s.accountableRaw ≤ s.actualCustodyRaw)
    (hcredit : 0 ≤ account.collateralRaw + raw ∧ account.collateralRaw + raw ≤ U64_MAX) :
    Returns (recombine id raw) s fun _ s' => s.Shifted s'
      { accountable := -raw, custody := -raw, supply := fun _ => -raw
        claims := fun other _ => if other = id then -raw else 0
        collateral := fun other => if other = id then raw else 0 } := by
  have hget := requireAccount_eq_ok hrequire
  have hobligation := obligation_open hopen
  have hheld := h.holdings.claims_le hget .pt
  have hsupply := h.supply_le .pt
  have hle := h.accounted.le
  have hpt : raw ≤ account.ptRaw := henough .pt
  have hdr : raw ≤ account.drRaw := henough .dr
  have hclaims : account.claims .pt = account.ptRaw := rfl
  refine .this (.pass (demand_ok hopen) (.pass hrequire (.pass (checkedRaw_ok hpos (by omega))
    (.pass (demand_ok (by omega)) (.pass (requireCustodyAvailable_ok hfree (by omega))
    (.pass (addU64_ok hcredit.1 hcredit.2)
    (.assign (.assign (.assign (.assign (.done ?_)))))))))))
  refine ⟨rfl, rfl, rfl, fun side => ?_, fun side => ?_, ?_⟩
  · cases side <;> rfl
  · cases side <;> exact (Int.add_zero _).symm
  · refine accounts_of_set _ hget ?_ fun other hother a => ?_
    · simp [Movement.account, Int.sub_eq_add_neg]
    · simp [Movement.account, hother]

/-- So does a burn. -/
theorem burn_returns {side : AnnualClaimSide} {raw : Int} (h : s.Inv)
    (hrequire : s.requireAccount id = .ok account) (hpos : 0 < raw)
    (henough : raw ≤ account.claims side) :
    Returns (burn id side raw) s fun _ s' => s.Shifted s'
      { supply := fun side' => if side' = side then -raw else 0
        claims := fun other side' => if other = id ∧ side' = side then -raw else 0 } := by
  have hget := requireAccount_eq_ok hrequire
  have hheld := h.holdings.claims_le hget side
  have hsupply := h.supply_le side
  have hle := h.accounted.le
  have hcounter := h.addU64_counter hget hpos (not_lt.mpr henough) (.inl rfl)
  have haccounts := accounts_of_set (s := s) (m :=
      { supply := fun side' => if side' = side then -raw else 0
        claims := fun other side' => if other = id ∧ side' = side then -raw else 0 })
    (account.setClaims side (account.claims side - raw)) hget
    (by cases side <;> simp [Movement.account, AnnualAccountState.setClaims,
          AnnualAccountState.claims, Int.sub_eq_add_neg])
    fun other hother a => by simp [Movement.account, hother]
  refine .this (.pass hrequire (.pass (checkedRaw_ok hpos (by omega))
    (.pass (demand_ok (not_lt.mpr henough)) (.assign ?_))))
  cases side with
  | pt =>
    refine .assign (.pass hcounter (.done ⟨rfl, (Int.add_zero _).symm, (Int.add_zero _).symm,
      fun side => ?_, fun side => ?_, haccounts⟩))
    all_goals cases side <;> simp [supply, redeemed, setAccount, Int.sub_eq_add_neg]
  | dr =>
    refine .assign (.pass hcounter (.done ⟨rfl, (Int.add_zero _).symm, (Int.add_zero _).symm,
      fun side => ?_, fun side => ?_, haccounts⟩))
    all_goals cases side <;> simp [supply, redeemed, setAccount, Int.sub_eq_add_neg]

/-- So does a donation that fits. -/
theorem donate_returns {raw : Int} (hpos : 0 < raw) (hcovered : s.Covered)
    (hnonneg : 0 ≤ s.obligation) (hdonations : s.obligation ≤ s.actualCustodyRaw)
    (hfits : s.actualCustodyRaw + raw ≤ U64_MAX) :
    Returns (donate raw) s fun _ s' => s.Shifted s' { custody := raw } := by
  rw [Covered] at hcovered
  refine .this (.pass (checkedRaw_ok hpos (by omega)) (.pass (addU64_ok (by omega) hfits)
    (.pass (addU64_ok (by omega) (by omega)) (.assign (.done ?_)))))
  refine ⟨rfl, (Int.add_zero _).symm, rfl, fun side => ?_, fun side => ?_, fun other => ?_⟩
  · cases side <;> exact (Int.add_zero _).symm
  · cases side <;> exact (Int.add_zero _).symm
  · cases s.accounts.get? other with
    | none => rfl
    | some a => simp [Movement.account]

/-- What a redemption of claims pays: the step of the floor of the side's share. -/
def shareStep (s : AnnualReferenceModel) (f : AnnualFinalSnapshot) (side : AnnualClaimSide)
    (raw : Int) : Int :=
  (s.redeemed side + raw) * f.pool side / f.supplyDenominatorRaw
    - s.redeemed side * f.pool side / f.supplyDenominatorRaw

/-- Claims that an account holds can be redeemed: the denominator is not zero, the counter stays
within it, and the pool has the payout. -/
theorem Inv.shareStep_bounds (h : s.Inv) {f : AnnualFinalSnapshot} (hf : s.snapshot = some f)
    {side : AnnualClaimSide} {raw : Int} (hget : s.accounts.get? id = some account) (hpos : 0 < raw)
    (henough : raw ≤ account.claims side) :
    f.supplyDenominatorRaw ≠ 0 ∧ 0 ≤ s.shareStep f side raw ∧
      s.shareStep f side raw ≤ s.remaining side := by
  have hallotted := h.final hf
  have hdenominator := hallotted.denominator
  have hremaining := hallotted.remaining side
  have hpool := hallotted.nonneg side
  have hheld := h.holdings.claims_le hget side
  have haccountable := h.accounted.accountable side
  have hburned := h.accounted.burned side
  have hredeemed := h.accounted.redeemed side
  have hQ : 0 < f.supplyDenominatorRaw := by omega
  have hwithin : (s.redeemed side + raw) * f.pool side / f.supplyDenominatorRaw ≤ f.pool side := by
    apply Int.ediv_le_of_le_mul hQ
    rw [mul_comm (f.pool side)]
    exact mul_le_mul_of_nonneg_right (by omega) hpool
  have hmono : s.redeemed side * f.pool side / f.supplyDenominatorRaw ≤
      (s.redeemed side + raw) * f.pool side / f.supplyDenominatorRaw :=
    Int.ediv_le_ediv hQ (mul_le_mul_of_nonneg_right (by omega) hpool)
  rw [shareStep]
  omega

/-- What a redemption will pay is known, and there. -/
theorem Inv.previewRedemption_ok (h : s.Inv) {f : AnnualFinalSnapshot} (hf : s.snapshot = some f)
    {side : AnnualClaimSide} {raw : Int} (hrequire : s.requireAccount id = .ok account)
    (hpos : 0 < raw) (hle : raw ≤ U64_MAX) (henough : raw ≤ account.claims side) :
    s.previewRedemption id side raw = .ok (s.shareStep f side raw) := by
  have hget := requireAccount_eq_ok hrequire
  obtain ⟨hne, -, -⟩ := h.shareStep_bounds hf hget hpos henough
  have hpool := (h.final hf).nonneg side
  have hredeemed := h.accounted.redeemed side
  have hfirst : 0 ≤ (s.redeemed side + raw) * f.pool side := mul_nonneg (by omega) hpool
  have hsecond : 0 ≤ s.redeemed side * f.pool side := mul_nonneg hredeemed hpool
  simp only [AnnualReferenceModel.previewRedemption]
  simp only [Result.bind_eq_ok, demand_eq_ok, Result.exists_unit, Result.okOr_eq_ok]
  refine ⟨account, hrequire, raw, checkedRaw_ok hpos hle, f, hf, not_lt.mpr henough, ?_⟩
  rw [if_neg hne, Result.pure_eq_ok, shareStep, ← Int.tdiv_eq_ediv_of_nonneg hfirst,
    ← Int.tdiv_eq_ediv_of_nonneg hsecond]
  cases side <;> rfl

/-- So a redemption returns. -/
theorem redeem_returns {f : AnnualFinalSnapshot} {side : AnnualClaimSide} {raw : Int}
    {allowZero : Bool} (h : s.Inv) (hf : s.snapshot = some f)
    (hrequire : s.requireAccount id = .ok account) (hpos : 0 < raw)
    (henough : raw ≤ account.claims side) (hfree : s.custodyBlocked = false)
    (hcovered : s.obligation ≤ s.actualCustodyRaw)
    (hconsent : s.shareStep f side raw = 0 → allowZero = true)
    (hcredit : 0 ≤ account.collateralRaw + s.shareStep f side raw ∧
      account.collateralRaw + s.shareStep f side raw ≤ U64_MAX) :
    Returns (redeem id side raw allowZero) s fun payout s' => payout = s.shareStep f side raw ∧
      s.Shifted s'
        { custody := -s.shareStep f side raw
          supply := fun side' => if side' = side then -raw else 0
          redeemed := fun side' => if side' = side then raw else 0
          claims := fun other side' => if other = id ∧ side' = side then -raw else 0
          collateral := fun other => if other = id then s.shareStep f side raw else 0 } := by
  have hget := requireAccount_eq_ok hrequire
  have hheld := h.holdings.claims_le hget side
  have hsupply := h.supply_le side
  have hle := h.accounted.le
  obtain ⟨-, -, hremaining⟩ := h.shareStep_bounds hf hget hpos henough
  have hcounter := h.addU64_counter hget hpos (not_lt.mpr henough) (.inr rfl)
  have hpreview := h.previewRedemption_ok hf hrequire hpos (by omega) henough
  generalize s.shareStep f side raw = payout at *
  have haccounts := accounts_of_set (s := s) (m :=
      { custody := -payout
        supply := fun side' => if side' = side then -raw else 0
        redeemed := fun side' => if side' = side then raw else 0
        claims := fun other side' => if other = id ∧ side' = side then -raw else 0
        collateral := fun other => if other = id then payout else 0 })
    { account.setClaims side (account.claims side - raw) with
      collateralRaw := account.collateralRaw + payout } hget
    (by cases side <;> simp [Movement.account, AnnualAccountState.setClaims,
          AnnualAccountState.claims, Int.sub_eq_add_neg])
    fun other hother a => by simp [Movement.account, hother]
  -- The account is written twice, and the second write is what stays.
  have hlast : ∀ account' : AnnualAccountState, (s.accounts.set id account').set id
      { account.setClaims side (account.claims side - raw) with
        collateralRaw := account.collateralRaw + payout } =
      s.accounts.set id { account.setClaims side (account.claims side - raw) with
        collateralRaw := account.collateralRaw + payout } := fun _ => Record.set_set _ _ _ _
  refine .this (.pass hrequire (.pass (checkedRaw_ok hpos (by omega)) (.pass hpreview
    (.pass (demand_ok fun hzero => ?_) (.pass (requireCustodyAvailable_ok hfree hcovered)
    (.pass (addU64_ok hcredit.1 hcredit.2) ?_))))))
  · rw [hconsent hzero.1] at hzero
    cases hzero.2
  · cases side with
    | pt =>
      refine .pass (demand_ok (not_lt.mpr hremaining)) (.assign (.assign (.pass hcounter (.assign
        (.assign (.assign (.assign (.pure ⟨rfl, rfl, (Int.add_zero _).symm,
          Int.sub_eq_add_neg, fun side => ?_, fun side => ?_, fun other => ?_⟩))))))))
      · cases side <;> simp [supply, setAccount, Int.sub_eq_add_neg]
      · cases side <;> simp [redeemed, setAccount]
      · rw [← haccounts other, ← hlast { account with ptRaw := account.ptRaw - raw }]
        rfl
    | dr =>
      refine .pass (demand_ok (not_lt.mpr hremaining)) (.assign (.assign (.pass hcounter (.assign
        (.assign (.assign (.assign (.pure ⟨rfl, rfl, (Int.add_zero _).symm,
          Int.sub_eq_add_neg, fun side => ?_, fun side => ?_, fun other => ?_⟩))))))))
      · cases side <;> simp [supply, setAccount, Int.sub_eq_add_neg]
      · cases side <;> simp [redeemed, setAccount]
      · rw [← haccounts other, ← hlast { account with drRaw := account.drRaw - raw }]
        rfl

/-! ## Finalization -/

/-- The snapshot an index gives. -/
def allot (s : AnnualReferenceModel) (index : RationalIndex) : AnnualFinalSnapshot :=
  let drPoolRaw := (s.accountableRaw * (index.denominator - index.numerator)).tdiv index.denominator
  { accountableRaw := s.accountableRaw, index := index
    ptPoolRaw := s.accountableRaw - drPoolRaw, drPoolRaw := drPoolRaw
    supplyDenominatorRaw := s.accountableRaw }

/-- The model with final pools. -/
def closeWith (s : AnnualReferenceModel) (f : AnnualFinalSnapshot) : AnnualReferenceModel :=
  { s with snapshot := some f, remainingPtPoolRaw := f.ptPoolRaw,
           remainingDrPoolRaw := f.drPoolRaw }

/-- Any index of the right kind closes a model. -/
theorem Inv.closeWith (h : s.Inv) (hopen : s.snapshot = none) {index : RationalIndex}
    (hretained : Retained index) : s.Keeps (s.closeWith (s.allot index)) := by
  have hQ := h.accountable_nonneg
  have hn := hretained.pos
  have hle := hretained.le
  have hprod : 0 ≤ s.accountableRaw * (index.denominator - index.numerator) :=
    mul_nonneg hQ (by omega)
  have hdr : (s.accountableRaw * (index.denominator - index.numerator)).tdiv index.denominator
      ≤ s.accountableRaw := by
    rw [Int.tdiv_eq_ediv_of_nonneg hprod]
    apply Int.ediv_le_of_le_mul (by omega)
    exact mul_le_mul_of_nonneg_left (by omega) hQ
  have hdr' : 0 ≤ (s.accountableRaw * (index.denominator - index.numerator)).tdiv
      index.denominator := Int.tdiv_nonneg hprod (by omega)
  have hredeemed := h.unredeemed hopen
  refine ⟨⟨h.holdings.congr rfl fun side => by cases side <;> rfl, ?_, h.events, ?_, ?_⟩, ?_⟩
  · exact ⟨h.accounted.accountable, h.accounted.burned, h.accounted.redeemed, h.accounted.le⟩
  · exact fun hnone => nomatch hnone
  · intro f hf
    obtain rfl := Option.some.inj hf
    refine ⟨rfl, rfl, sub_add_cancel _ _, fun side => ?_, hretained, fun side => ?_⟩
    · cases side with
      | pt => exact sub_nonneg.mpr hdr
      | dr => exact hdr'
    · have hzero : (s.closeWith (s.allot index)).redeemed side = 0 := hredeemed side
      rw [hzero, zero_mul, Int.zero_ediv, sub_zero]
      cases side <;> rfl
  · intro hcovered
    rw [Covered] at hcovered ⊢
    rw [obligation_open hopen] at hcovered
    rw [obligation_final rfl]
    refine hcovered.trans (congrArg (· + s.donationsRaw) ?_)
    exact (sub_add_cancel _ _).symm

end AnnualReferenceModel

/-- What `finalize` asks of an event. -/
structure ExactEvent.Closable (event : ExactEvent) : Prop where
  dated : event.exDate ≠ none
  final : event.finalized = true
  decided : ¬ (event.status = .pending ∨ event.status = .unsupported)

open AnnualReferenceModel in
/-- The lifted reference finalizes a mature series with a closed journal. -/
theorem ExactReferenceModel.finalize_ok {x : ExactReferenceModel} {now : Int}
    {index : RationalIndex} (hnow : 0 ≤ now ∧ now ≤ 2 ^ 53 - 1) (hopen : x.base.snapshot = none)
    (hmature : x.base.maturitySeconds ≤ now)
    (hclosed : ∀ entry ∈ x.journal.entries, entry.2.Closable)
    (hfree : x.base.custodyBlocked = false)
    (hcovered : x.base.accountableRaw ≤ x.base.actualCustodyRaw)
    (hindex : x.currentIndex = .ok index) :
    ExactReferenceModel.finalize now true x =
      (.ok (x.base.allot index), { x with base := x.base.closeWith (x.base.allot index) }) := by
  have hobligation := obligation_open hopen
  have hallocation : x.previewAllocation = .ok (x.base.allot index).toAnnualAllocation := by
    rw [previewAllocation, hopen]
    dsimp only
    rw [hindex]
    rfl
  refine check_bind_eq_ok.mpr ⟨now, checkedNow_ok hnow.1 hnow.2, check_bind_eq_ok.mpr
    ⟨(), demand_ok hopen, check_bind_eq_ok.mpr ⟨(), demand_ok (not_lt.mpr hmature),
    check_bind_eq_ok.mpr ⟨(), demand_ok rfl, check_bind_eq_ok.mpr ⟨(), ?_, check_bind_eq_ok.mpr
    ⟨(), requireCustodyAvailable_ok hfree (by omega), check_bind_eq_ok.mpr
    ⟨_, hallocation, rfl⟩⟩⟩⟩⟩⟩⟩
  refine Result.forM_eq_ok.mpr fun event hevent => ?_
  obtain ⟨entry, hentry, rfl⟩ := List.mem_map.mp hevent
  obtain ⟨hdated, hfinal, hdecided⟩ := hclosed entry hentry
  rw [closable]
  simp only [Result.bind_eq_ok, demand_eq_ok, Result.exists_unit]
  exact ⟨hdated, hfinal, hdecided⟩

/-! ## The index as a number -/

/-- What an event multiplies the index by. -/
def ExactEvent.factor (year : Int) (event : ExactEvent) : ℚ :=
  match event.exDate with
  | none => 1
  | some exDate =>
    if civilYear exDate ≠ year ∨ event.status ≠ .qualified then 1
    else ((event.m0.numerator : ℚ) / event.m0.denominator) /
      (event.m1.numerator / event.m1.denominator)

/-- Both multipliers are positive fractions. -/
def ExactEvent.Positive (event : ExactEvent) : Prop :=
  ∀ m ∈ [event.m0, event.m1], 0 < m.numerator ∧ 0 < m.denominator

theorem ExactEvent.Positive.parts {event : ExactEvent} (h : event.Positive) :
    (0 < event.m0.numerator ∧ 0 < event.m0.denominator) ∧
      0 < event.m1.numerator ∧ 0 < event.m1.denominator :=
  ⟨h _ (List.mem_cons_self ..), h _ (List.mem_cons_of_mem _ (List.mem_cons_self ..))⟩

/-- A fraction of at most one is a retained share. -/
theorem retained_ofRat {q : ℚ} (hpos : 0 < q) (hle : q ≤ 1) : Retained (Fraction.ofRat q) :=
  ⟨q.reduced, Rat.num_pos.mpr hpos, Rat.num_le_denom_iff.mpr hle⟩

/-- One turn of the loop. -/
theorem multiplyEvent_ofRat {event : ExactEvent} (h : event.Positive) {q : ℚ} (hq : 0 ≤ q)
    (year : Int) : ExactReferenceModel.multiplyEvent year (Fraction.ofRat q) event =
      .ok (Fraction.ofRat (q * event.factor year)) := by
  obtain ⟨⟨h0n, h0d⟩, h1n, h1d⟩ := h.parts
  rw [ExactReferenceModel.multiplyEvent, ExactEvent.factor]
  cases event.exDate with
  | none => exact congrArg (fun q => Except.ok (Fraction.ofRat q)) (mul_one q).symm
  | some exDate =>
    dsimp only
    split
    · rw [mul_one]
    · have hnum := Fraction.numerator_ofRat_nonneg hq
      have hden := Fraction.denominator_ofRat_pos q
      have hn : 0 ≤ (Fraction.ofRat q).numerator * event.m0.numerator * event.m1.denominator := by
        positivity
      have hd : 0 < (Fraction.ofRat q).denominator * event.m0.denominator * event.m1.numerator := by
        positivity
      rw [reduce]
      simp only [Result.bind_eq_ok, demand_eq_ok, Result.exists_unit, Result.pure_eq_ok]
      refine ⟨by omega, ?_⟩
      rw [Fraction.lowest_eq_ofRat _ hd]
      refine congrArg Fraction.ofRat ?_
      conv_rhs => rw [← Fraction.value_ofRat q]
      have h0 : (event.m0.denominator : ℚ) ≠ 0 := by exact_mod_cast h0d.ne'
      have h1 : (event.m1.denominator : ℚ) ≠ 0 := by exact_mod_cast h1d.ne'
      have h2 : (event.m1.numerator : ℚ) ≠ 0 := by exact_mod_cast h1n.ne'
      have h3 : ((Fraction.ofRat q).denominator : ℚ) ≠ 0 := by exact_mod_cast hden.ne'
      push_cast
      field_simp

/-- **The index** is the product of the factors, in lowest terms, whatever the order. -/
theorem ExactReferenceModel.currentIndex_eq {x : ExactReferenceModel}
    (h : ∀ entry ∈ x.journal.entries, entry.2.Positive) : x.currentIndex =
      .ok (Fraction.ofRat ((x.journal.entries.map fun e => e.2.factor x.base.term.year).prod)) := by
  have hloop : ∀ (entries : List (String × ExactEvent)) (q : ℚ), 0 ≤ q →
      (∀ entry ∈ entries, entry.2.Positive) →
      (entries.map Prod.snd).foldlM (multiplyEvent x.base.term.year) (Fraction.ofRat q) =
        .ok (Fraction.ofRat (q * (entries.map fun e => e.2.factor x.base.term.year).prod)) := by
    intro entries
    induction entries with
    | nil =>
      intro q _ _
      rw [List.map_nil, List.map_nil, List.prod_nil, mul_one]
      rfl
    | cons entry entries ih =>
      intro q hq hpositive
      obtain ⟨hfirst, hrest⟩ := List.forall_mem_cons.mp hpositive
      have hfactor : 0 ≤ entry.2.factor x.base.term.year := by
        obtain ⟨⟨h0n, h0d⟩, h1n, h1d⟩ := hfirst.parts
        rw [ExactEvent.factor]
        split
        · exact zero_le_one
        · split
          · exact zero_le_one
          · positivity
      rw [List.map_cons, List.foldlM_cons, multiplyEvent_ofRat hfirst hq, List.map_cons,
        List.prod_cons, ← mul_assoc]
      exact ih _ (mul_nonneg hq hfactor) hrest
  have hone : (⟨1, 1⟩ : RationalIndex) = Fraction.ofRat 1 := rfl
  rw [currentIndex]
  rw [hone, hloop _ 1 zero_le_one h, one_mul]

end AnnualReference

end DividendX
