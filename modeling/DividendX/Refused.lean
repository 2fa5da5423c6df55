import DividendX.Accepted
import DividendX.Ledger

/-!
# What a refused instruction says

Errors read backwards: an instruction that ends with one of the errors below did so because of
what the error says, on the accounts of the series itself. Checks that stop with another error
drop out of the disjunction `Result.bind_eq_error` makes of a handler.
-/

namespace DividendX

open Result

variable {host : Host} {w : World}

/-! ## Errors the helpers do not end with -/

/-- A missing account is no error of the program's own. -/
theorem World.load_ne_custom {α : Type} {store : Pubkey → Option α} {key : Pubkey}
    {e : DividendXError} : ¬ World.load store key = .error (.custom e) := by
  simp [World.load]

theorem World.loadMint_ne_custom {key : Pubkey} {e : DividendXError} :
    ¬ w.loadMint key = .error (.custom e) := by
  simp only [World.loadMint, bind_eq_error, require_eq_error, World.load_ne_custom,
    pure_ne_error, reduceCtorEq, and_false, exists_false, or_false, not_false_eq_true]

theorem World.loadToken_ne_custom {key : Pubkey} {e : DividendXError} :
    ¬ w.loadToken key = .error (.custom e) := by
  simp only [World.loadToken, bind_eq_error, require_eq_error, World.load_ne_custom,
    pure_ne_error, reduceCtorEq, and_false, exists_false, or_false, not_false_eq_true]

theorem World.loadClaimMint_ne_custom {key : Pubkey} {e : DividendXError} :
    ¬ w.loadClaimMint key = .error (.custom e) := by
  simp only [World.loadClaimMint, bind_eq_error, require_eq_error, World.loadMint_ne_custom,
    pure_ne_error, reduceCtorEq, and_false, exists_false, or_false, not_false_eq_true]

theorem World.loadClaimToken_ne_custom {key : Pubkey} {e : DividendXError} :
    ¬ w.loadClaimToken key = .error (.custom e) := by
  simp only [World.loadClaimToken, bind_eq_error, require_eq_error, World.loadToken_ne_custom,
    pure_ne_error, reduceCtorEq, and_false, exists_false, or_false, not_false_eq_true]

/-- The errors of the inspection of a mint. -/
def profileErrors : List DividendXError :=
  [.invalidTokenProgram, .invalidAccountData, .mintNotInitialized, .unsupportedDecimals,
    .unsupportedMintExtension, .invalidMultiplier, .defaultAccountStateNotInitialized,
    .activeTransferHook, .mintPaused, .missingScaledUiAmount]

theorem decodeMultiplier_error {bits : UInt64} {e : ProgramError}
    (h : decodeMultiplier bits = .error e) : e = .custom .invalidMultiplier := by
  simp only [decodeMultiplier, bind_eq_error, require_eq_error, pure_ne_error, and_false,
    exists_false, or_false] at h
  rcases h with ⟨-, rfl⟩ | ⟨_, -, ⟨-, rfl⟩ | ⟨_, -, -, rfl⟩⟩ <;> rfl

theorem getExtension_error {mint : Mint} {type : UInt16} {size : Nat} {e : ProgramError}
    (h : mint.getExtension type size = .error e) : e = .custom .invalidAccountData := by
  simp only [Mint.getExtension, bind_eq_error, require_eq_error, okOr_eq_error, pure_ne_error,
    and_false, exists_false, or_false] at h
  rcases h with ⟨-, rfl⟩ | ⟨_, -, -, rfl⟩ <;> rfl

/-- An extension is refused with an error of profiles. -/
theorem inspectExtension_error {mint : Mint} {now : Int64} {bounds : Bool} {st : Inspection}
    {type : UInt16} {e : ProgramError} (h : inspectExtension mint now bounds st type = .error e) :
    ∃ e' ∈ profileErrors, e = .custom e' := by
  have hget : ∀ {size : Nat} {type : UInt16}, mint.getExtension type size = .error e →
      ∃ e' ∈ profileErrors, e = .custom e' := fun hg => ⟨_, by decide, getExtension_error hg⟩
  have hmult : ∀ {bits : UInt64}, decodeMultiplier bits = .error e →
      ∃ e' ∈ profileErrors, e = .custom e' := fun hd => ⟨_, by decide, decodeMultiplier_error hd⟩
  have hown : ∀ {e' : DividendXError}, e' ∈ profileErrors → ProgramError.custom e' = e →
      ∃ e' ∈ profileErrors, e = .custom e' := fun hm heq => ⟨_, hm, heq.symm⟩
  simp only [inspectExtension, bind_eq_error, require_eq_error] at h
  rcases h with ⟨-, heq⟩ | ⟨_, -, h⟩
  · exact hown (by decide) heq
  · split_ifs at h
    all_goals
      simp only [bind_eq_error, require_eq_error, pure_ne_error, and_false, exists_false, or_false,
        Except.error.injEq] at h
    · rcases h with hg | ⟨_, -, hd | ⟨_, -, hd⟩⟩
      · exact hget hg
      · exact hmult hd
      · exact hmult hd
    · exact hget h
    · exact hget h
    · exact hget h
    · rcases h with hg | ⟨_, -, -, heq⟩
      · exact hget hg
      · exact hown (by decide) heq
    · rcases h with hg | ⟨_, -, -, heq⟩
      · exact hget hg
      · exact hown (by decide) heq
    · rcases h with hg | ⟨_, -, -, heq⟩
      · exact hget hg
      · exact hown (by decide) heq
    · exact hget h
    · exact hown (by decide) h

/-- The inspection of a mint ends with its own errors only. -/
theorem inspectMintInner_error {key : Pubkey} {mint : Mint} {now : Int64} {bounds : Bool}
    {e : ProgramError} (h : inspectMintInner host key mint now bounds = .error e) :
    ∃ e' ∈ profileErrors, e = .custom e' := by
  have hown : ∀ {e' : DividendXError}, e' ∈ profileErrors → ProgramError.custom e' = e →
      ∃ e' ∈ profileErrors, e = .custom e' := fun hm heq => ⟨_, hm, heq.symm⟩
  simp only [inspectMintInner, bind_eq_error, require_eq_error, okOr_eq_error, pure_ne_error,
    and_false, exists_false, or_false] at h
  rcases h with ⟨-, heq⟩ | ⟨_, -, ⟨-, heq⟩ | ⟨_, -, ⟨-, heq⟩ | ⟨_, -, ⟨-, heq⟩ | ⟨_, -, ⟨-, heq⟩ |
    ⟨_, -, hfold | ⟨_, -, -, heq⟩⟩⟩⟩⟩⟩
  · exact hown (by decide) heq
  · exact hown (by decide) heq
  · exact hown (by decide) heq
  · exact hown (by decide) heq
  · exact hown (by decide) heq
  · obtain ⟨st, type, hturn⟩ := foldlM_eq_error hfold
    exact inspectExtension_error hturn
  · exact hown (by decide) heq

/-- A mint is refused with an error of profiles. -/
theorem inspectMintInner_ne {e : DividendXError} (he : e ∉ profileErrors)
    (key : Pubkey) (mint : Mint)
    (now : Int64) (bounds : Bool) :
    ¬ inspectMintInner host key mint now bounds = .error (.custom e) := by
  intro h
  obtain ⟨e', he', heq⟩ := inspectMintInner_error h
  cases heq
  exact he he'

/-- The errors of the review of a mint against its policy. -/
def reviewErrors : List DividendXError :=
  profileErrors ++ [.admissionDisabled, .observationStale, .controlsChanged, .scaleTupleChanged,
    .activeScaleChanged]

/-- A mint under review is refused with an error of reviews. -/
theorem requireReviewedProfile_ne {e : DividendXError} (he : e ∉ reviewErrors) (p : AssetPolicy)
    (key : Pubkey) (mint : Mint) (clock : Clock) :
    ¬ requireReviewedProfile host p key mint clock = .error (.custom e) := by
  intro h
  have hne : ∀ {e' : DividendXError}, e' ∈ reviewErrors → ProgramError.custom e' ≠ .custom e := by
    intro e' hm heq
    cases heq
    exact he hm
  simp only [requireReviewedProfile, requireScaleEqualsReview, inspectMint, bind_eq_error,
    require_eq_error, pure_ne_error, and_false, exists_false, or_false] at h
  rcases h with ⟨-, h⟩ | ⟨_, -, h | ⟨_, -, ⟨-, h⟩ | ⟨_, -, ⟨-, h⟩ | ⟨_, -, ⟨-, h⟩ | ⟨_, -, ⟨-, h⟩ |
    ⟨_, -, -, h⟩⟩⟩⟩⟩⟩
  · exact hne (by decide) h
  · obtain ⟨e', he', h⟩ := inspectMintInner_error h
    exact hne (List.mem_append_left _ he') h.symm
  · exact hne (by decide) h
  · exact hne (by decide) h
  · exact hne (by decide) h
  · exact hne (by decide) h
  · exact hne (by decide) h

/-- So is a mint that is not admitted. -/
theorem requireAdmission_ne {e : DividendXError} (he : e ∉ reviewErrors) (p : AssetPolicy)
    (key : Pubkey) (mint : Mint) (clock : Clock) :
    ¬ requireAdmission host p key mint clock = .error (.custom e) := by
  simp only [requireAdmission, bind_eq_error, require_eq_error, ProgramError.custom.injEq,
    requireReviewedProfile_ne he, and_false, exists_false, or_false]
  rintro ⟨-, rfl⟩
  exact he (by decide)

/-! ## Deficits -/

/-- What a series owes its holders: the backing until it is final, the unpaid pools from then on. -/
def Series.obligations (s : Series) : Outcome UInt64 :=
  if s.phase = .finalized then remainingObligations s else pure s.nominalBacking

/-- The vault of a series holds less than the series owes. -/
def World.InDeficit (w : World) (k : Pubkey) : Prop :=
  ∃ s owed, w.series k = some s ∧ s.obligations = .ok owed ∧ w.bank.balance s.vault < owed.toNat

/-- Before finalization the backing is owed. -/
theorem World.inDeficit_of_backing {k : Pubkey} {s : Series} {v : TokenAccount}
    (hs : w.series k = some s) (hv : w.bank.tokens s.vault = some v) (hp : s.phase ≠ .finalized)
    (hlow : ¬ s.nominalBacking ≤ v.amount) : w.InDeficit k := by
  refine ⟨s, s.nominalBacking, hs, ?_, ?_⟩
  · rw [Series.obligations, if_neg hp]
    rfl
  · rw [Bank.balance_eq hv]
    rw [UInt64.le_iff_toNat_le] at hlow
    omega

/-- A vault that covers the backing is in no deficit. -/
theorem World.not_inDeficit_of_backing {k : Pubkey} {s : Series} {v : TokenAccount}
    (hs : w.series k = some s) (hv : w.bank.tokens s.vault = some v) (hp : s.phase ≠ .finalized)
    (hcovered : s.nominalBacking ≤ v.amount) : ¬ w.InDeficit k := by
  rintro ⟨s', owed, hs', howed, hlow⟩
  cases hs.symm.trans hs'
  rw [Series.obligations, if_neg hp] at howed
  cases howed
  rw [Bank.balance_eq hv] at hlow
  rw [UInt64.le_iff_toNat_le] at hcovered
  omega

section Deficit

variable {acc : PairAccounts} {amount : UInt64} {guard : Guard}

/-- A deposit that is refused for a deficit meets one. -/
theorem deposit_custodyDeficit
    (h : deposit host w acc amount guard = .error (.custom .custodyDeficit)) :
    w.InDeficit acc.series := by
  simp only [deposit, bind_eq_error, require_eq_error, okOr_eq_error, pure_ne_error,
    World.load_ne_custom, World.loadMint_ne_custom, World.loadToken_ne_custom,
    World.loadClaimMint_ne_custom, World.loadClaimToken_ne_custom, checkGuard,
    requireAdmission_ne (show DividendXError.custodyDeficit ∉ reviewErrors by decide),
    validateSeriesAccounts, validateExitAccounts, validateHolderCollateral, validateHolderClaim,
    validateHolder, requireDistinct, requireClaimMintOpen, requireClaimMint, bumpStateVersion,
    Host.invoke_ne_custom, ProgramError.custom.injEq, reduceCtorEq, and_false, false_or, or_false,
    exists_false, and_true, bind_eq_ok, require_eq_ok, exists_unit, World.load_eq_ok,
    World.loadToken_eq_ok] at h
  obtain ⟨_, -, s, hs, _, -, v, ⟨hv, -⟩, _, -, _, -, _, -, _, -, _, -, -, -, -, hphase, -, -, _, -,
    ⟨⟨-, -, -, -, hkey, -⟩, -⟩, -, -, -, -, hlow⟩ := h
  rw [hkey] at hv
  exact World.inDeficit_of_backing hs hv (by simp [hphase]) hlow

/-- So does a recombination. -/
theorem recombine_custodyDeficit
    (h : recombine host w acc amount guard = .error (.custom .custodyDeficit)) :
    w.InDeficit acc.series := by
  simp only [recombine, bind_eq_error, require_eq_error, okOr_eq_error, pure_ne_error,
    World.load_ne_custom, World.loadMint_ne_custom, World.loadToken_ne_custom,
    World.loadClaimMint_ne_custom, World.loadClaimToken_ne_custom, checkGuard, inspectMintForExit,
    inspectMintInner_ne (show DividendXError.custodyDeficit ∉ profileErrors by decide),
    validateSeriesAccounts, validateExitAccounts, validateHolderCollateral, validateHolderClaim,
    validateHolder, requireDistinct, bumpStateVersion,
    Host.invoke_ne_custom, ProgramError.custom.injEq, reduceCtorEq, and_false, false_or, or_false,
    exists_false, and_true, bind_eq_ok, require_eq_ok, exists_unit, World.load_eq_ok,
    World.loadToken_eq_ok] at h
  obtain ⟨_, -, s, hs, _, -, v, ⟨hv, -⟩, _, -, _, -, _, -, _, -, _, -, -, -, -, hphase, -, _, -,
    ⟨⟨-, -, -, -, hkey, -⟩, -⟩, -, -, -, -, hlow⟩ := h
  rw [hkey] at hv
  exact World.inDeficit_of_backing hs hv hphase hlow

end Deficit

/-- So does the begin of a finalization. -/
theorem beginFinalization_custodyDeficit {acc : BeginFinalizationAccounts} {version : UInt64}
    {hash coverage : Bytes32}
    (h : beginFinalization host w acc version hash coverage = .error (.custom .custodyDeficit)) :
    w.InDeficit acc.series := by
  simp only [beginFinalization, bind_eq_error, require_eq_error, pure_ne_error,
    World.load_ne_custom, World.loadMint_ne_custom, World.loadToken_ne_custom,
    World.loadClaimMint_ne_custom, requireNonzero, okOr_eq_error,
    requireReviewedProfile_ne (show DividendXError.custodyDeficit ∉ reviewErrors by decide),
    validateSeriesAccounts, validateExitAccounts, bumpStateVersion, ProgramError.custom.injEq,
    reduceCtorEq, and_false, false_or, or_false, exists_false, and_true, bind_eq_ok, require_eq_ok,
    exists_unit, World.load_eq_ok, World.loadToken_eq_ok] at h
  obtain ⟨_, -, s, hs, _, -, _, -, v, ⟨hv, -⟩, _, -, _, -, -, -, -, -, -, hphase, -, -, -, _, -,
    ⟨⟨-, -, -, -, hkey, -⟩, -⟩, hlow⟩ := h
  rw [hkey] at hv
  exact World.inDeficit_of_backing hs hv (by simp [hphase]) hlow

/-- The split of the pools knows only the errors of its arithmetic. -/
theorem splitPools_ne {q : UInt64} {n d : List UInt8} {e : DividendXError}
    (he : e ∉ [DividendXError.arithmeticBoundExceeded, .invalidAccountData, .arithmeticOverflow]) :
    ¬ splitPools q n d = .error (.custom e) := by
  intro h
  have hne : ∀ {e' : DividendXError},
      e' ∈ [DividendXError.arithmeticBoundExceeded, .invalidAccountData, .arithmeticOverflow] →
      ProgramError.custom e' ≠ .custom e := by
    intro e' hm heq
    cases heq
    exact he hm
  simp only [splitPools, biguintToU64, bind_eq_error, require_eq_error, okOr_eq_error,
    pure_ne_error, and_false, exists_false, or_false] at h
  rcases h with ⟨-, h⟩ | ⟨_, -, ⟨-, h⟩ | ⟨_, -, ⟨-, h⟩ | ⟨_, -, ⟨-, h⟩ | ⟨_, -, ⟨-, h⟩ |
    ⟨_, -, -, h⟩⟩⟩⟩⟩ <;> exact hne (by decide) h

/-- The end of a finalization that is refused for a deficit meets one. -/
theorem completeFinalization_custodyDeficit {acc : CompleteFinalizationAccounts}
    (h : completeFinalization host w acc = .error (.custom .custodyDeficit)) :
    w.InDeficit acc.series := by
  simp only [completeFinalization, bind_eq_error, require_eq_error, pure_ne_error,
    World.load_ne_custom, World.loadMint_ne_custom, World.loadToken_ne_custom,
    World.loadClaimMint_ne_custom, inspectMint, requireScaleEqualsSeal, okOr_eq_error,
    inspectMintInner_ne (show DividendXError.custodyDeficit ∉ profileErrors by decide),
    splitPools_ne (show DividendXError.custodyDeficit ∉ _ by decide),
    validateSeriesAccounts, validateExitAccounts, requireClaimMintOpen, requireClaimMint,
    bumpStateVersion, Host.invoke_ne_custom, ProgramError.custom.injEq,
    reduceCtorEq, and_false, false_or, or_false, exists_false, and_true, bind_eq_ok, require_eq_ok,
    exists_unit, World.load_eq_ok, World.loadToken_eq_ok] at h
  obtain ⟨_, -, s, hs, _, -, _, -, v, ⟨hv, -⟩, _, -, _, -, -, -, -, hphase, -, _, -, -, -, -,
    ⟨⟨-, -, -, -, hkey, -⟩, -⟩, hlow⟩ := h
  rw [hkey] at hv
  exact World.inDeficit_of_backing hs hv (by simp [hphase]) hlow

theorem remainingObligations_error {s : Series} {e : ProgramError}
    (h : remainingObligations s = .error e) : e = .custom .arithmeticOverflow := by
  simp only [remainingObligations, bind_eq_error, okOr_eq_error] at h
  rcases h with ⟨-, rfl⟩ | ⟨_, -, ⟨-, rfl⟩ | ⟨_, -, -, rfl⟩⟩ <;> rfl

/-- A payment that is skipped when there is nothing to pay. -/
theorem invoke_if_ne_custom {p : Prop} [Decidable p] {b : Bank} {ix : TokenInstruction}
    {e : DividendXError} :
    ¬ (if p then host.invoke b ix else pure b) = Except.error (ProgramError.custom e) := by
  split
  · exact Host.invoke_ne_custom
  · exact pure_ne_error

section Redeem

variable {acc : RedeemAccounts} {side : RedeemSide} {amount : UInt64} {allowZero : Bool}
  {guard : Guard}

/-- A redemption that is refused for a deficit meets one. -/
theorem redeem_custodyDeficit
    (h : redeem host w acc side amount allowZero guard = .error (.custom .custodyDeficit)) :
    w.InDeficit acc.series := by
  have hpayout : ∀ before pool supply,
      ¬ redemptionPayout before amount pool supply = .error (.custom .custodyDeficit) := by
    intro before pool supply he
    rcases (redemptionPayout_eq_error he).2 with h | h <;> cases h
  have howed : ∀ s, ¬ remainingObligations s = .error (.custom .custodyDeficit) := by
    intro s he
    cases remainingObligations_error he
  simp only [redeem, bind_eq_error, require_eq_error, pure_ne_error,
    World.load_ne_custom, World.loadMint_ne_custom, World.loadToken_ne_custom,
    World.loadClaimMint_ne_custom, World.loadClaimToken_ne_custom,
    inspectMintForExit, okOr_eq_error,
    inspectMintInner_ne (show DividendXError.custodyDeficit ∉ profileErrors by decide), hpayout,
    validateExitAccounts, validateHolderCollateral, validateHolderClaim, validateHolder,
    requireDistinct, requireClaimMintFinal, requireClaimMint, checkGuard, howed,
    bumpStateVersion, Host.invoke_ne_custom, invoke_if_ne_custom, ProgramError.custom.injEq,
    reduceCtorEq, and_false, false_or, or_false, exists_false, and_true, bind_eq_ok, require_eq_ok,
    exists_unit, World.load_eq_ok, World.loadToken_eq_ok] at h
  obtain ⟨_, -, s, hs, _, -, v, ⟨hv, -⟩, _, -, _, -, _, -, -, -, hphase, _, -,
    ⟨-, -, -, -, hkey, -⟩, -, -, -, -, -, _, -, -, -, owed, howed, hlow⟩ := h
  rw [hkey] at hv
  refine ⟨s, owed, hs, ?_, ?_⟩
  · rw [Series.obligations, if_pos hphase]
    exact howed
  · rw [Bank.balance_eq hv]
    rw [UInt64.le_iff_toNat_le] at hlow
    omega

/-! ## Arithmetic -/

/-- A redemption that exceeds the supply: the payout says so. -/
theorem redeem_redemptionExceedsSupply
    (h : redeem host w acc side amount allowZero guard = .error
      (.custom .redemptionExceedsSupply)) :
    ∃ s, w.series acc.series = some s ∧ s.phase = .finalized ∧
      redemptionPayout (s.redeemedNominal side) amount (s.pool side) s.finalSupply =
        .error (.custom .redemptionExceedsSupply) := by
  have howed : ∀ s, ¬ remainingObligations s = .error (.custom .redemptionExceedsSupply) := by
    intro s he
    cases remainingObligations_error he
  simp only [redeem, bind_eq_error, require_eq_error, pure_ne_error,
    World.load_ne_custom, World.loadMint_ne_custom, World.loadToken_ne_custom,
    World.loadClaimMint_ne_custom, World.loadClaimToken_ne_custom,
    inspectMintForExit, okOr_eq_error,
    inspectMintInner_ne (show DividendXError.redemptionExceedsSupply ∉ profileErrors by decide),
    validateExitAccounts, validateHolderCollateral, validateHolderClaim, validateHolder,
    requireDistinct, requireClaimMintFinal, requireClaimMint, checkGuard, howed,
    bumpStateVersion, Host.invoke_ne_custom, invoke_if_ne_custom, ProgramError.custom.injEq,
    reduceCtorEq, and_false, false_or, or_false, exists_false, bind_eq_ok, require_eq_ok,
    exists_unit, World.load_eq_ok] at h
  obtain ⟨_, -, s, hs, _, -, _, -, _, -, _, -, _, -, -, -, hphase,
    _, -, -, -, -, -, -, -, hpayout⟩ := h
  exact ⟨s, hs, hphase, hpayout⟩

/-- The payout is refused, or a counter leaves the word. -/
theorem redeem_arithmeticOverflow
    (h : redeem host w acc side amount allowZero guard = .error (.custom .arithmeticOverflow)) :
    ∃ s, w.series acc.series = some s ∧ s.phase = .finalized ∧
      (redemptionPayout (s.redeemedNominal side) amount (s.pool side) s.finalSupply =
          .error (.custom .arithmeticOverflow) ∨
        ∃ payout, redemptionPayout (s.redeemedNominal side) amount (s.pool side) s.finalSupply =
            .ok payout ∧
          (remainingObligations s = .error (.custom .arithmeticOverflow) ∨
            2 ^ 64 ≤ (s.redeemedNominal side).toNat + amount.toNat ∨
            2 ^ 64 ≤ (s.paid side).toNat + payout.toNat ∨
            2 ^ 64 ≤ s.stateVersion.toNat + 1)) := by
  have hversion : ∀ (s : Series) (r p : UInt64),
      (s.setRedeemed side r p).stateVersion = s.stateVersion := by
    intro s r p
    cases side <;> rfl
  simp only [redeem, bind_eq_error, require_eq_error, pure_ne_error,
    World.load_ne_custom, World.loadMint_ne_custom, World.loadToken_ne_custom,
    World.loadClaimMint_ne_custom, World.loadClaimToken_ne_custom,
    inspectMintForExit, okOr_eq_error,
    inspectMintInner_ne (show DividendXError.arithmeticOverflow ∉ profileErrors by decide),
    validateExitAccounts, validateHolderCollateral, validateHolderClaim, validateHolder,
    requireDistinct, requireClaimMintFinal, requireClaimMint, checkGuard, hversion,
    bumpStateVersion, Host.invoke_ne_custom, invoke_if_ne_custom, ProgramError.custom.injEq,
    reduceCtorEq, and_false, false_or, or_false, exists_false, bind_eq_ok, require_eq_ok, and_true,
    exists_unit, World.load_eq_ok, Checked.addU64_eq_none] at h
  obtain ⟨_, -, s, hs, _, -, _, -, _, -, _, -, _, -, -, -, hphase, _, -, -, -, -, -, -, -, h⟩ := h
  refine ⟨s, hs, hphase, ?_⟩
  rcases h with hpayout | ⟨payout, hpayout, -, -, howed | ⟨_, -, -, _, -, _, -, hcount⟩⟩
  · exact .inl hpayout
  · exact .inr ⟨payout, hpayout, .inl howed⟩
  · rcases hcount with hr | ⟨_, -, hp | ⟨_, -, hv⟩⟩
    · exact .inr ⟨payout, hpayout, .inr (.inl hr)⟩
    · exact .inr ⟨payout, hpayout, .inr (.inr (.inl hp))⟩
    · exact .inr ⟨payout, hpayout, .inr (.inr (.inr hv))⟩

end Redeem

section Pair

variable {acc : PairAccounts} {amount : UInt64} {guard : Guard}

/-- A recombination that exceeds the backing does. -/
theorem recombine_amountExceedsBacking
    (h : recombine host w acc amount guard = .error (.custom .amountExceedsBacking)) :
    ∃ s, w.series acc.series = some s ∧ s.phase ≠ .finalized ∧ s.nominalBacking < amount := by
  simp only [recombine, bind_eq_error, require_eq_error, okOr_eq_error, pure_ne_error,
    World.load_ne_custom, World.loadMint_ne_custom, World.loadToken_ne_custom,
    World.loadClaimMint_ne_custom, World.loadClaimToken_ne_custom, checkGuard, inspectMintForExit,
    inspectMintInner_ne (show DividendXError.amountExceedsBacking ∉ profileErrors by decide),
    validateSeriesAccounts, validateExitAccounts, validateHolderCollateral, validateHolderClaim,
    validateHolder, requireDistinct, bumpStateVersion,
    Host.invoke_ne_custom, ProgramError.custom.injEq, reduceCtorEq, and_false, false_or, or_false,
    exists_false, and_true, bind_eq_ok, require_eq_ok, exists_unit, World.load_eq_ok] at h
  obtain ⟨_, -, s, hs, _, -, _, -, _, -, _, -, _, -, _, -, _, -, -, -, -, hphase, hlow⟩ := h
  exact ⟨s, hs, hphase, UInt64.not_le.mp hlow⟩

/-- A deposit whose transfer went through finds a counter at the end of the word. -/
theorem deposit_arithmeticOverflow
    (h : deposit host w acc amount guard = .error (.custom .arithmeticOverflow)) :
    ∃ s v b₁, w.series acc.series = some s ∧ w.bank.tokens s.vault = some v ∧
      s.nominalBacking ≤ v.amount ∧ acc.holderCollateral ≠ s.vault ∧
      host.invoke w.bank (.transferChecked acc.holderCollateral acc.collateralMint s.vault
        (.wallet acc.holder) amount s.decimals) = .ok b₁ ∧
      (2 ^ 64 ≤ s.nominalBacking.toNat + amount.toNat ∨ 2 ^ 64 ≤ s.stateVersion.toNat + 1) := by
  simp only [deposit, bind_eq_error, require_eq_error, okOr_eq_error, pure_ne_error,
    World.load_ne_custom, World.loadMint_ne_custom, World.loadToken_ne_custom,
    World.loadClaimMint_ne_custom, World.loadClaimToken_ne_custom, checkGuard,
    requireAdmission_ne (show DividendXError.arithmeticOverflow ∉ reviewErrors by decide),
    validateSeriesAccounts, validateExitAccounts, validateHolderCollateral, validateHolderClaim,
    validateHolder, requireDistinct, requireClaimMintOpen, requireClaimMint, bumpStateVersion,
    Host.invoke_ne_custom, ProgramError.custom.injEq, reduceCtorEq, and_false, false_or, or_false,
    exists_false, and_true, bind_eq_ok, require_eq_ok, exists_unit, World.load_eq_ok,
    World.loadToken_eq_ok, Checked.addU64_eq_none] at h
  obtain ⟨_, -, s, hs, _, -, v, ⟨hv, -⟩, _, -, _, -, _, -, _, -, _, -, -, -, -, -, -, -, _, -,
    ⟨⟨-, -, -, -, hkey, -⟩, -⟩, -, -, -, hdistinct, hcovered, -, -, b₁, hb₁, _, -, _, -, hover⟩ := h
  rw [hkey] at hv hb₁ hdistinct
  have hne : acc.holderCollateral ≠ s.vault := by
    simp only [List.nodup_cons, List.mem_cons, not_or] at hdistinct
    exact hdistinct.1.1
  refine ⟨s, v, b₁, hs, hv, hcovered, hne, hb₁, ?_⟩
  rcases hover with hn | ⟨_, -, hver⟩
  · exact .inl hn
  · exact .inr hver

end Pair

end DividendX
