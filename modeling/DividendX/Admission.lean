import DividendX.Phases

/-!
# Admission and freshness

What the program asks of a collateral mint before it lets collateral in. A policy is registered by
the admin and reviewed by its attestor; `Reviewed` traces both through the history: the policy in
force was written by one registration, and its observation, if it has one, by a later refresh that
looked at the mint itself. Creating a series, depositing and sealing need such an observation, not
older than a day, of the mint exactly as it is.
-/

namespace DividendX

/-- Policy and mint of an instruction that asks for a fresh review. -/
def Instruction.reviewed : Instruction → Option (Pubkey × Pubkey)
  | .createSeries acc _ => some (acc.assetPolicy, acc.collateralMint)
  | .deposit acc _ _ => some (acc.assetPolicy, acc.collateralMint)
  | .beginFinalization acc _ _ _ => some (acc.assetPolicy, acc.collateralMint)
  | _ => none

/-- An instruction that writes the configuration or a policy. -/
def Instruction.isAdministrative : Instruction → Bool
  | .initializeConfig _ _ => true
  | .registerAsset _ _ _ _ _ => true
  | .setAssetAdmission _ _ => true
  | .refreshObservation _ _ _ => true
  | _ => false

/-- The scale the attestor reviewed. -/
def AssetPolicy.reviewedScale (p : AssetPolicy) : ScaleTuple :=
  ⟨p.reviewedCurrentMultiplierBits, p.reviewedNewMultiplierBits,
    p.reviewedNewMultiplierEffectiveTimestamp, p.reviewedActiveMultiplierBits⟩

/-- The scale in a seal. -/
def Seal.scale (d : Seal) : ScaleTuple :=
  ⟨d.currentMultiplierBits, d.newMultiplierBits, d.newMultiplierEffectiveTimestamp,
    d.activeMultiplierBits⟩

/-- A profile is what was registered. -/
structure AssetPolicy.Fits (p : AssetPolicy) (profile : MintProfile) : Prop where
  decimals : profile.decimals = p.decimals
  extensionsMask : profile.extensionsMask = p.extensionsMask
  controlsFingerprint : profile.controlsFingerprint = p.reviewedControlsFingerprint

/-! ## What the checks ask for -/

section Checks

variable {host : Host} {p : AssetPolicy} {s : Series} {key : Pubkey} {m : Mint} {c : Clock}
  {profile : MintProfile}

theorem requireScaleEqualsReview_eq_ok {scale : ScaleTuple} :
    requireScaleEqualsReview p scale = .ok () ↔ scale = p.reviewedScale := by
  simp only [requireScaleEqualsReview, Result.bind_eq_ok, Result.require_eq_ok, Result.exists_unit]
  cases scale
  simp only [AssetPolicy.reviewedScale, ScaleTuple.mk.injEq]
  tauto

theorem requireScaleEqualsSeal_eq_ok {scale : ScaleTuple} :
    requireScaleEqualsSeal s scale = .ok () ↔ scale = s.sealedFields.scale := by
  simp only [requireScaleEqualsSeal, Result.bind_eq_ok, Result.require_eq_ok, Result.exists_unit]
  cases scale
  simp only [Series.sealedFields, Seal.scale, ScaleTuple.mk.injEq]
  tauto

theorem requireReviewedProfile_eq_ok :
    requireReviewedProfile host p key m c = .ok profile ↔
      p.observationEvidenceDigest ≠ zero32 ∧ c.unixTimestamp ≤ p.observationValidUntil ∧
      p.observedSlot ≤ c.slot ∧ inspectMint host key m c.unixTimestamp = .ok profile ∧
      p.Fits profile ∧ profile.scale = p.reviewedScale := by
  simp only [requireReviewedProfile, Result.bind_eq_ok, Result.require_eq_ok, Result.exists_unit,
    Result.pure_eq_ok, requireScaleEqualsReview_eq_ok]
  constructor
  · rintro ⟨⟨hdigest, htime, hslot⟩, profile', hinspect, hdecimals, hmask, hcontrols, hscale, rfl⟩
    exact ⟨hdigest, htime, hslot, hinspect, ⟨hdecimals, hmask, hcontrols⟩, hscale⟩
  · rintro ⟨hdigest, htime, hslot, hinspect, hfits, hscale⟩
    exact ⟨⟨hdigest, htime, hslot⟩, profile, hinspect, hfits.decimals, hfits.extensionsMask,
      hfits.controlsFingerprint, hscale, rfl⟩

theorem requireReviewedProfile_of_admission (h : requireAdmission host p key m c = .ok profile) :
    requireReviewedProfile host p key m c = .ok profile := by
  rw [requireAdmission, Result.bind_eq_ok] at h
  obtain ⟨-, -, h⟩ := h
  exact h

end Checks

/-! ## Registration and review -/

/-- The admin registered the policy. -/
structure Registers (host : Host) (w : World) (a : Action) (key : Pubkey) (p : AssetPolicy)
    (profile : MintProfile) : Prop where
  signed : ∃ acc issuerId symbol config,
    a = .instruction (.registerAsset acc issuerId symbol p.attestor p.policyDigest) ∧
    key = .asset issuerId p.collateralMint ∧ acc.collateralMint = p.collateralMint ∧
    w.config = some config ∧ config.admin = .wallet acc.admin ∧ p.attestor ≠ config.admin
  unused : w.policies key = none
  inspected : ∃ m, w.bank.mints p.collateralMint = some m ∧
    inspectMint host p.collateralMint m w.clock.unixTimestamp = .ok profile
  fits : p.Fits profile

/-- The attestor of the policy reviewed the mint. -/
structure Observes (host : Host) (w : World) (a : Action) (key : Pubkey) (p : AssetPolicy)
    (profile : MintProfile) : Prop where
  signed : ∃ acc evidence,
  a = .instruction (.refreshObservation acc evidence p.observationValidUntil) ∧
    acc.assetPolicy = key ∧ acc.collateralMint = p.collateralMint ∧
    p.attestor = .wallet acc.attestor
  inspected : ∃ m, w.bank.mints p.collateralMint = some m ∧
    inspectMint host p.collateralMint m w.clock.unixTimestamp = .ok profile
  lifetime : p.observationValidUntil.toInt ≤ w.clock.unixTimestamp.toInt + 86400
  fits : p.Fits profile
  scale : profile.scale = p.reviewedScale

theorem SamePolicy.fits {p p' : AssetPolicy} {profile : MintProfile} (h : SamePolicy p p')
    (hf : p.Fits profile) : p'.Fits profile :=
  ⟨hf.decimals.trans h.decimals.symm, hf.extensionsMask.trans h.extensionsMask.symm,
    hf.controlsFingerprint.trans h.reviewedControlsFingerprint.symm⟩

/-- A policy goes back to its registration whatever was observed since. -/
theorem Registers.congr {host : Host} {w : World} {a : Action} {key : Pubkey} {p p' : AssetPolicy}
    {profile : MintProfile} (h : Registers host w a key p profile) (hsame : SamePolicy p p') :
    Registers host w a key p' profile := by
  refine ⟨?_, h.unused, ?_, hsame.fits h.fits⟩
  · rw [hsame.attestor, hsame.policyDigest, hsame.collateralMint]
    exact h.signed
  · rw [hsame.collateralMint]
    exact h.inspected

namespace World

variable {host : Host} {w₀ w w' : World} {tr : List Action} {a : Action} {key k : Pubkey}
  {p p' : AssetPolicy} {b : Books} {s : Series} {profile : MintProfile}

theorem registerAsset_registers {acc : RegisterAssetAccounts} {issuerId : Bytes32} {symbol : String}
    {attestor : Pubkey} {policyDigest : Bytes32}
    (h : registerAsset host w acc issuerId symbol attestor policyDigest = .ok w') :
    ∃ p profile, p.observationEvidenceDigest = zero32 ∧
      Registers host w (.instruction (.registerAsset acc issuerId symbol attestor policyDigest))
        (.asset issuerId acc.collateralMint) p profile ∧
      w' = w.putPolicy (.asset issuerId acc.collateralMint) p := by
  simp only [registerAsset, Result.bind_eq_ok, Result.require_eq_ok, Result.exists_unit,
    Result.okOr_eq_ok, Result.pure_eq_ok, World.loadCollateralMint_eq_ok] at h
  obtain ⟨config, hconfig, m, ⟨hm, -⟩, hnone, hadmin, -, -, -, ⟨-, hattestor⟩, profile, hprofile,
    rfl⟩ := h
  refine ⟨_, profile, ?_, ?_, rfl⟩
  · rfl
  · exact ⟨⟨acc, issuerId, symbol, config, rfl, rfl, rfl, hconfig, hadmin, hattestor⟩, hnone,
      ⟨m, hm, hprofile⟩, ⟨rfl, rfl, rfl⟩⟩

theorem setAssetAdmission_sets {acc : SetAssetAdmissionAccounts} {enabled : Bool}
    (h : setAssetAdmission w acc enabled = .ok w') :
    ∃ p, w.policies acc.assetPolicy = some p ∧
      w' = w.putPolicy acc.assetPolicy { p with admissionEnabled := enabled } := by
  simp only [setAssetAdmission, Result.bind_eq_ok, Result.require_eq_ok, Result.exists_unit,
    Result.okOr_eq_ok, Result.pure_eq_ok, World.load_eq_ok] at h
  obtain ⟨config, -, p, hp, -, -, rfl⟩ := h
  exact ⟨p, hp, rfl⟩

/-- An expiry within the limit is at most a day away, saturated or not. -/
theorem lifetime_le {now validUntil : Int64}
    (h : validUntil ≤ saturatingAddI64 now MAX_OBSERVATION_LIFETIME) :
    validUntil.toInt ≤ now.toInt + 86400 := by
  have hle := Int64.le_iff_toInt_le.mp h
  have hlow := now.le_toInt
  have hhigh := now.toInt_lt
  have hlife : MAX_OBSERVATION_LIFETIME.toInt = 86400 := by decide
  rw [saturatingAddI64, hlife, Int64.toInt_ofInt_of_le (by omega) (by omega)] at hle
  omega

theorem refreshObservation_observes {acc : RefreshObservationAccounts} {evidence : Bytes32}
    {validUntil : Int64} (h : refreshObservation host w acc evidence validUntil = .ok w') :
    ∃ p p' profile, w.policies acc.assetPolicy = some p ∧ SamePolicy p p' ∧
      Observes host w (.instruction (.refreshObservation acc evidence validUntil)) acc.assetPolicy
        p' profile ∧
      w' = w.putPolicy acc.assetPolicy p' := by
  simp only [refreshObservation, Result.bind_eq_ok, Result.require_eq_ok, Result.exists_unit,
    Result.pure_eq_ok, World.load_eq_ok, World.loadCollateralMint_eq_ok] at h
  obtain ⟨p, hp, m, ⟨hm, -⟩, hattestor, hmint, -, -, hexpiry, profile, hprofile, hdecimals, hmask,
    hcontrols, rfl⟩ := h
  refine ⟨p, _, profile, hp, ?_, ?_, rfl⟩
  · exact ⟨rfl, rfl, rfl, rfl, rfl, rfl, rfl, rfl⟩
  · refine ⟨⟨acc, evidence, rfl, rfl, hmint.symm, hattestor⟩, ?_, lifetime_le hexpiry,
      ⟨hdecimals, hmask, hcontrols⟩, rfl⟩
    change ∃ m, w.bank.mints p.collateralMint = some m ∧
      inspectMint host p.collateralMint m w.clock.unixTimestamp = .ok profile
    rw [hmint]
    exact ⟨m, hm, hprofile⟩

/-! ## Policies along a history -/

/-- Nothing else writes the configuration or a policy. -/
theorem execute_policies {ix : Instruction} (hx : w.execute host ix = .ok w')
    (hix : ix.isAdministrative = false) : w'.policies = w.policies ∧ w'.config = w.config := by
  cases ix with
  | createSeries acc year =>
    obtain ⟨p, s, hc⟩ := createSeries_ok hx
    rw [hc.written]
    exact ⟨rfl, rfl⟩
  | deposit acc amount guard =>
    obtain ⟨L, -, -, b₁, b₂, b₃, -, -, -, nominal, v, -, -, rfl⟩ := deposit_eq_ok.mp hx
    exact ⟨rfl, rfl⟩
  | recombine acc amount guard =>
    obtain ⟨L, -, -, b₁, b₂, b₃, -, -, -, nominal, v, -, -, rfl⟩ := recombine_eq_ok.mp hx
    exact ⟨rfl, rfl⟩
  | upsertEvent acc input =>
    obtain ⟨p, s, resolved, inYear, -, ⟨-, rfl⟩ | ⟨head, isNew, s', hr⟩⟩ := upsertEvent_ok hx
    · exact ⟨rfl, rfl⟩
    · rw [hr.written]
      exact ⟨rfl, rfl⟩
  | beginFinalization acc version hash coverage =>
    obtain ⟨L, profile, -, -, v, -, rfl⟩ := beginFinalization_eq_ok.mp hx
    exact ⟨rfl, rfl⟩
  | accumulateEvent acc =>
    obtain ⟨s, a, head, r, -, n, d, -, cursor, v, -, -, rfl⟩ := accumulateEvent_eq_ok.mp hx
    exact ⟨rfl, rfl⟩
  | completeFinalization acc =>
    obtain ⟨L, -, -, pt, dr, -, b₁, b₂, -, -, v, -, rfl⟩ := completeFinalization_eq_ok.mp hx
    exact ⟨rfl, rfl⟩
  | abortFinalization acc reason =>
    obtain ⟨s, a, -, -, -, -, v, -, rfl⟩ := abortFinalization_ok hx
    exact ⟨rfl, rfl⟩
  | redeem acc side amount allowZero guard =>
    obtain ⟨L, payout, -, -, b₁, b₂, -, -, r, p, v, -, -, -, rfl⟩ := redeem_eq_ok.mp hx
    exact ⟨rfl, rfl⟩
  | _ => cases hix

/-- The policy was registered, and reviewed after that: the registration, the state `w₂` at the
review and what the review found. -/
def ReviewedAt (host : Host) (w₀ : World) (tr : List Action) (key : Pubkey) (p : AssetPolicy)
    (registered : MintProfile) (w₂ : World) (profile : MintProfile) : Prop :=
  ∃ tr₁ registration tr₂ refresh tr₃ w₁, tr = tr₁ ++ registration :: (tr₂ ++ refresh :: tr₃) ∧
    Run (act host) w₀ tr₁ w₁ ∧ Registers host w₁ registration key p registered ∧
    Run (act host) w₀ (tr₁ ++ registration :: tr₂) w₂ ∧ Observes host w₂ refresh key p profile

/-- Where a policy comes from. -/
structure Reviewed (host : Host) (w₀ : World) (tr : List Action) (w : World) (key : Pubkey)
    (p : AssetPolicy) : Prop where
  admin : ∃ config, w.config = some config ∧ p.attestor ≠ config.admin
  registered : ∃ tr₁ registration tr₂ w₁ profile, tr = tr₁ ++ registration :: tr₂ ∧
    Run (act host) w₀ tr₁ w₁ ∧ Registers host w₁ registration key p profile
  observed : p.observationEvidenceDigest ≠ zero32 → ∃ registered w₂ profile,
    ReviewedAt host w₀ tr key p registered w₂ profile

theorem ReviewedAt.snoc {registered : MintProfile} {w₂ : World}
    (h : ReviewedAt host w₀ tr key p registered w₂ profile) :
    ReviewedAt host w₀ (tr ++ [a]) key p registered w₂ profile := by
  obtain ⟨tr₁, registration, tr₂, refresh, tr₃, w₁, rfl, hrun⟩ := h
  refine ⟨tr₁, registration, tr₂, refresh, tr₃ ++ [a], w₁, ?_, hrun⟩
  simp only [List.append_assoc, List.cons_append]

/-- An action that leaves the policy alone. -/
theorem Reviewed.snoc (h : Reviewed host w₀ tr w key p) (hconfig : w'.config = w.config) :
    Reviewed host w₀ (tr ++ [a]) w' key p := by
  refine ⟨by rw [hconfig]; exact h.admin, ?_, fun hdigest => ?_⟩
  · obtain ⟨tr₁, registration, tr₂, w₁, profile, rfl, hrun⟩ := h.registered
    exact ⟨tr₁, registration, tr₂ ++ [a], w₁, profile, by simp, hrun⟩
  · obtain ⟨registered, w₂, profile, hat⟩ := h.observed hdigest
    exact ⟨registered, w₂, profile, hat.snoc⟩

/-- The admission switch is no part of a review. -/
theorem Reviewed.setAdmission (h : Reviewed host w₀ tr w key p) (enabled : Bool) :
    Reviewed host w₀ tr w key { p with admissionEnabled := enabled } := by
  have hsame : SamePolicy p { p with admissionEnabled := enabled } :=
    ⟨rfl, rfl, rfl, rfl, rfl, rfl, rfl, rfl⟩
  refine ⟨h.admin, ?_, fun hdigest => ?_⟩
  · obtain ⟨tr₁, registration, tr₂, w₁, profile, htr, hrun, hregisters⟩ := h.registered
    exact ⟨tr₁, registration, tr₂, w₁, profile, htr, hrun, hregisters.congr hsame⟩
  · obtain ⟨registered, w₂, profile, tr₁, registration, tr₂, refresh,
      tr₃, w₁, htr, hrun, hregisters, hrun₂, hobserves⟩ := h.observed hdigest
    exact ⟨registered, w₂, profile, tr₁, registration, tr₂, refresh, tr₃, w₁, htr, hrun,
      hregisters.congr hsame, hrun₂, hobserves.signed, hobserves.inspected, hobserves.lifetime,
      ⟨hobserves.fits.decimals, hobserves.fits.extensionsMask, hobserves.fits.controlsFingerprint⟩,
      hobserves.scale⟩

/-- A refresh renews the observation. -/
theorem Reviewed.refresh (h : Reviewed host w₀ tr w key p) (hrun : Run (act host) w₀ tr w)
    (hsame : SamePolicy p p') (hobserves : Observes host w a key p' profile)
    (hconfig : w'.config = w.config) : Reviewed host w₀ (tr ++ [a]) w' key p' := by
  obtain ⟨tr₁, registration, tr₂, w₁, profile₁, rfl, hrun₁, hregisters⟩ := h.registered
  refine ⟨?_, ⟨tr₁, registration, tr₂ ++ [a], w₁, profile₁, by simp, hrun₁, hregisters.congr hsame⟩,
    fun _ => ⟨profile₁, w, profile, tr₁, registration, tr₂, a, [], w₁, by simp, hrun₁,
      hregisters.congr hsame, hrun, hobserves⟩⟩
  rw [hconfig, hsame.attestor]
  exact h.admin

theorem putPolicy_eq_some (h : (w.putPolicy k p).policies key = some p') :
    (key = k ∧ p' = p) ∨ (key ≠ k ∧ w.policies key = some p') := by
  by_cases hk : key = k
  · subst hk
    have hself : (w.putPolicy key p).policies key = some p := Function.update_self ..
    exact .inl ⟨rfl, Option.some.inj (h.symm.trans hself)⟩
  · have hother : (w.putPolicy k p).policies key = w.policies key := Function.update_of_ne hk ..
    exact .inr ⟨hk, hother.symm.trans h⟩

/-- **Every policy goes back to a registration, and its observation to a review after it.** -/
theorem History.reviewed (h : History host w₀ tr w) (hp : w.policies key = some p) :
    Reviewed host w₀ tr w key p := by
  refine h.2.rec_on_history (P := fun tr w => ∀ key p, w.policies key = some p →
    Reviewed host w₀ tr w key p) ?_ ?_ key p hp
  · intro key p hp
    cases (h.1.policies key).symm.trans hp
  · intro tr w a w' hrun ih ha key p hp
    cases a with
    | instruction ix =>
      have hx := Result.toOption_eq_some.mp ha
      cases ix with
      | initializeConfig upgradeAuthority domain =>
        -- a policy is only registered once there is a configuration
        simp only [execute, initializeConfig, Result.bind_eq_ok, Result.require_eq_ok,
          Result.exists_unit, Result.pure_eq_ok] at hx
        obtain ⟨hnone, -, -, rfl⟩ := hx
        obtain ⟨config, hconfig, -⟩ := (ih key p hp).admin
        cases hnone.symm.trans hconfig
      | registerAsset acc issuerId symbol attestor policyDigest =>
        obtain ⟨p', profile, hdigest, hregisters, rfl⟩ := registerAsset_registers hx
        rcases putPolicy_eq_some hp with ⟨rfl, rfl⟩ | ⟨-, hold⟩
        · obtain ⟨_, _, _, config, -, -, -, hconfig, -, hne⟩ := hregisters.signed
          exact ⟨⟨config, hconfig, hne⟩, ⟨tr, _, [], w, profile, rfl, hrun, hregisters⟩,
            fun hnonzero => absurd hdigest hnonzero⟩
        · exact (ih key p hold).snoc rfl
      | setAssetAdmission acc enabled =>
        obtain ⟨p', hp', rfl⟩ := setAssetAdmission_sets hx
        rcases putPolicy_eq_some hp with ⟨rfl, rfl⟩ | ⟨-, hold⟩
        · exact ((ih _ p' hp').setAdmission enabled).snoc rfl
        · exact (ih key p hold).snoc rfl
      | refreshObservation acc evidence validUntil =>
        obtain ⟨p₁, p₂, profile, hp₁, hsame, hobserves, rfl⟩ := refreshObservation_observes hx
        rcases putPolicy_eq_some hp with ⟨rfl, rfl⟩ | ⟨-, hold⟩
        · exact (ih _ p₁ hp₁).refresh hrun hsame hobserves rfl
        · exact (ih key p hold).snoc rfl
      | _ =>
        obtain ⟨hpolicies, hconfig⟩ := execute_policies hx rfl
        rw [hpolicies] at hp
        exact (ih key p hp).snoc hconfig
    | _ =>
      obtain ⟨bank, clock, rfl⟩ := act_outside ha rfl
      exact (ih key p hp).snoc rfl

/-- What an instruction that asks for a fresh review was shown. -/
theorem execute_reviewed (hl : w.Linked) {ix : Instruction} {mintKey : Pubkey}
    (hx : w.execute host ix = .ok w') (hix : ix.reviewed = some (key, mintKey)) :
    ∃ p m profile, w.policies key = some p ∧ p.collateralMint = mintKey ∧
      w.bank.mints mintKey = some m ∧
      requireReviewedProfile host p mintKey m w.clock = .ok profile := by
  have hseries : ∀ {k s p}, w.series k = some s → s.assetPolicy = key → w.policies key = some p →
      mintKey = s.collateralMint → p.collateralMint = mintKey := by
    rintro k s p hs rfl hp rfl
    obtain ⟨p', hp', -, hmint, -⟩ := (hl.series hs).policy
    cases hp.symm.trans hp'
    exact hmint
  cases ix with
  | createSeries acc year =>
    cases hix
    simp only [execute, createSeries, Result.bind_eq_ok, Result.require_eq_ok, Result.exists_unit,
      Result.pure_eq_ok, World.load_eq_ok, World.loadMint_eq_ok] at hx
    obtain ⟨p, hp, m, ⟨hm, -⟩, -, -, -, -, -, -, hmint, bounds, -, -, profile, hadmission, -⟩ := hx
    exact ⟨p, m, profile, hp, hmint, hm, requireReviewedProfile_of_admission hadmission⟩
  | deposit acc amount guard =>
    cases hix
    obtain ⟨L, hL, hpasses, -⟩ := deposit_eq_ok.mp hx
    obtain ⟨profile, hadmission⟩ := hpasses.admitted
    exact ⟨L.asset, L.mint, profile, hL.asset,
      hseries hL.series hL.hasOne hL.asset hpasses.accounts.exit.collateralMint, hL.mint.1,
      requireReviewedProfile_of_admission hadmission⟩
  | beginFinalization acc version hash coverage =>
    cases hix
    obtain ⟨L, profile, hL, hpasses, -⟩ := beginFinalization_eq_ok.mp hx
    exact ⟨L.asset, L.mint, profile, hL.asset,
      hseries hL.loadedSeries hL.hasOne hL.asset hpasses.accounts.exit.collateralMint, hL.mint.1,
      hpasses.reviewed⟩
  | _ => cases hix

/-! ## The seal -/

/-- The last seal of a series: the state it was taken in and what was found there. -/
def SealedAt (host : Host) (w₀ : World) (k : Pubkey) (tr : List Action) (mintKey : Pubkey)
    (w₁ : World) (profile : MintProfile) : Prop :=
  ∃ tr₁ sealing tr₂ m, tr = tr₁ ++ sealing :: tr₂ ∧ sealing.begins k = true ∧
    (∀ a ∈ tr₂, a.begins k = false) ∧ Run (act host) w₀ tr₁ w₁ ∧
    w₁.bank.mints mintKey = some m ∧ inspectMint host mintKey m w₁.clock.unixTimestamp = .ok profile

theorem SealedAt.snoc {mintKey : Pubkey} {w₁ : World}
    (h : SealedAt host w₀ k tr mintKey w₁ profile) (ha : a.begins k = false) :
    SealedAt host w₀ k (tr ++ [a]) mintKey w₁ profile := by
  obtain ⟨tr₁, sealing, tr₂, m, rfl, hbegins, hlast, hrest⟩ := h
  refine ⟨tr₁, sealing, tr₂ ++ [a], m, by simp, hbegins, fun a' ha' => ?_, hrest⟩
  rcases List.mem_append.mp ha' with hold | hnew
  · exact hlast a' hold
  · rw [List.mem_singleton.mp hnew]
    exact ha

/-- Between seal and end of sealing the seal stays as it is. -/
theorem seal_kept {b' : Books} {c : Change} (h : b.Step host k c b') (hc : c ≠ .begin)
    (hsealing : b'.series.phase = .sealing) :
    b.series.phase = .sealing ∧ b'.series.sealedFields = b.series.sealedFields := by
  cases h with
  | deposit _ phase _ _ _ _ _ _ _ => cases phase.symm.trans hsealing
  | record phase _ _ _ _ _ counted _ _ =>
    obtain ⟨_, _, _, _, _, -, -, -, -, -, rfl⟩ := updateCounters_eq_ok.mp counted
    cases phase.symm.trans hsealing
  | begin _ _ _ _ => exact absurd rfl hc
  | complete _ _ _ _ _ _ => cases hsealing
  | abort _ _ => cases hsealing
  | redeem _ phase _ _ _ _ _ _ _ =>
    rw [Series.phase_setRedeemed, phase] at hsealing
    cases hsealing
  | _ => exact ⟨hsealing, rfl⟩

/-- **A sealed series carries what was found at its last seal.** -/
theorem History.sealedAt (h : History host w₀ tr w) (hb : w.books k = some b) :
    b.series.phase = .sealing → ∃ w₁ profile,
      SealedAt host w₀ k tr b.series.collateralMint w₁ profile ∧
      b.series.sealedFields.scale = profile.scale ∧
      b.series.sealedFields.controlsFingerprint = profile.controlsFingerprint := by
  refine h.rec_books hb (P := fun tr _ b => b.series.phase = .sealing → ∃ w₁ profile,
      SealedAt host w₀ k tr b.series.collateralMint w₁ profile ∧
      b.series.sealedFields.scale = profile.scale ∧
      b.series.sealedFields.controlsFingerprint = profile.controlsFingerprint) ?_ ?_
  · intro tr a w w' b _ _ _ hfresh _ _ hsealing
    obtain ⟨assetKey, asset, year, start, maturity, mintKey, profile, hs⟩ := hfresh.series
    rw [hs] at hsealing
    cases hsealing
  · intro tr w a w' b c b' hist hb hP ha hb' hstep hlabels hsealing
    have hmint : b'.series.collateralMint = b.series.collateralMint :=
      congrArg Identity.collateralMint hstep.identity
    rw [hmint]
    by_cases hc : c = .begin
    · subst hc
      obtain ⟨acc, version, hash, coverage, rfl, rfl⟩ := hlabels.names
      obtain ⟨L, profile, hL, hpasses, v, -, rfl⟩ :=
        beginFinalization_eq_ok.mp (Result.toOption_eq_some.mp ha)
      have hsame := Option.some.inj ((books_series hb).symm.trans hL.loadedSeries)
      have hs' := Option.some.inj ((books_series hb').symm.trans (putSeries_series ..))
      obtain ⟨-, -, -, hinspect, -, -⟩ := requireReviewedProfile_eq_ok.mp hpasses.reviewed
      refine ⟨w, profile, ⟨tr, _, [], L.mint, rfl, beq_self_eq_true _, fun _ hin => (by cases hin),
        hist.2, ?_, ?_⟩, ?_, ?_⟩
      · rw [hsame, ← hpasses.accounts.exit.collateralMint]
        exact hL.mint.1
      · rw [hsame, ← hpasses.accounts.exit.collateralMint]
        exact hinspect
      · rw [hs']
        rfl
      · rw [hs']
        rfl
    · obtain ⟨hbefore, hseal⟩ := seal_kept hstep hc hsealing
      obtain ⟨w₁, profile, hat, hscale, hcontrols⟩ := hP hbefore
      have hquiet : a.begins k = false := by
        rw [← hlabels.begins]
        cases c <;> first | rfl | exact absurd rfl hc
      rw [hseal]
      exact ⟨w₁, profile, hat.snoc hquiet, hscale, hcontrols⟩

/-- **Admission is fresh.** Whenever a series is created, collateral deposited or a journal sealed,
the attestor named at registration, who is not the admin, reviewed the mint after the registration
and at most a day ago, and found exactly what the mint shows now; decimals, extensions and
controls are those registered. Whenever a finalization completes, the mint has the scale and
the controls it had at the seal. -/
theorem admission_fresh (h : History host w₀ tr w) :
    (∀ ix key mintKey w', ix.reviewed = some (key, mintKey) → w.execute host ix = .ok w' →
      ∃ p m profile, w.policies key = some p ∧ p.collateralMint = mintKey ∧
        w.bank.mints mintKey = some m ∧
        inspectMint host mintKey m w.clock.unixTimestamp = .ok profile ∧
        (∃ config, w.config = some config ∧ p.attestor ≠ config.admin) ∧
        ∃ registered w₂, ReviewedAt host w₀ tr key p registered w₂ profile ∧
          w₂.clock.unixTimestamp ≤ w.clock.unixTimestamp ∧
          w.clock.unixTimestamp.toInt ≤ w₂.clock.unixTimestamp.toInt + 86400 ∧
          profile.decimals = registered.decimals ∧
          profile.extensionsMask = registered.extensionsMask ∧
          profile.controlsFingerprint = registered.controlsFingerprint) ∧
    ∀ acc w', w.execute host (.completeFinalization acc) = .ok w' →
      ∃ m profile w₁ sealed, w.bank.mints acc.collateralMint = some m ∧
        inspectMint host acc.collateralMint m w.clock.unixTimestamp = .ok profile ∧
        SealedAt host w₀ acc.series tr acc.collateralMint w₁ sealed ∧
        profile.scale = sealed.scale ∧ profile.controlsFingerprint =
          sealed.controlsFingerprint := by
  refine ⟨fun ix key mintKey w' hix hx => ?_, fun acc w' hx => ?_⟩
  · obtain ⟨p, m, profile, hp, hmint, hm, hreviewed⟩ := execute_reviewed h.linked hx hix
    obtain ⟨hdigest, htime, -, hinspect, hfits, hscale⟩ := requireReviewedProfile_eq_ok.mp hreviewed
    have hpolicy := h.reviewed hp
    obtain ⟨registered, w₂, found, hat⟩ := hpolicy.observed hdigest
    obtain ⟨tr₁, registration, tr₂, refresh, tr₃, w₁, rfl, hrun₁, hregisters, hrun₂, hobserves⟩ :=
      hat
    -- both inspections agree with the policy, so they agree with each other
    have hsame : profile = found := by
      have hscale' := hobserves.scale
      have hfits' := hobserves.fits
      cases profile
      cases found
      simp only [MintProfile.mk.injEq]
      exact ⟨hfits.decimals.trans hfits'.decimals.symm,
        hfits.extensionsMask.trans hfits'.extensionsMask.symm, hscale.trans hscale'.symm,
        hfits.controlsFingerprint.trans hfits'.controlsFingerprint.symm⟩
    subst hsame
    have hlater : Run (act host) w₂ (refresh :: tr₃) w := by
      have hall := h.2
      rw [← List.cons_append, ← List.append_assoc] at hall
      obtain ⟨u, hu, hrest⟩ := hall.split
      cases hu.functional hrun₂
      exact hrest
    refine ⟨p, m, profile, hp, hmint, hm, hinspect, hpolicy.admin, registered, w₂,
      ⟨tr₁, registration, tr₂, refresh, tr₃, w₁, rfl, hrun₁, hregisters, hrun₂, hobserves⟩,
      (clock_of_run hlater).2, ?_, ?_, ?_, ?_⟩
    · exact (Int64.le_iff_toInt_le.mp htime).trans hobserves.lifetime
    · rw [hfits.decimals, hregisters.fits.decimals]
    · rw [hfits.extensionsMask, hregisters.fits.extensionsMask]
    · rw [hfits.controlsFingerprint, hregisters.fits.controlsFingerprint]
  · obtain ⟨L, hL, hpasses, -⟩ := completeFinalization_eq_ok.mp hx
    obtain ⟨b, hb, hbs⟩ := h.linked.exists_books hL.loadedSeries
    obtain ⟨profile, hinspect, -, ⟨hcontrols, -⟩, hscale⟩ := hpasses.profile
    obtain ⟨w₁, sealed, hat, hscale', hcontrols'⟩ :=
      h.sealedAt hb (by rw [hbs]; exact hpasses.phase)
    rw [hbs] at hat hscale' hcontrols'
    rw [← hpasses.accounts.exit.collateralMint] at hat
    refine ⟨L.mint, profile, w₁, sealed, hL.mint.1, hinspect, hat, ?_, hcontrols.trans hcontrols'⟩
    rw [requireScaleEqualsSeal_eq_ok.mp hscale]
    exact hscale'

/-- The deposit of the sample rests on the review of the same day, its completion on its seal. -/
theorem admission_fresh_sample :
    (∃ p registered w₂ profile, ReviewedAt Sample.host Sample.genesis (Sample.actions.take 6)
      Sample.assetKey p registered w₂ profile) ∧
    ∃ w₁ sealed, SealedAt Sample.host Sample.genesis Sample.seriesKey (Sample.actions.take 14)
      Sample.mintKey w₁ sealed := by
  obtain ⟨hdeposit, -⟩ := admission_fresh (Sample.history 6)
  obtain ⟨-, hcomplete⟩ := admission_fresh (Sample.history 14)
  have hstep := @Sample.step 6 (.instruction (.deposit Sample.pair 100000 (Sample.guard 0))) rfl
  have hstep' := @Sample.step 14 (.instruction (.completeFinalization Sample.finish)) rfl
  simp only [World.act, Result.toOption_eq_some] at hstep hstep'
  refine ⟨?_, ?_⟩
  · obtain ⟨p, -, profile, -, -, -, -, -, registered, w₂, hat, -⟩ := hdeposit _ _ _ _ rfl hstep
    exact ⟨p, registered, w₂, profile, hat⟩
  · obtain ⟨-, -, w₁, sealed, -, -, hat, -⟩ := hcomplete _ _ hstep'
    exact ⟨w₁, sealed, hat⟩

end World

end DividendX
