import DividendX.Redemption
import DividendX.Refused

/-!
# Exact custody

As long as nothing but the program takes tokens out of a vault, the vault holds what the series
owes and every donation it ever received. Each step of the books moves vault and debt by the same
amount, donations and seizures apart (`Books.Step.custody`); rounding stays in the debt, because
what is owed on a side is its pool less what the side has paid.
-/

namespace DividendX

/-! ## Debt -/

/-- What a series owes, as a number. -/
def Series.debt (s : Series) : Nat :=
  if s.phase = .finalized then
    (s.ptPool.toNat - s.ptPaid.toNat) + (s.drPool.toNat - s.drPaid.toNat)
  else s.nominalBacking.toNat

section Debt

variable {s : Series}

theorem Series.debt_of_final (h : s.phase = .finalized) :
    s.debt = (s.ptPool.toNat - s.ptPaid.toNat) + (s.drPool.toNat - s.drPaid.toNat) := if_pos h

theorem Series.debt_of_open (h : s.phase ≠ .finalized) : s.debt = s.nominalBacking.toNat := if_neg h

/-- A side never pays more than its pool. -/
theorem Redeemable.paid_le (h : Redeemable s) (hfinal : s.phase = .finalized) (side : RedeemSide) :
    (s.paid side).toNat ≤ (s.pool side).toNat := by
  rw [h.telescoped side hfinal]
  exact cumulative_le (h.within side hfinal) _

/-- Nor does one more redemption take it beyond. -/
theorem Redeemable.payout_le (h : Redeemable s) (hfinal : s.phase = .finalized) {side : RedeemSide}
    {amount payout : UInt64}
    (hpay : redemptionPayout (s.redeemedNominal side) amount (s.pool side) s.finalSupply =
      .ok payout) : (s.paid side).toNat + payout.toNat ≤ (s.pool side).toNat := by
  by_cases hzero : s.finalSupply = 0
  · rw [hzero, redemptionPayout_zero_supply] at hpay
    rw [hpay.2]
    exact h.paid_le hfinal side
  · obtain ⟨hfits, hpayout⟩ := (redemptionPayout_eq_ok hzero).mp hpay
    have hmono := cumulative_mono (Nat.le_add_right (s.redeemedNominal side).toNat amount.toNat)
      (s.pool side).toNat s.finalSupply.toNat
    have hle := cumulative_le hfits (s.pool side).toNat
    rw [h.telescoped side hfinal]
    omega

theorem Redeemable.payout_le_debt (h : Redeemable s) (hfinal : s.phase = .finalized)
    {side : RedeemSide} {amount payout : UInt64}
    (hpay : redemptionPayout (s.redeemedNominal side) amount (s.pool side) s.finalSupply =
      .ok payout) : payout.toNat ≤ s.debt := by
  have hle := h.payout_le hfinal hpay
  rw [Series.debt_of_final hfinal]
  cases side with
  | pt =>
    have hpt : s.ptPaid.toNat + payout.toNat ≤ s.ptPool.toNat := hle
    omega
  | dr =>
    have hdr : s.drPaid.toNat + payout.toNat ≤ s.drPool.toNat := hle
    omega

/-- `remaining_obligations` never fails, and obligations are the debt. -/
theorem Redeemable.exists_obligations (h : Redeemable s) :
    ∃ owed, s.obligations = .ok owed ∧ owed.toNat = s.debt := by
  by_cases hfinal : s.phase = .finalized
  · have hpt : s.ptPaid.toNat ≤ s.ptPool.toNat := h.paid_le hfinal .pt
    have hdr : s.drPaid.toNat ≤ s.drPool.toNat := h.paid_le hfinal .dr
    have hfit : s.debt < 2 ^ 64 := by
      have := h.pools hfinal
      have := s.finalSupply.toNat_lt
      rw [Series.debt_of_final hfinal]
      omega
    obtain ⟨owed, howed⟩ : ∃ owed : UInt64, owed.toNat = s.debt :=
      ⟨UInt64.ofNat _, UInt64.toNat_ofNat_of_lt hfit⟩
    refine ⟨owed, ?_, howed⟩
    rw [Series.obligations, if_pos hfinal, remainingObligations_eq_ok]
    rw [Series.debt_of_final hfinal] at howed
    exact ⟨hpt, hdr, by omega⟩
  · refine ⟨s.nominalBacking, ?_, (Series.debt_of_open hfinal).symm⟩
    rw [Series.obligations, if_neg hfinal]
    rfl

end Debt

/-! ## One step -/

/-- **One step** moves vault and debt together; only donations and seizures tell them apart. -/
theorem Books.Step.custody {host : Host} {k : Pubkey} {b b' : Books} {c : Change}
    (h : Redeemable b.series) (hstep : b.Step host k c b') :
    b'.vault + b.series.debt + c.seizure = b.vault + b'.series.debt + c.donation := by
  have h' := h.step hstep
  have hopen : ∀ {s : Series}, s.phase ≠ .finalized → s.debt = s.nominalBacking.toNat :=
    Series.debt_of_open
  cases hstep with
  | idle => rfl
  | deposit _ phase _ _ _ _ _ hn _ =>
    rw [hopen (by simp [phase]), hopen (by simp [phase])]
    simp only [Change.seizure, Change.donation, hn]
    omega
  | @recombine amount nominal v supply vault _ phase _ hn _ _ hvault =>
    have hdebt : Series.debt { b.series with nominalBacking := nominal, stateVersion := v } =
        nominal.toNat := hopen phase
    rw [hopen phase, hdebt]
    simp only [Change.seizure, Change.donation, hn]
    omega
  | record phase _ _ _ _ _ counted _ _ =>
    obtain ⟨_, _, _, _, _, -, -, -, -, -, rfl⟩ := updateCounters_eq_ok.mp counted
    rw [hopen (by simp [phase]), hopen (by simp [phase])]
    rfl
  | begin phase _ _ _ =>
    rw [hopen (by simp [phase]), hopen (by simp [Series.sealed])]
    rfl
  | accumulate phase _ _ _ _ _ _ _ =>
    rw [hopen (by simp [phase]), hopen (by simp [phase])]
    rfl
  | @complete ptPool drPool slot v phase _ _ _ pools _ =>
    -- the two pools partition the backing, and nothing has been paid yet
    obtain ⟨-, -, -, -, -, hsum⟩ := splitPools_eq_ok.mp pools
    have hpt : b.series.ptPaid = 0 := (h.unpaid (by simp [phase]) .pt).2
    have hdr : b.series.drPaid = 0 := (h.unpaid (by simp [phase]) .dr).2
    rw [hopen (by simp [phase]), Series.debt_of_final rfl]
    simp only [Series.final, Change.seizure, Change.donation, hpt, hdr, hsum]
    have hzero : (0 : UInt64).toNat = 0 := rfl
    omega
  | abort phase _ =>
    rw [hopen (by simp [phase]), hopen (by simp [Series.unsealed])]
    rfl
  | @redeem side amount payout redeemed paid v supply vault positive phase _ _ _ hp _ _ hvault =>
    have hphase : Series.phase { b.series.setRedeemed side redeemed paid with stateVersion := v } =
        .finalized := by
      rw [Series.phase_setRedeemed]
      exact phase
    have hpt := h'.paid_le hphase .pt
    have hdr := h'.paid_le hphase .dr
    rw [Series.debt_of_final phase, Series.debt_of_final hphase]
    simp only [Change.seizure, Change.donation]
    cases side with
    | pt =>
      simp only [Series.paid, Series.pool, Series.setRedeemed] at *
      omega
    | dr =>
      simp only [Series.paid, Series.pool, Series.setRedeemed] at *
      omega
  | burn _ => rfl
  | donate _ =>
    simp only [Change.seizure, Change.donation]
    omega
  | seize hvault =>
    simp only [Change.seizure, Change.donation]
    omega

/-! ## Whole histories -/

/-- The series whose custody an instruction checks. -/
def Instruction.custodyOf : Instruction → Option Pubkey
  | deposit acc _ _ => some acc.series
  | recombine acc _ _ => some acc.series
  | beginFinalization acc _ _ _ => some acc.series
  | completeFinalization acc => some acc.series
  | redeem acc _ _ _ _ => some acc.series
  | _ => none

namespace World

variable {host : Host} {w₀ w w' : World} {k : Pubkey} {s : Series} {b : Books} {tr : List Action}
  {ix : Instruction}

/-- An instruction that reports a deficit found one. -/
theorem inDeficit_of_error (hix : ix.custodyOf = some k)
    (hx : w.execute host ix = .error (.custom .custodyDeficit)) : w.InDeficit k := by
  cases ix with
  | deposit acc amount guard =>
    cases hix
    exact deposit_custodyDeficit hx
  | recombine acc amount guard =>
    cases hix
    exact recombine_custodyDeficit hx
  | beginFinalization acc version hash coverage =>
    cases hix
    exact beginFinalization_custodyDeficit hx
  | completeFinalization acc =>
    cases hix
    exact completeFinalization_custodyDeficit hx
  | redeem acc side amount allowZero guard =>
    cases hix
    exact redeem_custodyDeficit hx
  | _ => cases hix

/-- An instruction that checks custody and succeeds found no deficit. -/
theorem not_inDeficit_of_ok (hix : ix.custodyOf = some k) (hx : w.execute host ix = .ok w') :
    ¬ w.InDeficit k := by
  cases ix with
  | deposit acc amount guard =>
    cases hix
    obtain ⟨L, hL, hp, -⟩ := deposit_eq_ok.mp hx
    have hv := hL.vault.1
    rw [hp.accounts.exit.vault] at hv
    exact not_inDeficit_of_backing hL.series hv (by simp [hp.phase]) hp.covered
  | recombine acc amount guard =>
    cases hix
    obtain ⟨L, hL, hp, -⟩ := recombine_eq_ok.mp hx
    have hv := hL.vault.1
    rw [hp.accounts.exit.vault] at hv
    exact not_inDeficit_of_backing hL.series hv hp.phase hp.covered
  | beginFinalization acc version hash coverage =>
    cases hix
    obtain ⟨L, profile, hL, hp, -⟩ := beginFinalization_eq_ok.mp hx
    have hv := hL.loadedVault.1
    rw [hp.accounts.exit.vault] at hv
    exact not_inDeficit_of_backing hL.loadedSeries hv (by simp [hp.phase]) hp.covered
  | completeFinalization acc =>
    cases hix
    obtain ⟨L, hL, hp, -⟩ := completeFinalization_eq_ok.mp hx
    have hv := hL.loadedVault.1
    rw [hp.accounts.exit.vault] at hv
    exact not_inDeficit_of_backing hL.loadedSeries hv (by simp [hp.phase]) hp.covered
  | redeem acc side amount allowZero guard =>
    cases hix
    obtain ⟨L, payout, hL, hp, -⟩ := redeem_eq_ok.mp hx
    obtain ⟨owed, howed, hcovered⟩ := hp.covered
    have hv := hL.vault.1
    rw [hp.accounts.vault] at hv
    rintro ⟨s', owed', hs', howed', hlow⟩
    cases hL.series.symm.trans hs'
    rw [Series.obligations, if_pos hp.phase, howed] at howed'
    cases howed'
    rw [Bank.balance_eq hv] at hlow
    rw [UInt64.le_iff_toNat_le] at hcovered
    omega
  | _ => cases hix

/-- After every history that left the vault to the program, the vault is worth debt and
donations. -/
theorem History.custody (h : History host w₀ tr w) (hb : w.books k = some b) :
    Untouched b.series.vault tr → b.vault = b.series.debt + donated b.series.vault tr := by
  refine h.rec_books hb (P := fun tr _ b => Untouched b.series.vault tr →
    b.vault = b.series.debt + donated b.series.vault tr) ?_ ?_
  · intro tr a w w' b _ _ _ hfresh hsilent _ _
    obtain ⟨assetKey, asset, year, start, maturity, mintKey, profile, hs⟩ := hfresh.series
    have hzero : donated b.series.vault (tr ++ [a]) = 0 := by
      rw [hs]
      refine List.sum_eq_zero fun n hn => ?_
      obtain ⟨a', ha', rfl⟩ := List.mem_map.mp hn
      exact (hsilent a' ha').donation mintKey
    rw [hzero, hfresh.vault, hs]
    rfl
  · intro tr w a w' b c b' hist hbooks hP _ _ hstep hlabels huntouched
    rw [hstep.vaultKey] at huntouched ⊢
    rw [untouched_snoc] at huntouched
    obtain ⟨hbefore, hlast⟩ := huntouched
    have hmove := hstep.custody (hist.redeemable hbooks).1
    have hvault := hP hbefore
    rw [hlabels.seizure, hlast, hlabels.donation] at hmove
    rw [donated_snoc]
    omega

/-- **Exact custody.** What a series owes is always defined. In every history in which nothing but
the program takes tokens out of its vault, the vault holds exactly that and all donations, and no
instruction on the series reports a deficit. In a history in which tokens were taken out, as long
as less is left than is owed, no instruction that checks custody succeeds. -/
theorem custody_exact (h : History host w₀ tr w) (hs : w.series k = some s) :
    (∃ owed, s.obligations = .ok owed ∧
      (Untouched s.vault tr → w.bank.balance s.vault = owed.toNat + donated s.vault tr)) ∧
    (Untouched s.vault tr → ∀ ix : Instruction, ix.custodyOf = some k →
      w.execute host ix ≠ .error (.custom .custodyDeficit)) ∧
    (w.InDeficit k → ∀ ix : Instruction, ix.custodyOf = some k →
      ∀ w', w.execute host ix ≠ .ok w') := by
  obtain ⟨b, hb, rfl⟩ := h.linked.exists_books hs
  have hcustody := h.custody hb
  rw [books_vault hb] at hcustody
  obtain ⟨owed, howed, hdebt⟩ := (h.redeemable hb).1.exists_obligations
  refine ⟨⟨owed, howed, ?_⟩, ?_, ?_⟩
  · rw [hdebt]
    exact hcustody
  · intro huntouched ix hix hx
    obtain ⟨s', owed', hs', howed', hlow⟩ := inDeficit_of_error hix hx
    cases hs.symm.trans hs'
    cases howed.symm.trans howed'
    rw [hcustody huntouched, ← hdebt] at hlow
    omega
  · intro hdeficit ix hix w' hx
    exact not_inDeficit_of_ok hix hx hdeficit

/-- In the sample 777 tokens were donated. When the issuer takes one token out of the vault after
the deposit and the donation was never made, no deposit succeeds any more. -/
theorem custody_exact_sample :
    (∃ s owed, (Sample.world 18).series Sample.seriesKey = some s ∧ s.obligations = .ok owed ∧
      (Sample.world 18).bank.balance s.vault = owed.toNat + 777) ∧
    ∃ w, History Sample.host Sample.genesis
        (Sample.actions.take 7 ++ [.seize Sample.vaultKey 1]) w ∧
      w.InDeficit Sample.seriesKey ∧ ∀ amount guard w',
        w.execute Sample.host (.deposit Sample.pair amount guard) ≠ .ok w' := by
  refine ⟨?_, ?_⟩
  · obtain ⟨s, hs, hvault⟩ := @Sample.series_of_any 18 (fun s => decide (s.vault = Sample.vaultKey))
      (by decide +kernel)
    obtain ⟨⟨owed, howed, hbalance⟩, -⟩ := custody_exact (Sample.history 18) hs
    refine ⟨s, owed, hs, howed, ?_⟩
    rw [of_decide_eq_true hvault] at hbalance ⊢
    refine (hbalance ?_).trans (congrArg _ ?_)
    · have hall : ((Sample.actions.take 18).all fun a => a.seizure Sample.vaultKey == 0) =
          true := by
        decide +kernel
      intro a ha
      exact beq_iff_eq.mp (List.all_eq_true.mp hall a ha)
    · decide +kernel
  · have hstep : ((Sample.world 7).act Sample.host (.seize Sample.vaultKey 1)).isSome = true := by
      decide +kernel
    obtain ⟨w, hw⟩ := Option.isSome_iff_exists.mp hstep
    have hist := (Sample.history 7).append (Run.single hw)
    have hdeficit : w.InDeficit Sample.seriesKey := by
      obtain ⟨s, hs, hfacts⟩ := @Sample.series_of_any 7 (fun s => decide (s.phase ≠ .finalized ∧
        s.nominalBacking = 100000 ∧ s.vault = Sample.vaultKey)) (by decide +kernel)
      obtain ⟨hphase, hbacking, hvault⟩ := of_decide_eq_true hfacts
      have hbalance : (((Sample.world 7).act Sample.host (.seize Sample.vaultKey 1)).all
          fun w => w.bank.balance Sample.vaultKey == 99999) = true := by decide +kernel
      rw [hw, Option.all_some, beq_iff_eq] at hbalance
      obtain ⟨bank, clock, hkept⟩ := act_outside hw rfl
      have hseries : w.series = (Sample.world 7).series := by rw [hkept]
      refine ⟨s, s.nominalBacking, (congrFun hseries _).trans hs, ?_, ?_⟩
      · rw [Series.obligations, if_neg hphase]
        rfl
      · rw [hvault, hbalance, hbacking]
        decide
    obtain ⟨s, owed, hs, -⟩ := id hdeficit
    refine ⟨w, hist, hdeficit, fun amount guard w' => ?_⟩
    exact (custody_exact hist hs).2.2 hdeficit (.deposit Sample.pair amount guard) rfl w'

end World

end DividendX
