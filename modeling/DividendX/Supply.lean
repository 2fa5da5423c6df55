import DividendX.Custody

/-!
# Claims outstanding and claims accounted for

The supply of a claim mint lives with the token program, the accounting in the series. They differ
by what holders burned directly, on each side on its own, and by nothing else (`Supplied`). With
the ledger law that balances add up to the supply, a holder's own claims are then always inside
the accounting, and no counter of the series can be exceeded by them.
-/

namespace DividendX

/-! ## One step -/

/-- On each side the accounting is the supply and what was burned directly; the mint is open
until finalization and closed from then on. -/
structure Supplied (k : Pubkey) (b : Books) (burned : RedeemSide → Nat) : Prop where
  before : b.series.phase ≠ .finalized → ∀ side,
    b.series.nominalBacking.toNat = b.supply side + burned side ∧ b.authority side = some k
  after : b.series.phase = .finalized → ∀ side, b.series.finalSupply.toNat =
    b.supply side + (b.series.redeemedNominal side).toNat + burned side ∧ b.authority side = none

namespace Supplied

variable {host : Host} {k : Pubkey} {b b' : Books} {c : Change} {burned : RedeemSide → Nat}

theorem of_open (hp : b.series.phase ≠ .finalized)
    (h : ∀ side, b.series.nominalBacking.toNat = b.supply side + burned side ∧
      b.authority side = some k) : Supplied k b burned :=
  ⟨fun _ => h, fun hf => absurd hf hp⟩

theorem of_final (hp : b.series.phase = .finalized)
    (h : ∀ side, b.series.finalSupply.toNat = b.supply side +
      (b.series.redeemedNominal side).toNat + burned side ∧ b.authority side = none) :
    Supplied k b burned :=
  ⟨fun hf => absurd hp hf, fun _ => h⟩

theorem fresh (h : b.Fresh host k) : Supplied k b fun _ => 0 := by
  obtain ⟨assetKey, asset, year, start, maturity, mintKey, profile, hs⟩ := h.series
  refine of_open (by rw [hs]; simp [freshSeries]) fun side => ⟨?_, h.authority side⟩
  rw [hs, h.supply side]
  rfl

/-- **One step** keeps supply and accounting together. -/
theorem step (h : Supplied k b burned) (hr : Redeemable b.series) (hstep : b.Step host k c b') :
    Supplied k b' fun side => burned side + c.burned side := by
  cases hstep with
  | idle => exact h
  | deposit _ phase _ _ _ _ _ hn _ =>
    refine of_open (by simp [phase]) fun side => ?_
    obtain ⟨hsum, hauth⟩ := h.before (by simp [phase]) side
    refine ⟨?_, hauth⟩
    simp only [hn, Change.burned]
    omega
  | recombine _ phase _ hn _ hs _ =>
    refine of_open phase fun side => ?_
    obtain ⟨hsum, hauth⟩ := h.before phase side
    have hside := hs side
    refine ⟨?_, hauth⟩
    simp only [Change.burned]
    omega
  | record phase _ _ _ _ _ counted _ _ =>
    obtain ⟨_, _, _, _, _, -, -, -, -, -, rfl⟩ := updateCounters_eq_ok.mp counted
    exact of_open (by simp [phase]) (h.before (by simp [phase]))
  | begin phase _ _ _ => exact of_open (by simp [Series.sealed]) (h.before (by simp [phase]))
  | accumulate phase _ _ _ _ _ _ _ => exact of_open (by simp [phase]) (h.before (by simp [phase]))
  | complete phase _ _ _ _ _ =>
    -- nothing has been redeemed yet, and the backing becomes the final supply
    refine of_final rfl fun side => ⟨?_, rfl⟩
    obtain ⟨hsum, -⟩ := h.before (by simp [phase]) side
    rw [Series.redeemedNominal_final, (hr.unpaid (by simp [phase]) side).1]
    exact hsum
  | abort phase _ => exact of_open (by simp [Series.unsealed]) (h.before (by simp [phase]))
  | @redeem side amount payout redeemed paid v supply vault _ phase _ _ hcount _ _ hs _ =>
    refine of_final (by rw [Series.phase_setRedeemed]; exact phase) fun side' => ?_
    obtain ⟨hsum, hauth⟩ := h.after phase side'
    refine ⟨?_, hauth⟩
    rw [Series.finalSupply_setRedeemed, Series.redeemedNominal_setRedeemed]
    change _ = Function.update b.supply side supply side' + _ + (burned side' + 0)
    by_cases hside : side' = side
    · subst hside
      rw [if_pos rfl, Function.update_self]
      omega
    · rw [if_neg hside, Function.update_of_ne hside]
      exact hsum
  | @burn side amount supply hs =>
    have hmove : ∀ side', Function.update b.supply side supply side' + Change.burned side'
        (.burn side amount) = b.supply side' := by
      intro side'
      simp only [Change.burned]
      by_cases hside : side' = side
      · subst hside
        rw [if_pos rfl, Function.update_self]
        exact hs
      · rw [if_neg (Ne.symm hside), Function.update_of_ne hside, Nat.add_zero]
    refine ⟨fun hp side' => ?_, fun hp side' => ?_⟩
    · obtain ⟨hsum, hauth⟩ := h.before hp side'
      have := hmove side'
      exact ⟨by simp only; omega, hauth⟩
    · obtain ⟨hsum, hauth⟩ := h.after hp side'
      have := hmove side'
      exact ⟨by simp only; omega, hauth⟩
  | donate _ => exact ⟨h.before, h.after⟩
  | seize _ => exact ⟨h.before, h.after⟩

/-- After finalization a supply only goes down. -/
theorem step_le (hfinal : b.series.phase = .finalized) (hstep : b.Step host k c b')
    (side : RedeemSide) : b'.supply side ≤ b.supply side := by
  have hupdate : ∀ {side' : RedeemSide} {supply amount : Nat}, supply + amount = b.supply side' →
      Function.update b.supply side' supply side ≤ b.supply side := by
    intro side' supply amount hs
    by_cases hside : side = side'
    · subst hside
      rw [Function.update_self]
      omega
    · rw [Function.update_of_ne hside]
  cases hstep with
  | idle => exact le_rfl
  | donate _ => exact le_rfl
  | seize _ => exact le_rfl
  | burn hs => exact hupdate hs
  | redeem _ _ _ _ _ _ _ hs _ => exact hupdate hs
  | recombine _ phase _ _ _ _ _ => exact absurd hfinal phase
  | deposit _ phase _ _ _ _ _ _ _ => cases hfinal.symm.trans phase
  | record phase _ _ _ _ _ _ _ _ => exact le_rfl
  | begin phase _ _ _ => exact le_rfl
  | accumulate phase _ _ _ _ _ _ _ => exact le_rfl
  | complete phase _ _ _ _ _ => exact le_rfl
  | abort phase _ => exact le_rfl

end Supplied

/-! ## Whole histories -/

/-- The owner's accounts of a mint hold at least the amount. -/
def Bank.Holds (b : Bank) (owner mint : Pubkey) (amount : Nat) : Prop :=
  ∃ F : Finset Pubkey, (∀ key ∈ F, ∃ t, b.tokens key = some t ∧ t.owner = owner) ∧
    amount ≤ ∑ key ∈ F, b.holding mint key

/-- Nobody holds more claims than are outstanding. -/
theorem Bank.Balanced.holds_le {b : Bank} (h : b.Balanced) {owner mint : Pubkey} {amount : Nat}
    (hclaim : mint.isClaimMint = true) (hholds : b.Holds owner mint amount) :
    amount ≤ b.supply mint := by
  obtain ⟨F, -, hle⟩ := hholds
  exact hle.trans ((h mint hclaim).sum_le F)

namespace World

variable {host : Host} {w₀ w w' : World} {k : Pubkey} {s : Series} {b : Books} {tr : List Action}

/-- The version counts instructions, and the creation of the series is one of them. -/
theorem History.version_lt (h : History host w₀ tr w) (hb : w.books k = some b) :
    b.series.stateVersion.toNat < instructionCount tr := by
  refine h.rec_books hb (P := fun tr _ b => b.series.stateVersion.toNat < instructionCount tr) ?_ ?_
  · intro tr a w w' b _ _ _ hfresh _ hix
    obtain ⟨assetKey, asset, year, start, maturity, mintKey, profile, hs⟩ := hfresh.series
    rw [hs, instructionCount_snoc, if_pos hix]
    exact Nat.succ_pos _
  · intro tr w a w' b c b' _ _ hP _ _ hstep hlabels
    rw [hstep.stateVersion, instructionCount_snoc]
    cases hc : c.isBooked with
    | false =>
      rw [Bool.toNat_false]
      omega
    | true =>
      rw [if_pos (hlabels.booked hc), Bool.toNat_true]
      omega

theorem History.supplied (h : History host w₀ tr w) (hb : w.books k = some b) :
    Supplied k b fun side => directlyBurned (claimMintOf k side) tr := by
  refine h.rec_books hb
    (P := fun tr _ b => Supplied k b fun side => directlyBurned (claimMintOf k side) tr) ?_ ?_
  · intro tr a w w' b _ _ _ hfresh hsilent _
    have hzero : ∀ side, directlyBurned (claimMintOf k side) (tr ++ [a]) = 0 := by
      intro side
      refine List.sum_eq_zero fun n hn => ?_
      obtain ⟨a', ha', rfl⟩ := List.mem_map.mp hn
      exact (hsilent a' ha').burned side
    simp only [hzero]
    exact Supplied.fresh hfresh
  · intro tr w a w' b c b' hist hbooks hP _ _ hstep hlabels
    simp only [directlyBurned_snoc, ← hlabels.burned]
    exact hP.step (hist.redeemable hbooks).1 hstep

/-- After finalization a claim supply never goes up again. -/
theorem supply_le_of_run (hl : w.Linked) (hb : w.books k = some b)
    (hfinal : b.series.phase = .finalized) {tr' : List Action} (hrun : Run (act host) w tr' w')
    (side : RedeemSide) :
    w'.bank.supply (claimMintOf k side) ≤ w.bank.supply (claimMintOf k side) := by
  obtain ⟨b', hb'⟩ := books_of_run hl hb hrun
  rw [← books_supply hb, ← books_supply hb']
  have hmain := rec_books_from hl hb hrun hb' (P := fun _ b' => b'.series.phase = .finalized ∧
    b'.supply side ≤ b.supply side) ⟨hfinal, le_rfl⟩ ?_
  · exact hmain.2
  · rintro tr a b₁ c b₂ ⟨hf, hle⟩ hstep _
    exact ⟨(Redeemable.step_final hf hstep).1, (Supplied.step_le hf hstep side).trans hle⟩

/-- A holder's claims of a finalized series fit into what is left to redeem. -/
theorem redeem_fits (h : History host w₀ tr w) (hs : w.series k = some s)
    (hfinal : s.phase = .finalized) {side : RedeemSide} {owner : Pubkey} {amount : UInt64}
    (hholds : w.bank.Holds owner (s.claimMint side) amount.toNat) :
    (s.redeemedNominal side).toNat + amount.toNat ≤ s.finalSupply.toNat := by
  have hl := h.linked
  obtain ⟨b, hb, rfl⟩ := hl.exists_books hs
  rw [hl.claimMint_eq hs side] at hholds
  have hle := hl.balanced.holds_le (isClaimMint_claimMintOf k side) hholds
  rw [← books_supply hb side] at hle
  have hsum := ((h.supplied hb).after hfinal side).1
  omega

/-- What `redeem` counts stays inside the word. -/
theorem redeem_no_overflow (h : History host w₀ tr w) (hlen : instructionCount tr < 2 ^ 64)
    (hs : w.series k = some s) (hfinal : s.phase = .finalized) {side : RedeemSide}
    {amount payout : UInt64}
    (hfits : (s.redeemedNominal side).toNat + amount.toNat ≤ s.finalSupply.toNat)
    (hpay : redemptionPayout (s.redeemedNominal side) amount (s.pool side) s.finalSupply =
      .ok payout) :
    (s.redeemedNominal side).toNat + amount.toNat < 2 ^ 64 ∧
      (s.paid side).toNat + payout.toNat < 2 ^ 64 ∧ s.stateVersion.toNat + 1 < 2 ^ 64 := by
  obtain ⟨b, hb, rfl⟩ := h.linked.exists_books hs
  have hred := (h.redeemable hb).1
  have hversion := h.version_lt hb
  exact ⟨hfits.trans_lt (UInt64.toNat_lt _),
    (hred.payout_le hfinal hpay).trans_lt (UInt64.toNat_lt _), by omega⟩

/-- **Supply matches the accounting** on each side, up to direct burns; the claim mints are open
before and closed for good after finalization. So no holder's own claims exceed the backing or
what is left to redeem, and no counter of a holder's instruction leaves the word. -/
theorem supply_matches (h : History host w₀ tr w) (hs : w.series k = some s)
    (hlen : instructionCount tr < 2 ^ 64) :
    (∀ side, s.phase ≠ .finalized →
      s.nominalBacking.toNat =
        w.bank.supply (s.claimMint side) + directlyBurned (s.claimMint side) tr ∧
      w.bank.authority (s.claimMint side) = some k) ∧
    (∀ side, s.phase = .finalized →
      s.finalSupply.toNat = w.bank.supply (s.claimMint side) + (s.redeemedNominal side).toNat +
        directlyBurned (s.claimMint side) tr ∧
      w.bank.authority (s.claimMint side) = none ∧
      ∀ tr' w', Run (act host) w tr' w' →
        w'.bank.supply (s.claimMint side) ≤ w.bank.supply (s.claimMint side)) ∧
    (∀ acc amount guard side, acc.series = k →
      w.bank.Holds (.wallet acc.holder) (s.claimMint side) amount.toNat →
      recombine host w acc amount guard ≠ .error (.custom .amountExceedsBacking)) ∧
    (∀ acc side amount allowZero guard, acc.series = k →
      w.bank.Holds (.wallet acc.holder) (s.claimMint side) amount.toNat →
      redeem host w acc side amount allowZero guard ≠ .error (.custom .redemptionExceedsSupply) ∧
      redeem host w acc side amount allowZero guard ≠ .error (.custom .arithmeticOverflow)) ∧
    ∀ acc amount guard, acc.series = k →
      deposit host w acc amount guard ≠ .error (.custom .arithmeticOverflow) := by
  have hl := h.linked
  obtain ⟨b, hb, rfl⟩ := hl.exists_books hs
  have hsupplied := h.supplied hb
  have hversion := h.version_lt hb
  refine ⟨?_, ?_, ?_, ?_, ?_⟩
  · intro side hopen
    rw [hl.claimMint_eq hs side, ← books_supply hb side, ← books_authority hb side]
    exact hsupplied.before hopen side
  · intro side hfinal
    rw [hl.claimMint_eq hs side, ← books_supply hb side, ← books_authority hb side]
    obtain ⟨hsum, hauth⟩ := hsupplied.after hfinal side
    refine ⟨hsum, hauth, fun tr' w' hrun => ?_⟩
    rw [books_supply hb side]
    exact supply_le_of_run hl hb hfinal hrun side
  · rintro acc amount guard side rfl hholds hx
    obtain ⟨s, hs', hopen, hlow⟩ := recombine_amountExceedsBacking hx
    cases hs.symm.trans hs'
    rw [hl.claimMint_eq hs side] at hholds
    -- No holder owns more than the supply, and the supply is within the backing.
    have hle := hl.balanced.holds_le (isClaimMint_claimMintOf _ side) hholds
    rw [← books_supply hb side] at hle
    have hsum := (hsupplied.before hopen side).1
    rw [UInt64.lt_iff_toNat_lt] at hlow
    omega
  · rintro acc side amount allowZero guard rfl hholds
    refine ⟨fun hx => ?_, fun hx => ?_⟩
    · obtain ⟨s, hs', hfinal, hpay⟩ := redeem_redemptionExceedsSupply hx
      cases hs.symm.trans hs'
      have hfits := redeem_fits h hs hfinal hholds
      have hexceeds := (redemptionPayout_eq_error hpay).1
      omega
    · obtain ⟨s, hs', hfinal, hpay⟩ := redeem_arithmeticOverflow hx
      cases hs.symm.trans hs'
      have hfits := redeem_fits h hs hfinal hholds
      -- The overflow would be the payout's, the obligation's or a counter's.
      rcases hpay with hpay | ⟨payout, hpay, howed | hcount⟩
      · have hexceeds := (redemptionPayout_eq_error hpay).1
        omega
      · obtain ⟨owed, hok, -⟩ := (h.redeemable hb).1.exists_obligations
        rw [Series.obligations, if_pos hfinal, howed] at hok
        cases hok
      · obtain ⟨hredeemed, hpaid, hbump⟩ := redeem_no_overflow h hlen hs hfinal hfits hpay
        omega
  · rintro acc amount guard rfl hx
    obtain ⟨s, v, b₁, hs', hv, hcovered, hne, hb₁, hover⟩ := deposit_arithmeticOverflow hx
    cases hs.symm.trans hs'
    have hfits := (Host.invoke_transfer hb₁).fits hne
    rw [Bank.balance_eq hv] at hfits
    rw [UInt64.le_iff_toNat_le] at hcovered
    omega

/-- In the sample five principal claims were burned directly and seven redeemed. -/
theorem supply_matches_sample : ∃ s, (Sample.world 18).series Sample.seriesKey = some s ∧
    s.phase = .finalized ∧
    s.finalSupply.toNat = (Sample.world 18).bank.supply (s.claimMint .pt) + 7 + 5 ∧
    (Sample.world 18).bank.authority (s.claimMint .pt) = none := by
  obtain ⟨s, hs, hfacts⟩ := @Sample.series_of_any 18 (fun s => decide (s.phase = .finalized ∧
    s.redeemedNominal .pt = 7 ∧ s.claimMint .pt = .pt Sample.seriesKey)) (by decide +kernel)
  obtain ⟨hfinal, hredeemed, hmint⟩ := of_decide_eq_true hfacts
  have hlen : instructionCount (Sample.actions.take 18) < 2 ^ 64 := by decide +kernel
  have hburned : directlyBurned (.pt Sample.seriesKey) (Sample.actions.take 18) = 5 := by
    decide +kernel
  obtain ⟨hsum, hauth, -⟩ := (supply_matches (Sample.history 18) hs hlen).2.1 .pt hfinal
  refine ⟨s, hs, hfinal, ?_, hauth⟩
  have hseven : (7 : UInt64).toNat = 7 := rfl
  rw [hsum, hredeemed, hmint, hburned, hseven]

end World

end DividendX
