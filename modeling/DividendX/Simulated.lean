import DividendX.Agreement

/-!
# The reference follows

Whatever the chain accepts, the reference takes the calls it stands for, and both sides agree
afterwards (`Setting.step`). Each instruction, and everything holders do outside of the program, is
one case. The stages of a finalization before the last are no calls.
-/

namespace DividendX

open AnnualReference Binary64 LittleEndian

variable {host : Host} {N : Naming} {owners : List Pubkey} {k : Pubkey} {w₀ w w' : World}
  {tr : List Action} {b b' : Books} {cs : List Call} {x : ExactReferenceModel}

/-! ## Amounts -/

theorem le_U64_MAX {n : Nat} (h : n < 2 ^ 64) : (n : Int) ≤ U64_MAX := by
  rw [U64_MAX]
  omega

theorem toNat_pos_of_pos {amount : UInt64} (h : 0 < amount) : (0 : Int) < amount.toNat := by
  have hlt := UInt64.lt_iff_toNat_lt.mp h
  change 0 < amount.toNat at hlt
  omega

theorem RedeemSide.claim_eq_iff {side side' : RedeemSide} :
    side.claim = side'.claim ↔ side = side' :=
  ⟨RedeemSide.claim_injective, congrArg _⟩

/-- A lost share depends on the value of the fraction only. -/
theorem lost_share_congr {q n d n' d' : Int} (hd : 0 < d) (hd' : 0 < d') (h : n' * d = n * d') :
    q * (d' - n') / d' = q * (d - n) / d := by
  have hcross : d * (q * (d' - n')) = d' * (q * (d - n)) := by linear_combination (-q) * h
  calc q * (d' - n') / d' = d * (q * (d' - n')) / (d * d') :=
        (Int.mul_ediv_mul_of_pos _ _ hd).symm
    _ = d' * (q * (d - n)) / (d' * d) := by rw [hcross, Int.mul_comm d d']
    _ = q * (d - n) / d := Int.mul_ediv_mul_of_pos _ _ hd'

/-- A method without a value. -/
theorem returns_nothing {s : AnnualReferenceModel} {m : AnnualReferenceModel.Operate Unit}
    {R : AnnualReferenceModel → Prop} (h : Method.Returns m s fun _ s' => R s') :
    Method.Returns (m >>= fun _ => pure Returned.nothing) s fun r s' => r = .nothing ∧ R s' := by
  obtain ⟨u, s', hm, hR⟩ := h
  exact Method.Returns.returns ⟨u, s', hm, rfl, hR⟩

namespace Setting

/-! ## Instructions of holders -/

/-- **A deposit** of the program is one of the reference. -/
theorem deposit (S : Setting host N owners k w₀ tr w b cs x) {acc : PairAccounts}
    {amount : UInt64} {guard : Guard}
    (ha : w.act host (.instruction (.deposit acc amount guard)) = some w')
    (hb' : w'.books k = some b') :
    Simulates N owners k w' b' cs
      (calls N k w b b' (.instruction (.deposit acc amount guard))) x := by
  have hl := S.history.linked
  have hx : DividendX.deposit host w acc amount guard = .ok w' := Result.toOption_eq_some.mp ha
  have hm := World.deposit_moves hl hx
  by_cases hk : acc.series = k
  · subst hk
    have hstep := S.stepped hb' hm
    obtain ⟨L, hL, hp, -⟩ := deposit_eq_ok.mp hx
    have hmint : L.holderPt.mint = claimMintOf acc.series .pt :=
      hp.holderPt.mint.trans (hp.accounts.ptMint.trans (hl.claimMint_eq hL.series .pt))
    have howner := S.owner_mem hL.holderPt.1.1 hmint
    obtain ⟨account, hrequire, -, -⟩ := S.account hL.holderPt.1.1 hmint
    rw [hp.holderPt.owner] at howner hrequire
    have hearly := Int64.lt_iff_toInt_lt.mp (World.deposit_early hx (World.books_series S.books)).2
    cases hstep with
    | @deposit _ nominal v positive phase resolved unaccrued covered fits entitled hn hv =>
      have hopen : b.series.phase ≠ .finalized := by simp [phase]
      have hnominal := nominal.toNat_lt
      have hreturns := AnnualReferenceModel.deposit_returns S.mirrors.inv hrequire
        (toNat_pos_of_pos positive) S.now (S.mirrors.snapshot.trans (Books.settled_of_open hopen))
        (by rw [S.mirrors.start]; exact hearly) S.mirrors.free
        (by rw [S.mirrors.accountable, S.mirrors.custody]; exact_mod_cast covered)
        (by rw [S.mirrors.accountable]; exact_mod_cast le_U64_MAX (hn ▸ hnominal))
        (by rw [S.mirrors.custody]; exact_mod_cast le_U64_MAX fits)
      refine S.call ha (.deposit (N.account (.wallet acc.holder)) amount.toNat
        w.clock.unixTimestamp.toInt) rfl rfl (returns_nothing hreturns) (if_pos rfl) ?_ rfl
      refine ⟨rfl, Books.settled_eq_of_open hopen hopen, ?_, Int.natCast_add _ _,
        fun side => Int.natCast_add _ _, fun side => ?_, fun owner ho side => ?_,
        fun owner ho => ?_, fun other => le_rfl⟩
      · change (nominal.toNat : Int) = b.series.nominalBacking.toNat + (amount.toNat : Int)
        omega
      · cases side <;> exact (Int.add_zero _).symm
      · simp only [Action.flow, true_and, S.enrolled.account_iff ho howner]
      · rw [calls, if_pos rfl]
        rfl
  · exact S.elsewhere ha hb' hm hk (if_neg hk) fun owner side => if_neg fun h => hk h.1

/-- **A recombination** too. -/
theorem recombine (S : Setting host N owners k w₀ tr w b cs x) {acc : PairAccounts}
    {amount : UInt64} {guard : Guard}
    (ha : w.act host (.instruction (.recombine acc amount guard)) = some w')
    (hb' : w'.books k = some b') (hcap : ∀ owner ∈ owners, credited (cs ++ calls N k w b b'
      (.instruction (.recombine acc amount guard))) (N.account owner) ≤ U64_MAX) :
    Simulates N owners k w' b' cs
      (calls N k w b b' (.instruction (.recombine acc amount guard))) x := by
  have hl := S.history.linked
  have hx : DividendX.recombine host w acc amount guard = .ok w' := Result.toOption_eq_some.mp ha
  have hm := World.recombine_moves hl hx
  by_cases hk : acc.series = k
  · subst hk
    have hstep := S.stepped hb' hm
    obtain ⟨L, hL, hp, b₁, b₂, b₃, h₁, h₂, -⟩ := recombine_eq_ok.mp hx
    have hpt : L.holderPt.mint = claimMintOf acc.series .pt :=
      hp.holderPt.mint.trans (hp.accounts.ptMint.trans (hl.claimMint_eq hL.series .pt))
    have hdr : L.holderDr.mint = claimMintOf acc.series .dr :=
      hp.holderDr.mint.trans (hp.accounts.drMint.trans (hl.claimMint_eq hL.series .dr))
    have howner := S.owner_mem hL.holderPt.1.1 hpt
    obtain ⟨account, hrequire, ⟨hcollateral, hnonneg⟩, hheldPt⟩ := S.account hL.holderPt.1.1 hpt
    obtain ⟨account', hrequire', -, hheldDr⟩ := S.account hL.holderDr.1.1 hdr
    rw [hp.holderPt.owner] at howner hrequire hcollateral
    rw [hp.holderDr.owner] at hrequire'
    obtain rfl : account = account' := Except.ok.inj (hrequire.symm.trans hrequire')
    -- what is burned was held
    obtain ⟨t, ht, -, hlePt⟩ := (Host.invoke_burn h₁).source
    cases hL.holderPt.1.1.symm.trans ht
    obtain ⟨t', ht', -, hleDr⟩ := (Host.invoke_burn h₂).source
    have hleDr' : amount.toNat ≤ L.holderDr.amount.toNat := by
      obtain ⟨u, hu, hframe⟩ := (Host.invoke_burn h₁).alike.symm.token ht'
      cases hL.holderDr.1.1.symm.trans hu
      have hne : acc.holderDr ≠ acc.holderPt := by
        intro heq
        have hsame := hL.holderDr.1.1
        rw [heq, hL.holderPt.1.1, Option.some.injEq] at hsame
        have hclaims := hpt.symm.trans ((congrArg TokenAccount.mint hsame).trans hdr)
        exact nomatch (claimMintOf_injective hclaims).2
      have hbalance := (Host.invoke_burn h₁).others _ hne
      rw [Bank.balance_eq ht', Bank.balance_eq hL.holderDr.1.1] at hbalance
      rw [← hbalance]
      exact hleDr
    have hcalls : calls N acc.series w b b' (.instruction (.recombine acc amount guard)) =
        [(.recombine (N.account (.wallet acc.holder)) amount.toNat, .nothing)] := if_pos rfl
    have hthis : credited [(ExactOperation.recombine (N.account (.wallet acc.holder)) amount.toNat,
        Returned.nothing)] (N.account (.wallet acc.holder)) = amount.toNat := by
      simp [credited, Call.credit]
    have hmax := hcap _ howner
    rw [hcalls, credited_append, hthis] at hmax
    cases hstep with
    | @recombine _ nominal v supply vault positive phase covered hn hv hs hvault =>
      have hreturns := AnnualReferenceModel.recombine_returns S.mirrors.inv hrequire
        (toNat_pos_of_pos positive) (S.mirrors.snapshot.trans (Books.settled_of_open phase))
        (fun side => by
          cases side with
          | pt => exact (Int.ofNat_le.mpr hlePt).trans hheldPt
          | dr => exact (Int.ofNat_le.mpr hleDr').trans hheldDr)
        S.mirrors.free
        (by rw [S.mirrors.accountable, S.mirrors.custody]; exact_mod_cast covered)
        ⟨by omega, by rw [hcollateral]; exact hmax⟩
      refine S.call ha (.recombine (N.account (.wallet acc.holder)) amount.toNat) rfl rfl
        (returns_nothing hreturns) hcalls ?_ rfl
      refine ⟨rfl, Books.settled_eq_of_open phase phase, ?_, ?_, fun side => ?_,
        fun side => ?_, fun owner ho side => ?_, fun owner ho => ?_, fun other => ?_⟩
      · change (nominal.toNat : Int) = b.series.nominalBacking.toNat + -(amount.toNat : Int)
        omega
      · change (vault : Int) = b.vault + -(amount.toNat : Int)
        omega
      · have hside := hs side
        change (supply side : Int) = b.supply side + -(amount.toNat : Int)
        omega
      · cases side <;> exact (Int.add_zero _).symm
      · simp only [Action.flow, true_and, S.enrolled.account_iff ho howner]
      · rw [hcalls]
        simp [credited, Call.credit, eq_comm]
      · change (0 : Int) ≤
          if other = N.account (.wallet acc.holder) then (amount.toNat : Int) else 0
        split <;> omega
  · exact S.elsewhere ha hb' hm hk (if_neg hk) fun owner side => if_neg fun h => hk h.1

/-- **A redemption** too, for the same payout. -/
theorem redeem (S : Setting host N owners k w₀ tr w b cs x) {acc : RedeemAccounts}
    {side : RedeemSide} {amount : UInt64} {allowZero : Bool} {guard : Guard}
    (ha : w.act host (.instruction (.redeem acc side amount allowZero guard)) = some w')
    (hb' : w'.books k = some b') (hcap : ∀ owner ∈ owners, credited (cs ++ calls N k w b b'
      (.instruction (.redeem acc side amount allowZero guard))) (N.account owner) ≤ U64_MAX) :
    Simulates N owners k w' b' cs
      (calls N k w b b' (.instruction (.redeem acc side amount allowZero guard))) x := by
  have hl := S.history.linked
  have hx : DividendX.redeem host w acc side amount allowZero guard = .ok w' :=
    Result.toOption_eq_some.mp ha
  obtain ⟨payout, hm⟩ := World.redeem_moves hl hx
  by_cases hk : acc.series = k
  · subst hk
    have hstep := S.stepped hb' hm
    obtain ⟨L, payout', hL, hp, b₁, b₂, h₁, -⟩ := redeem_eq_ok.mp hx
    have hseries : b.series = L.series :=
      Option.some.inj ((World.books_series S.books).symm.trans hL.series)
    have hmint : L.holderClaim.mint = claimMintOf acc.series side :=
      hp.holderClaim.mint.trans (hp.claimMint.trans (hl.claimMint_eq hL.series side))
    have howner := S.owner_mem hL.holderClaim.1.1 hmint
    obtain ⟨account, hrequire, ⟨hcollateral, hnonneg⟩, hheld⟩ := S.account hL.holderClaim.1.1 hmint
    rw [hp.holderClaim.owner] at howner hrequire hcollateral
    obtain ⟨t, ht, -, hle⟩ := (Host.invoke_burn h₁).source
    cases hL.holderClaim.1.1.symm.trans ht
    have henough : (amount.toNat : Int) ≤ account.claims side.claim :=
      (Int.ofNat_le.mpr hle).trans hheld
    have hconsent := hp.consent
    have hpriced' := hp.priced
    rw [← hseries] at hpriced'
    cases hstep with
    | @redeem _ _ _ redeemed paid v supply vault positive phase priced covered hr hpaid hv hs
        hvault =>
      -- the chain pays what the instruction has computed
      obtain rfl : payout = payout' := Except.ok.inj (priced.symm.trans hpriced')
      have hsnapshot := S.mirrors.snapshot.trans (Books.settled_of_final phase)
      have hget := AnnualReferenceModel.requireAccount_eq_ok hrequire
      obtain ⟨hne, -, -⟩ := S.mirrors.inv.shareStep_bounds hsnapshot hget
        (toNat_pos_of_pos positive) henough
      have hpays := S.mirrors.shareStep hne priced
      have hanswer : (b.vault : Int) - vault = payout.toNat := by omega
      have hcalls : calls N acc.series w b { b with
            series := { b.series.setRedeemed side redeemed paid with stateVersion := v }
            vault := vault, supply := Function.update b.supply side supply }
          (.instruction (.redeem acc side amount allowZero guard)) =
          [(.redeem (N.account (.wallet acc.holder)) side.claim amount.toNat allowZero,
            .payout payout.toNat)] := by
        rw [← hanswer]
        exact if_pos rfl
      have hthis : credited [(ExactOperation.redeem (N.account (.wallet acc.holder)) side.claim
          amount.toNat allowZero, Returned.payout payout.toNat)] (N.account (.wallet acc.holder)) =
          payout.toNat := by
        simp [credited, Call.credit]
      have hmax := hcap _ howner
      rw [hcalls, credited_append, hthis] at hmax
      have hagreed : x.base.shareStep b.snapshot side.claim amount.toNat = 0 →
          allowZero = true := by
        intro hzero
        rw [hpays] at hzero
        rcases hconsent with hpos | hyes
        · exact absurd hzero (toNat_pos_of_pos hpos).ne'
        · exact hyes
      have hreturns := AnnualReferenceModel.redeem_returns S.mirrors.inv hsnapshot hrequire
        (toNat_pos_of_pos positive) henough S.mirrors.free S.solvent hagreed
        (by rw [hpays, hcollateral]; omega)
      rw [hpays] at hreturns
      obtain ⟨p, s', hredeem, rfl, hshift⟩ := hreturns
      refine S.call ha (.redeem (N.account (.wallet acc.holder)) side.claim amount.toNat allowZero)
        rfl rfl (Method.Returns.returns ⟨_, s', hredeem, rfl, hshift⟩) hcalls ?_ rfl
      refine ⟨World.identity_setRedeemed .., by cases side <;> rfl, ?_, ?_, fun side' => ?_,
        fun side' => ?_, fun owner ho side' => ?_, fun owner ho => ?_, fun other => ?_⟩
      · cases side <;> exact (Int.add_zero _).symm
      · change (vault : Int) = b.vault + -(payout.toNat : Int)
        omega
      · change ((Function.update b.supply side supply side' : Nat) : Int) =
          b.supply side' + if side'.claim = side.claim then -(amount.toNat : Int) else 0
        by_cases hside : side' = side
        · subst hside
          rw [Function.update_self, if_pos rfl]
          omega
        · rw [Function.update_of_ne hside, if_neg (mt RedeemSide.claim_injective hside),
            Int.add_zero]
      · change ((Series.redeemedNominal { b.series.setRedeemed side redeemed paid with
          stateVersion := v } side').toNat : Int) = (b.series.redeemedNominal side').toNat +
            if side'.claim = side.claim then (amount.toNat : Int) else 0
        rw [Series.redeemedNominal_setRedeemed]
        by_cases hside : side' = side
        · subst hside
          rw [if_pos rfl, if_pos rfl]
          omega
        · rw [if_neg hside, if_neg (mt RedeemSide.claim_injective hside), Int.add_zero]
      · simp only [Action.flow, true_and, S.enrolled.account_iff ho howner, RedeemSide.claim_eq_iff]
        exact if_congr ⟨fun h => ⟨h.2, h.1.symm⟩, fun h => ⟨h.2.symm, h.1⟩⟩ rfl rfl
      · rw [hcalls]
        simp [credited, Call.credit, eq_comm]
      · change (0 : Int) ≤
          if other = N.account (.wallet acc.holder) then (payout.toNat : Int) else 0
        split <;> omega
  · exact S.elsewhere ha hb' hm hk (if_neg hk) fun owner side => if_neg fun h => hk h.1

/-! ## What holders do on their own -/

/-- **A transfer** of claims too; one of collateral is no step. -/
theorem transfer (S : Setting host N owners k w₀ tr w b cs x)
    {mint source destination authority : Pubkey} {amount : UInt64} {decimals : UInt8}
    (ha : w.act host (.transfer mint source destination authority amount decimals) = some w')
    (hb' : w'.books k = some b') : Simulates N owners k w' b' cs
      (calls N k w b b' (.transfer mint source destination authority amount decimals)) x := by
  have hsame : b' = b := S.same ha hb' rfl (fun _ => rfl) rfl rfl
  have hact := ha
  simp only [World.act, Option.ite_none_right_eq_some, Option.map_eq_some_iff] at hact
  obtain ⟨-, bank, hbank, -⟩ := hact
  have m := Host.invoke_transfer (Result.toOption_eq_some.mp hbank)
  obtain ⟨t, ht, htmint, hle⟩ := m.source
  obtain ⟨u, hu, humint⟩ := m.destination
  have hsource : w.bank.ownerOf source = some t.owner := by rw [Bank.ownerOf, ht]; rfl
  have htarget : w.bank.ownerOf destination = some u.owner := by rw [Bank.ownerOf, hu]; rfl
  cases hside : sideOf k mint with
  | none =>
    refine S.still ha hsame (by simp only [calls, hside]) fun owner side => if_neg fun heq => ?_
    rw [sideOf_eq_some.mpr heq] at hside
    cases hside
  | some side =>
    obtain rfl := sideOf_eq_some.mp hside
    by_cases hnone : amount = 0 ∨ t.owner = u.owner
    · -- nothing moves, or it stays with the owner
      refine S.still ha hsame (by simp only [calls, hside, hsource, htarget, if_pos hnone])
        fun owner side' => ?_
      simp only [Action.flow, Bank.share_eq ht, Bank.share_eq hu]
      rcases hnone with rfl | howner
      · simp
      · rw [howner, sub_self, ite_self]
    · obtain ⟨hamount, hdiffer⟩ := not_or.mp hnone
      have hfrom := S.owner_mem ht htmint
      have hto := S.owner_mem hu humint
      obtain ⟨account, hrequire, -, hheld⟩ := S.account ht htmint
      obtain ⟨account', hrequire', -, -⟩ := S.account hu humint
      have hpos : 0 < amount := UInt64.pos_iff_ne_zero.mpr hamount
      have hreturns := AnnualReferenceModel.transfer_returns S.mirrors.inv hrequire hrequire'
        (toNat_pos_of_pos hpos) (mt (S.enrolled.distinct _ hfrom _ hto) hdiffer)
        ((Int.ofNat_le.mpr hle).trans hheld)
      have hcalls : calls N k w b b' (.transfer (claimMintOf k side) source destination authority
          amount decimals) = [(.transfer (N.account t.owner) (N.account u.owner) side.claim
            amount.toNat, .nothing)] := by
        simp only [calls, hside, hsource, htarget, if_neg hnone]
      subst hsame
      refine S.call ha (.transfer (N.account t.owner) (N.account u.owner) side.claim amount.toNat)
        rfl rfl (returns_nothing hreturns) hcalls ?_ rfl
      refine ⟨rfl, rfl, (Int.add_zero _).symm, (Int.add_zero _).symm,
        fun _ => (Int.add_zero _).symm, fun _ => (Int.add_zero _).symm, fun owner ho side' => ?_,
        fun owner ho => ?_, fun _ => le_rfl⟩
      · simp only [Action.flow, Bank.share_eq ht, Bank.share_eq hu, claimMintOf_eq_iff, true_and,
          S.enrolled.account_iff ho hfrom, S.enrolled.account_iff ho hto, RedeemSide.claim_eq_iff]
        simp only [eq_comm (a := owner), eq_comm (a := side')]
      · rw [hcalls]
        rfl

/-- **A direct burn** too. -/
theorem burn (S : Setting host N owners k w₀ tr w b cs x) {mint source authority : Pubkey}
    {amount : UInt64} (ha : w.act host (.burn mint source authority amount) = some w')
    (hb' : w'.books k = some b') : Simulates N owners k w' b' cs
      (calls N k w b b' (.burn mint source authority amount)) x := by
  have hact := ha
  simp only [World.act, Option.ite_none_right_eq_some, Option.map_eq_some_iff] at hact
  obtain ⟨-, bank, hbank, -⟩ := hact
  obtain ⟨t, ht, htmint, hle⟩ := (Host.invoke_burn (Result.toOption_eq_some.mp hbank)).source
  have hsource : w.bank.ownerOf source = some t.owner := by rw [Bank.ownerOf, ht]; rfl
  -- A burn of other claims, or of nothing, is no call of the reference.
  cases hside : sideOf k mint with
  | none =>
    have hne : ∀ side, mint ≠ claimMintOf k side := by
      intro side heq
      rw [sideOf_eq_some.mpr heq] at hside
      cases hside
    exact S.still ha (S.same ha hb' rfl (fun side => if_neg (hne side)) rfl rfl)
      (by simp only [calls, hside]) fun owner side => if_neg (hne side)
  | some side =>
    obtain rfl := sideOf_eq_some.mp hside
    by_cases hamount : amount = 0
    · subst hamount
      refine S.still ha (S.same ha hb' rfl (fun _ => ite_self _) rfl rfl)
        (by simp only [calls, hside, hsource, if_pos]) fun owner side' => ?_
      simp [Action.flow, Bank.share]
    · have howner := S.owner_mem ht htmint
      obtain ⟨account, hrequire, -, hheld⟩ := S.account ht htmint
      have hpos : 0 < amount := UInt64.pos_iff_ne_zero.mpr hamount
      obtain ⟨c, hstep, hlabels, -⟩ := S.outside ha hb' rfl
      have hcalls : calls N k w b b' (.burn (claimMintOf k side) source authority amount) =
          [(.burn (N.account t.owner) side.claim amount.toNat, .nothing)] := by
        simp only [calls, hside, hsource, if_neg hamount]
      have hburned : c.burned side = amount.toNat := (hlabels.burned side).trans (if_pos rfl)
      have hburns : 0 < c.burned side := by
        rw [hburned]
        exact UInt64.lt_iff_toNat_lt.mp hpos
      obtain ⟨supply, hsupply, rfl⟩ := hstep.of_burned hburns
      rw [hburned] at hsupply
      have hreturns := AnnualReferenceModel.burn_returns S.mirrors.inv hrequire
        (toNat_pos_of_pos hpos) ((Int.ofNat_le.mpr hle).trans hheld)
      refine S.call ha (.burn (N.account t.owner) side.claim amount.toNat) rfl rfl
        (returns_nothing hreturns) hcalls ?_ rfl
      refine ⟨rfl, rfl, (Int.add_zero _).symm, (Int.add_zero _).symm, fun side' => ?_,
        fun _ => (Int.add_zero _).symm, fun owner ho side' => ?_, fun owner ho => ?_,
        fun _ => le_rfl⟩
      · change ((Function.update b.supply side supply side' : Nat) : Int) =
          b.supply side' + if side'.claim = side.claim then -(amount.toNat : Int) else 0
        by_cases hsides : side' = side
        · subst hsides
          rw [Function.update_self, if_pos rfl]
          omega
        · rw [Function.update_of_ne hsides, if_neg (mt RedeemSide.claim_injective hsides),
            Int.add_zero]
      · simp only [Action.flow, Bank.share_eq ht, claimMintOf_eq_iff, true_and,
          S.enrolled.account_iff ho howner, RedeemSide.claim_eq_iff]
        by_cases hsides : side = side' <;> by_cases howners : t.owner = owner <;>
          simp [hsides, howners, eq_comm (b := t.owner), eq_comm (b := side)]
      · rw [hcalls]
        rfl

/-- **A donation** too. -/
theorem donate (S : Setting host N owners k w₀ tr w b cs x) {vault : Pubkey} {amount : UInt64}
    (ha : w.act host (.donate vault amount) = some w') (hb' : w'.books k = some b') :
    Simulates N owners k w' b' cs (calls N k w b b' (.donate vault amount)) x := by
  by_cases hdonated : vault = b.series.vault ∧ amount ≠ 0
  · obtain ⟨c, hstep, hlabels, -⟩ := S.outside ha hb' rfl
    have hdonation : c.donation = amount.toNat := hlabels.donation.trans (if_pos hdonated.1)
    have hpos : 0 < amount := UInt64.pos_iff_ne_zero.mpr hdonated.2
    obtain ⟨hfits, rfl⟩ := hstep.of_donation
      (by rw [hdonation]; exact UInt64.lt_iff_toNat_lt.mp hpos)
    rw [hdonation] at hfits
    have hnonneg : 0 ≤ x.base.obligation := by
      rw [S.mirrors.obligation (S.history.redeemable S.books).1]
      exact Int.natCast_nonneg _
    have hreturns := AnnualReferenceModel.donate_returns (toNat_pos_of_pos hpos) S.mirrors.covered
      hnonneg S.solvent (by rw [S.mirrors.custody]; exact_mod_cast le_U64_MAX hfits)
    refine S.call ha (.donate amount.toNat) rfl rfl (returns_nothing hreturns) (if_pos hdonated)
      ?_ rfl
    refine ⟨rfl, rfl, (Int.add_zero _).symm, ?_, fun _ => (Int.add_zero _).symm,
      fun _ => (Int.add_zero _).symm, fun _ _ _ => rfl, fun owner ho => ?_, fun _ => le_rfl⟩
    · rw [hdonation]
      exact Int.natCast_add _ _
    · rw [calls, if_pos hdonated]
      rfl
  · refine S.still ha (S.same ha hb' rfl (fun _ => rfl) ?_ rfl) (if_neg hdonated) fun _ _ => rfl
    simp only [Action.donation]
    split
    · rename_i heq
      have hzero : amount = 0 := by
        by_contra hne
        exact hdonated ⟨heq, hne⟩
      rw [hzero]
      rfl
    · rfl

/-! ## The journal -/

/-- The reference has at most as many events as the series. -/
theorem length_le (S : Setting host N owners k w₀ tr w b cs x) :
    x.journal.entries.length ≤ b.series.eventCount.toNat := by
  have hj := S.history.journaled S.books
  obtain ⟨ids, hids, hcard⟩ := HasTotal.exists_card hj.events
  have hsub : (x.journal.entries.map Prod.fst).toFinset ⊆ ids.image N.event := by
    intro key hkey
    obtain ⟨entry, hentry, rfl⟩ := List.mem_map.mp (List.mem_toFinset.mp hkey)
    have hget := Record.get?_of_mem hentry
    obtain ⟨id, hid⟩ := S.mirrors.keys _ _ hget
    rw [hid, S.mirrors.journal] at hget
    refine Finset.mem_image.mpr ⟨id, (hids id).mpr ?_, hid.symm⟩
    cases hhead : b.heads id with
    | none =>
      rw [(Books.latest_eq_none hj).mpr hhead] at hget
      cases hget
    | some head => rfl
  rw [← hcard, ← List.length_map Prod.fst, ← List.toFinset_card_of_nodup x.journal.nodup]
  exact (Finset.card_le_card hsub).trans Finset.card_image_le

/-- **A record** of the program is one of the reference, with the same outcome. -/
theorem upsertEvent (S : Setting host N owners k w₀ tr w b cs x) {acc : UpsertEventAccounts}
    {input : EventInput} (ha : w.act host (.instruction (.upsertEvent acc input)) = some w')
    (hb' : w'.books k = some b') : Simulates N owners k w' b' cs
      (calls N k w b b' (.instruction (.upsertEvent acc input))) x := by
  have hl := S.history.linked
  have hx : DividendX.upsertEvent host w acc input = .ok w' := Result.toOption_eq_some.mp ha
  obtain ⟨p, s, resolved, inYear, hpass, hcases⟩ := upsertEvent_ok hx
  by_cases hk : acc.series = k
  · subst hk
    obtain rfl : b.series = s :=
      Option.some.inj ((World.books_series S.books).symm.trans hpass.series)
    have hj := S.history.journaled S.books
    have hopen : b.series.phase ≠ .finalized := by simp [hpass.phase]
    have hsnapshot := S.mirrors.snapshot.trans (Books.settled_of_open hopen)
    have hpasses := N.passes hpass.valid
    have hadmits : x.Admits (N.record input) := by
      refine ⟨S.enrolled.proper.text _, ?_, S.enrolled.texts, ?_, hpasses.date, hpasses.positive,
        fun h => hpasses.rise h.1⟩
      · exact not_lt.mpr (Int.natCast_nonneg _)
      · rw [S.mirrors.term]
        exact ⟨rfl, rfl, rfl⟩
    rcases hcases with ⟨hreplay, rfl⟩ | ⟨head, isNew, s', hr⟩
    · -- the latest record once more
      obtain rfl : b = b' := Option.some.inj (S.books.symm.trans hb')
      obtain ⟨head, r, hhead, -, -, hrevision, hrecord, -, hinput⟩ := hreplay.latest
      rw [← World.books_heads S.books] at hhead
      rw [← World.books_revisions S.books] at hrecord
      have hlatest : b.latest input.eventId = some input := by
        simp [Books.latest, hhead, hrevision, hrecord, hinput]
      have hrepeats : b.repeats input = true := by simp [Books.repeats, hhead, hrevision]
      have hcalls : calls N acc.series w' b b (.instruction (.upsertEvent acc input)) =
          [(.recordEvent (N.record input), .recorded .idempotent)] := by
        rw [calls, if_pos rfl, if_pos hrepeats]
      have hget : x.journal.get? (N.record input).id = some (N.record input) := by
        change x.journal.get? (N.event input.eventId) = _
        rw [S.mirrors.journal, hlatest]
        rfl
      rw [hcalls]
      refine ⟨x, Method.replay_cons.mpr ⟨x, bind_pure_eq_ok.mpr ⟨_,
        ExactReferenceModel.recordEvent_repeated hsnapshot hadmits hget, rfl⟩, rfl⟩, ?_⟩
      exact S.mirrors.follow hl ha (.refl (fun _ _ => rfl) fun _ => rfl) (.refl _) S.mirrors.inv
        S.mirrors.covered S.mirrors.journal S.mirrors.keys
    · -- a record that is written
      have hstep := S.stepped hb' (World.recorded_moves hl hpass hr)
      have hidentity := hstep.identity
      have hlatest := hstep.latest
      cases hstep with
      | @record _ resolved' inYear' s₁ jv v phase numbered valid later limit unused counted hjv
          hv =>
        obtain ⟨_, _, _, _, _, -, -, -, -, -, rfl⟩ := updateCounters_eq_ok.mp counted
        have hrepeats : b.repeats input = false := by
          cases hhead : b.heads input.eventId with
          | none => simp [Books.repeats, hhead]
          | some head =>
            have hlt := later head hhead
            have hne : head.latestRevision ≠ input.revision := fun heq => by
              rw [heq] at hlt
              exact absurd hlt (UInt64.lt_irrefl _)
            simp [Books.repeats, hhead, hne]
        have hlater : ∀ previous, x.journal.get? (N.record input).id = some previous →
            previous.revision < (N.record input).revision := by
          intro previous hprevious
          change x.journal.get? (N.event input.eventId) = _ at hprevious
          rw [S.mirrors.journal, Option.map_eq_some_iff] at hprevious
          obtain ⟨old, hold, rfl⟩ := hprevious
          obtain ⟨head, hhead⟩ := World.exists_heads hl S.books hj hold
          have hlt := UInt64.lt_iff_toNat_lt.mp (later head hhead.found)
          rw [hhead.revision] at hlt
          exact Int.ofNat_lt.mpr hlt
        have hlimit : x.journal.get? (N.record input).id = none →
            x.journal.entries.length < MAX_EVENT_IDS := by
          intro hnone
          change x.journal.get? (N.event input.eventId) = _ at hnone
          rw [S.mirrors.journal, Option.map_eq_none_iff, Books.latest_eq_none hj] at hnone
          have hlt := UInt8.lt_iff_toNat_lt.mp (limit hnone)
          exact S.length_le.trans_lt hlt
        have hrecord := ExactReferenceModel.recordEvent_accepted hsnapshot hadmits hlater hlimit
        refine ⟨{ x with journal := x.journal.set (N.event input.eventId) (N.record input) }, ?_,
          S.mirrors.follow hl ha ?_ (.refl _) S.mirrors.inv S.mirrors.covered (fun id => ?_)
            fun key event hget => ?_⟩
        · rw [calls, if_pos rfl, if_neg (by rw [hrepeats]; decide)]
          exact Method.replay_cons.mpr ⟨_, bind_pure_eq_ok.mpr ⟨_, hrecord, rfl⟩, rfl⟩
        · refine ⟨hidentity, Books.settled_eq_of_open hopen hopen, (Int.add_zero _).symm,
            (Int.add_zero _).symm, fun _ => (Int.add_zero _).symm, fun side => ?_, fun _ _ _ => rfl,
            fun owner _ => ?_, fun _ => le_rfl⟩
          · cases side <;> exact (Int.add_zero _).symm
          · rw [calls, if_pos rfl]
            rfl
        · -- names of events are told apart
          rw [Record.get?_set, hlatest id, S.mirrors.journal]
          by_cases hid : id = input.eventId
          · rw [if_pos (congrArg N.event hid), if_pos hid]
            rfl
          · rw [if_neg (mt (fun h => S.enrolled.proper.injective h) hid), if_neg hid]
        · rw [Record.get?_set] at hget
          split at hget
          · exact ⟨_, ‹_›⟩
          · exact S.mirrors.keys _ _ hget
  · rcases hcases with ⟨-, rfl⟩ | ⟨head, isNew, s', hr⟩
    · exact S.still ha (Option.some.inj (hb'.symm.trans S.books)) (if_neg hk) fun _ _ => rfl
    · exact S.elsewhere ha hb' (World.recorded_moves hl hpass hr) hk (if_neg hk) fun _ _ => rfl

/-! ## Finalization -/

variable {id : Bytes32} {input : EventInput} {head : EventHead}

/-- What an entry of the reference's journal stands for. -/
theorem entry (S : Setting host N owners k w₀ tr w b cs x) {e : String × ExactEvent}
    (he : e ∈ x.journal.entries) :
    ∃ id input head, e = (N.event id, N.record input) ∧ World.Heads b id input head := by
  have hget := Record.get?_of_mem he
  obtain ⟨id, hid⟩ := S.mirrors.keys _ _ hget
  have hlatest := hget
  rw [hid, S.mirrors.journal, Option.map_eq_some_iff] at hlatest
  obtain ⟨input, hinput, hrecord⟩ := hlatest
  obtain ⟨head, hhead⟩ := World.exists_heads S.history.linked S.books
    (S.history.journaled S.books) hinput
  exact ⟨id, input, head, Prod.ext hid hrecord.symm, hhead⟩

/-- Under the seal every event is resolved. -/
theorem resolved (S : Setting host N owners k w₀ tr w b cs x) (phase : b.series.phase = .sealing)
    (h : World.Heads b id input head) : input.isResolved = true := by
  obtain ⟨-, hzero⟩ := S.history.sealable S.books phase
  have hcount := (S.history.journaled S.books).unresolved
  rw [hzero] at hcount
  have hflag := CountsHeads.of_zero hcount h.found
  obtain ⟨clock, hvalid⟩ := h.valid
  rw [← (validateEventInput_ok hvalid).1]
  simpa using hflag

/-- An event has the same factor on both sides. -/
theorem factor (S : Setting host N owners k w₀ tr w b cs x) (phase : b.series.phase = .sealing)
    (h : World.Heads b id input head) : (N.record input).factor N.term.year = b.factor id := by
  have hresolved := S.resolved phase h
  obtain ⟨clock, hvalid⟩ := h.valid
  obtain ⟨r, hr, rfl⟩ := h.stored
  rw [N.factor_record S.year hvalid hresolved, Books.factor, h.found, Option.elim_some, hr,
    Option.elim_some, (validateEventInput_ok hvalid).2.1]
  rfl

/-- **The index of the reference** is what the chain has accumulated. -/
theorem index (S : Setting host N owners k w₀ tr w b cs x) (phase : b.series.phase = .sealing)
    (done : b.accumulator.cursor = b.series.sealedEventCount) :
    x.currentIndex = .ok (Fraction.ofRat
      ((ofBytes b.accumulator.numerator : ℚ) / ofBytes b.accumulator.denominator)) := by
  have hj := S.history.journaled S.books
  obtain ⟨ids, hids, hproduct⟩ := (S.history.staged S.books phase).total hj done
  have hpositive : ∀ entry ∈ x.journal.entries, entry.2.Positive := by
    intro e he
    obtain ⟨id, input, head, rfl, hhead⟩ := S.entry he
    obtain ⟨clock, hvalid⟩ := hhead.valid
    exact (N.passes hvalid).positive
  let contribution : String → ℚ := fun key =>
    (x.journal.get? key).elim 1 (ExactEvent.factor N.term.year)
  have hentries : (x.journal.entries.map fun e => e.2.factor x.base.term.year) =
      (x.journal.entries.map Prod.fst).map contribution := by
    rw [List.map_map]
    refine List.map_congr_left fun e he => ?_
    simp only [Function.comp, contribution, Record.get?_of_mem he, Option.elim_some,
      S.mirrors.term]
  -- the keys of the reference are the names of the events
  have hkeys : (x.journal.entries.map Prod.fst).toFinset = ids.image N.event := by
    ext key
    rw [List.mem_toFinset, Finset.mem_image]
    constructor
    · intro hkey
      obtain ⟨e, he, rfl⟩ := List.mem_map.mp hkey
      obtain ⟨id, input, head, rfl, hhead⟩ := S.entry he
      exact ⟨id, (hids id).mpr ⟨head, hhead.found⟩, rfl⟩
    · rintro ⟨id, hid, rfl⟩
      obtain ⟨head, hhead⟩ := (hids id).mp hid
      obtain ⟨input, hinput⟩ := Books.exists_latest hj hhead
      have hget := S.mirrors.journal id
      rw [hinput, Option.map_some] at hget
      exact List.mem_map.mpr ⟨_, Record.mem_of_get? hget, rfl⟩
  rw [ExactReferenceModel.currentIndex_eq hpositive, hproduct, hentries,
    ← List.prod_toFinset contribution x.journal.nodup, hkeys,
    Finset.prod_image fun _ _ _ _ heq => S.enrolled.proper.injective heq]
  refine congrArg (fun q => Except.ok (Fraction.ofRat q)) (Finset.prod_congr rfl fun id hid => ?_)
  obtain ⟨head, hhead⟩ := (hids id).mp hid
  obtain ⟨input, hinput⟩ := Books.exists_latest hj hhead
  obtain ⟨head', hhead'⟩ := World.exists_heads S.history.linked S.books hj hinput
  simp only [S.mirrors.journal, hinput, Option.map_some, Option.elim_some]
  exact S.factor phase hhead'

/-- Both sides split the backing the same way. -/
theorem allot (S : Setting host N owners k w₀ tr w b cs x) {ptPool drPool : UInt64}
    (pools : splitPools b.series.nominalBacking b.accumulator.numerator
      b.accumulator.denominator = .ok (ptPool, drPool)) :
    x.base.allot (Fraction.ofRat
      ((ofBytes b.accumulator.numerator : ℚ) / ofBytes b.accumulator.denominator)) =
      { accountableRaw := b.series.nominalBacking.toNat
        index := Fraction.lowest ⟨ofBytes b.accumulator.numerator,
          ofBytes b.accumulator.denominator⟩
        ptPoolRaw := ptPool.toNat
        drPoolRaw := drPool.toNat
        supplyDenominatorRaw := b.series.nominalBacking.toNat } := by
  obtain ⟨-, -, ⟨hn, hd, hle⟩, -, hdr, hsum⟩ := splitPools_eq_ok.mp pools
  generalize ofBytes b.accumulator.numerator = n at *
  generalize ofBytes b.accumulator.denominator = d at *
  have hdpos : (0 : Int) < d := by omega
  have hlowest : Fraction.lowest ⟨n, d⟩ = Fraction.ofRat ((n : ℚ) / d) := by
    rw [Fraction.lowest_eq_ofRat _ hdpos, Int.cast_natCast, Int.cast_natCast]
  have hden := Fraction.denominator_ofRat_pos ((n : ℚ) / d)
  have hcross : (Fraction.ofRat ((n : ℚ) / d)).numerator * (d : Int) =
      (n : Int) * (Fraction.ofRat ((n : ℚ) / d)).denominator := by
    have hvalue := Fraction.value_ofRat ((n : ℚ) / d)
    rw [div_eq_div_iff (by exact_mod_cast hden.ne') (by exact_mod_cast hdpos.ne')] at hvalue
    exact_mod_cast hvalue
  have hvalue : (b.series.nominalBacking.toNat * ((Fraction.ofRat ((n : ℚ) / d)).denominator -
      (Fraction.ofRat ((n : ℚ) / d)).numerator)).tdiv (Fraction.ofRat ((n : ℚ) / d)).denominator =
      (drPool.toNat : Int) := by
    have hfraction : (Fraction.ofRat ((n : ℚ) / d)).numerator ≤
        (Fraction.ofRat ((n : ℚ) / d)).denominator := by
      refine Rat.num_le_denom_iff.mpr ((div_le_one ?_).mpr ?_)
      · exact_mod_cast hdpos
      · exact_mod_cast hle
    rw [Int.tdiv_eq_ediv_of_nonneg (mul_nonneg (Int.natCast_nonneg _) (by omega)),
      lost_share_congr hdpos hden hcross, hdr]
    push_cast [Nat.cast_sub hle]
    rfl
  rw [AnnualReferenceModel.allot]
  have hrest : (b.series.nominalBacking.toNat : Int) - drPool.toNat = ptPool.toNat := by omega
  simp only [S.mirrors.accountable, hvalue, hlowest, hrest]

/-- **The end of a finalization** finalizes the reference, with the same snapshot. -/
theorem complete (S : Setting host N owners k w₀ tr w b cs x) {acc : CompleteFinalizationAccounts}
    (ha : w.act host (.instruction (.completeFinalization acc)) = some w')
    (hb' : w'.books k = some b') : Simulates N owners k w' b' cs
      (calls N k w b b' (.instruction (.completeFinalization acc))) x := by
  have hl := S.history.linked
  have hx : completeFinalization host w acc = .ok w' := Result.toOption_eq_some.mp ha
  have hm := World.complete_moves hl hx
  by_cases hk : acc.series = k
  · subst hk
    have hstep := S.stepped hb' hm
    cases hstep with
    | @complete ptPool drPool slot v phase done covered entitled pools hv =>
      have hopen : b.series.phase ≠ .finalized := by simp [phase]
      have hsnapshot := S.mirrors.snapshot.trans (Books.settled_of_open hopen)
      obtain ⟨-, -, ⟨hn, hd, hle⟩, -⟩ := splitPools_eq_ok.mp pools
      have hmature := Int64.le_iff_toInt_le.mp (S.history.sealable S.books phase).1
      -- A seal asks for every event to be resolved, and nothing is recorded after it.
      have hclosed : ∀ entry ∈ x.journal.entries, entry.2.Closable := by
        intro e he
        obtain ⟨id, input, head, rfl, hhead⟩ := S.entry he
        exact N.closable_record (S.resolved phase hhead)
      have hfinalize := ExactReferenceModel.finalize_ok S.now hsnapshot
        (by rw [S.mirrors.maturity]; exact hmature) hclosed S.mirrors.free
        (by rw [S.mirrors.accountable, S.mirrors.custody]; exact_mod_cast covered)
        (S.index phase done)
      have hpos : (0 : ℚ) < (ofBytes b.accumulator.numerator : ℚ) /
          ofBytes b.accumulator.denominator := by
        have hn' : 0 < ofBytes b.accumulator.numerator := Nat.pos_of_ne_zero hn
        have hd' : 0 < ofBytes b.accumulator.denominator := Nat.pos_of_ne_zero hd
        positivity
      have hkeeps := S.mirrors.inv.closeWith hsnapshot (retained_ofRat hpos (div_le_one_of_le₀
        (by exact_mod_cast hle) (Nat.cast_nonneg _)))
      rw [S.allot pools] at hfinalize hkeeps
      rw [calls, if_pos rfl]
      refine ⟨_, Method.replay_cons.mpr ⟨_, bind_pure_eq_ok.mpr ⟨_, hfinalize, rfl⟩, rfl⟩, ?_⟩
      refine ⟨hkeeps.1, hkeeps.2 S.mirrors.covered, ?_, S.mirrors.accountable, S.mirrors.custody,
        S.mirrors.supply, fun side => ?_, fun owner ho => ?_, S.mirrors.journal, S.mirrors.keys⟩
      · rw [Books.settled_of_final rfl]
        refine Prod.ext S.mirrors.term (Prod.ext S.mirrors.start (Prod.ext S.mirrors.maturity
          (Prod.ext S.mirrors.free rfl)))
      · have hredeemed := S.mirrors.redeemed side
        cases side <;> exact hredeemed
      · obtain ⟨account, hrequire, hcollateral, hnonneg, hclaims⟩ := S.mirrors.accounts owner ho
        refine ⟨account, hrequire, ?_, hnonneg, fun side => ?_⟩
        · rw [credited_append, ← hcollateral]
          exact (Int.add_zero _).symm
        · obtain ⟨n, hn, hclaim⟩ := hclaims side
          obtain ⟨n', hn', hsum⟩ := World.act_owns hl ha hn
          have hsame : n' = n := by exact_mod_cast hsum.trans (Int.add_zero _)
          rw [← hsame] at hclaim
          exact ⟨n', hn', hclaim⟩
  · exact S.elsewhere ha hb' hm hk (if_neg hk) fun _ _ => rfl

/-! ## Everything else -/

/-- An action that is no call: a stage of a finalization, or nothing that concerns the series. -/
theorem unseen (S : Setting host N owners k w₀ tr w b cs x) {a : Action}
    (ha : w.act host a = some w') (hb' : w'.books k = some b') (hnew : calls N k w b b' a = [])
    (hflow : ∀ owner side, a.flow w k owner side = 0)
    (hburn : ∀ side, a.directBurn (claimMintOf k side) = 0)
    (hdonation : a.donation b.series.vault = 0) (hseizure : a.seizure b.series.vault = 0)
    (hstage : ∀ c : Change, c.Names k a → c.isBooked = true → c.isStage = true) :
    Simulates N owners k w' b' cs (calls N k w b b' a) x := by
  obtain ⟨c, b₂, hb₂, hstep, hlabels⟩ := World.act_books S.history.linked ha S.books
  obtain rfl : b' = b₂ := Option.some.inj (hb'.symm.trans hb₂)
  cases hc : c.isBooked with
  | false =>
    exact S.still ha (hstep.eq_of_unbooked hc (fun side => (hlabels.burned side).trans (hburn side))
      (hlabels.donation.trans hdonation) (hlabels.seizure.trans hseizure)) hnew hflow
  | true =>
    have hstaged := hstage c hlabels.names hc
    have hidentity := hstep.identity
    refine S.quiet ha hnew ?_ ?_
    · cases hstep with
      | begin phase _ _ _ =>
        exact .still hidentity
          (Books.settled_eq_of_open (by simp [phase]) (by simp [Series.sealed]))
          rfl rfl rfl (fun side => by cases side <;> rfl) hflow fun _ => rfl
      | accumulate phase _ _ _ _ _ _ _ =>
        exact .still hidentity (Books.settled_eq_of_open (by simp [phase]) (by simp [phase]))
          rfl rfl rfl (fun side => by cases side <;> rfl) hflow fun _ => rfl
      | abort phase _ =>
        exact .still hidentity
          (Books.settled_eq_of_open (by simp [phase]) (by simp [Series.unsealed]))
          rfl rfl rfl (fun side => by cases side <;> rfl) hflow fun _ => rfl
      | _ => cases hstaged
    · cases hstep with
      | begin _ _ _ _ => rfl
      | accumulate _ _ _ _ _ _ _ _ => rfl
      | abort _ _ => rfl
      | _ => cases hstaged

/-- **One step.** Whatever is accepted, the reference takes its calls. -/
theorem step (S : Setting host N owners k w₀ tr w b cs x) {a : Action}
    (ha : w.act host a = some w') (hb' : w'.books k = some b')
    (hseizure : a.seizure b.series.vault = 0)
    (hcap : ∀ owner ∈ owners, credited (cs ++ calls N k w b b' a) (N.account owner) ≤ U64_MAX) :
    Simulates N owners k w' b' cs (calls N k w b b' a) x := by
  cases a with
  | instruction ix =>
    cases ix with
    | deposit acc amount guard => exact S.deposit ha hb'
    | recombine acc amount guard => exact S.recombine ha hb' hcap
    | redeem acc side amount allowZero guard => exact S.redeem ha hb' hcap
    | upsertEvent acc input => exact S.upsertEvent ha hb'
    | completeFinalization acc => exact S.complete ha hb'
    | _ =>
      refine S.unseen ha hb' rfl (fun _ _ => rfl) (fun _ => rfl) rfl rfl fun c hc hbooked => ?_
      cases c <;> simp_all [Change.Names, Change.isBooked, Change.isStage]
  | transfer mint source destination authority amount decimals => exact S.transfer ha hb'
  | burn mint source authority amount => exact S.burn ha hb'
  | donate vault amount => exact S.donate ha hb'
  | _ =>
    refine S.unseen ha hb' rfl (fun _ _ => rfl) (fun _ => rfl) rfl hseizure fun c hc hbooked => ?_
    cases c <;> simp_all [Change.Names, Change.isBooked]

end Setting

end DividendX
