import DividendX.Books

/-!
# The chain runs the books

Every accepted action moves the books of every series by exactly one step of `Books.Step`
(`World.act_books`). Instructions are treated one by one: each touches the accounts of the series
it names and no other, and on that series it is the step of the same name. Everything outside the
program is a burn, a donation, a seizure or nothing.
-/

namespace DividendX

/-- A label says of an action what is counted along histories. -/
structure Change.Labels (c : Change) (a : Action) (k vault : Pubkey) : Prop where
  donation : c.donation = a.donation vault
  seizure : c.seizure = a.seizure vault
  burned : ∀ side, c.burned side = a.directBurn (claimMintOf k side)
  redeemed : ∀ side, c.redeemed side = a.redemption k side
  begins : c.isBegin = a.begins k
  completes : c.isComplete = a.completes k
  booked : c.isBooked = true → a.instruction?.isSome = true
  names : c.Names k a

namespace World

variable {host : Host} {w w' : World} {k : Pubkey} {b : Books} {s s' : Series}

/-! ## What stays as it is -/

/-- Nothing is touched. -/
theorem touches_refl (w : World) (k : Pubkey) : Touches w w k :=
  ⟨fun _ _ => rfl, fun _ _ => rfl, fun _ _ _ => rfl, fun _ _ _ _ => rfl, fun _ _ _ _ => rfl,
    fun _ _ _ => rfl, fun _ _ _ => rfl⟩

/-- The series account is of the series. -/
theorem Touches.putSeries (h : Touches w w' k) (s : Series) : Touches w (w'.putSeries k s) k :=
  { h with series := fun _ hk => (putSeries_series_of_ne hk).trans (h.series _ hk) }

/-- So is its accumulator. -/
theorem Touches.putAccumulator (h : Touches w w' k) (a : Accumulator) :
    Touches w (w'.putAccumulator (.accumulator k) a) k := by
  refine { h with accumulators := fun k' hk => ?_ }
  refine (Function.update_of_ne ?_ ..).trans (h.accumulators k' hk)
  exact fun heq => hk (by injection heq)

/-- So are the heads of its events. -/
theorem Touches.putHead (h : Touches w w' k) (id : Bytes32) (head : EventHead) :
    Touches w (w'.putHead (.event k id) head) k := by
  refine { h with heads := fun k' id' hk => ?_ }
  refine (Function.update_of_ne ?_ ..).trans (h.heads k' id' hk)
  exact fun heq => hk (by injection heq)

/-- And their revisions. -/
theorem Touches.putRevision (h : Touches w w' k) (id : Bytes32) (n : UInt64) (r : EventRevision) :
    Touches w (w'.putRevision (.revision (.event k id) n) r) k := by
  refine { h with revisions := fun k' id' n' hk => ?_ }
  refine (Function.update_of_ne ?_ ..).trans (h.revisions k' id' n' hk)
  intro heq
  injection heq with heq
  exact hk (by injection heq)

/-- A bank that differs at accounts and mints of one series only. -/
theorem touches_setBank {bank : Bank}
    (hbalance : ∀ k' s, k' ≠ k → w.series k' = some s →
      bank.balance s.vault = w.bank.balance s.vault)
    (hsupply : ∀ k' side, k' ≠ k →
      bank.supply (claimMintOf k' side) = w.bank.supply (claimMintOf k' side))
    (hauthority : ∀ k' side, k' ≠ k →
      bank.authority (claimMintOf k' side) = w.bank.authority (claimMintOf k' side)) :
    Touches w (w.setBank bank) k :=
  ⟨fun _ _ => rfl, fun _ _ => rfl, fun _ _ _ => rfl, fun _ _ _ _ => rfl, hbalance, hsupply,
    hauthority⟩

/-- An account owned by a key pair is no vault. -/
theorem Linked.ne_vault (h : w.Linked) (hs : w.series k = some s) {key : Pubkey} {t : TokenAccount}
    {holder : Bytes32} (ht : w.bank.tokens key = some t) (howner : t.owner = .wallet holder) :
    s.vault ≠ key := by
  rintro rfl
  obtain ⟨v, hv, hl⟩ := (h.series hs).vault
  cases ht.symm.trans hv
  have hkey := (h.series hs).key
  rw [← hl.owner, howner] at hkey
  cases hkey

/-- An account of a claim mint is no vault. -/
theorem Linked.ne_vault_of_claim (h : w.Linked) (hs : w.series k = some s) {key : Pubkey}
    {t : TokenAccount} (ht : w.bank.tokens key = some t) (hclaim : t.mint.isClaimMint = true) :
    s.vault ≠ key := by
  rintro rfl
  exact h.holding_vault hs ht hclaim rfl

/-- The claim mints of a series are at its addresses. -/
theorem Linked.claimMint_eq (h : w.Linked) (hs : w.series k = some s) (side : RedeemSide) :
    s.claimMint side = claimMintOf k side := by
  rw [Series.claimMint_identity]
  exact (h.series hs).claimKey side

/-- One step of the books of a series, nothing for all others. -/
structure Moves (host : Host) (w w' : World) (k : Pubkey) (c : Change) : Prop where
  touches : Touches w w' k
  step : ∀ {b}, w.books k = some b → ∃ b', w'.books k = some b' ∧ b.Step host k c b'

/-! ## Instructions, one by one -/

/-- **A deposit** is one on the books. -/
theorem deposit_moves (h : w.Linked) {acc : PairAccounts} {amount : UInt64} {guard : Guard}
    (hx : deposit host w acc amount guard = .ok w') :
    Moves host w w' acc.series (.deposit amount) := by
  obtain ⟨L, hL, hp, b₁, b₂, b₃, h₁, h₂, h₃, nominal, v, hn, hv, rfl⟩ := deposit_eq_ok.mp hx
  have m₁ := Host.invoke_transfer h₁
  have m₂ := Host.invoke_mintTo h₂
  have m₃ := Host.invoke_mintTo h₃
  have hpt : acc.ptMint = claimMintOf acc.series .pt :=
    hp.accounts.ptMint.trans (h.claimMint_eq hL.series .pt)
  have hdr : acc.drMint = claimMintOf acc.series .dr :=
    hp.accounts.drMint.trans (h.claimMint_eq hL.series .dr)
  have hvault := hp.accounts.exit.vault
  obtain ⟨⟨hcv, hcp, hcd⟩, ⟨hvp, hvd⟩, -⟩ :
      (acc.holderCollateral ≠ acc.vault ∧ acc.holderCollateral ≠ acc.holderPt ∧
        acc.holderCollateral ≠ acc.holderDr) ∧
      (acc.vault ≠ acc.holderPt ∧ acc.vault ≠ acc.holderDr) ∧ acc.holderPt ≠ acc.holderDr := by
    simpa using hp.distinct
  -- Another series sees none of the three calls: they write no vault but this one, and mint no
  -- claims but those of this series.
  refine ⟨(touches_setBank ?_ ?_ ?_).putSeries _, fun {b} hb => ?_⟩
  · intro k' s hk hs
    rw [m₃.others _ (h.ne_vault hs hL.holderDr.1.1 hp.holderDr.owner),
      m₂.others _ (h.ne_vault hs hL.holderPt.1.1 hp.holderPt.owner),
      m₁.others _ (h.ne_vault hs hL.holderCollateral.1 hp.holderCollateral.owner)]
    rw [hvault]
    exact fun heq => hk (h.vault_injective hs hL.series heq)
  · intro k' side hk
    have hne : ∀ side', claimMintOf k' side ≠ claimMintOf acc.series side' :=
      fun side' heq => hk (claimMintOf_injective heq).1
    rw [m₃.otherSupplies _ (by rw [hdr]; exact hne .dr),
      m₂.otherSupplies _ (by rw [hpt]; exact hne .pt), m₁.supply]
  · intro k' side hk
    rw [m₃.authorities, m₂.authorities, m₁.authority]
  · obtain ⟨s, a, hs, ha, rfl⟩ := books_eq_some.mp hb
    cases hL.series.symm.trans hs
    refine ⟨_, books_eq_some.mpr ⟨_, a, putSeries_series .., ha, rfl⟩, ?_⟩
    -- Only the transfer writes the vault, and each mint is issued by its own call.
    have hbalance : b₃.balance L.series.vault = w.bank.balance L.series.vault + amount.toNat := by
      rw [← hvault, m₃.others _ hvd, m₂.others _ hvp, m₁.credited hcv]
    have hsupply : ∀ side, b₃.supply (claimMintOf acc.series side) =
        w.bank.supply (claimMintOf acc.series side) + amount.toNat := by
      intro side
      cases side with
      | pt =>
        rw [← hpt, m₃.otherSupplies _ hp.accounts.distinct, m₂.issued, m₁.supply]
      | dr =>
        rw [← hdr, m₃.issued, m₂.otherSupplies _ hp.accounts.distinct.symm, m₁.supply]
    have hauthority : ∀ mint, b₃.authority mint = w.bank.authority mint := by
      intro mint
      rw [m₃.authorities, m₂.authorities, m₁.authority]
    have hstep :=
      @Books.Step.deposit host acc.series (w.view acc.series L.series a) amount nominal v
      hp.positive hp.phase ?_ ?_ ?_ ?_ ?_ hn hv
    · convert hstep using 1
      simp only [view, Books.mk.injEq, true_and]
      exact ⟨rfl, rfl, hbalance, funext hsupply, funext fun side => hauthority _⟩
    all_goals simp only [view]
    · have hj := hp.journal
      simp only [fundingJournalOpen, Bool.and_eq_true, beq_iff_eq] at hj
      exact hj.1
    · have hj := hp.journal
      simp only [fundingJournalOpen, Bool.and_eq_true, beq_iff_eq] at hj
      exact hj.2
    · rw [← hvault, Bank.balance_eq hL.vault.1]
      exact UInt64.le_iff_toNat_le.mp hp.covered
    · rw [← hvault]
      exact m₁.fits hcv
    · intro side
      cases side with
      | pt => rw [← hpt, Bank.authority_eq hL.ptMint.1.1, hp.ptMint.mintAuthority]
      | dr => rw [← hdr, Bank.authority_eq hL.drMint.1.1, hp.drMint.mintAuthority]

/-- **A recombination** is one on the books. -/
theorem recombine_moves (h : w.Linked) {acc : PairAccounts} {amount : UInt64} {guard : Guard}
    (hx : recombine host w acc amount guard = .ok w') :
    Moves host w w' acc.series (.recombine amount) := by
  obtain ⟨L, hL, hp, b₁, b₂, b₃, h₁, h₂, h₃, nominal, v, hn, hv, rfl⟩ := recombine_eq_ok.mp hx
  have m₁ := Host.invoke_burn h₁
  have m₂ := Host.invoke_burn h₂
  have m₃ := Host.invoke_transfer h₃
  have hpt : acc.ptMint = claimMintOf acc.series .pt :=
    hp.accounts.ptMint.trans (h.claimMint_eq hL.series .pt)
  have hdr : acc.drMint = claimMintOf acc.series .dr :=
    hp.accounts.drMint.trans (h.claimMint_eq hL.series .dr)
  have hvault := hp.accounts.exit.vault
  -- The holder's accounts are the holder's, and a vault is the program's.
  have hvp : acc.vault ≠ acc.holderPt := by
    rw [hvault]
    exact h.ne_vault hL.series hL.holderPt.1.1 hp.holderPt.owner
  have hvd : acc.vault ≠ acc.holderDr := by
    rw [hvault]
    exact h.ne_vault hL.series hL.holderDr.1.1 hp.holderDr.owner
  have hvc : acc.vault ≠ acc.holderCollateral := by
    rw [hvault]
    exact h.ne_vault hL.series hL.holderCollateral.1 hp.holderCollateral.owner
  refine ⟨(touches_setBank ?_ ?_ ?_).putSeries _, fun {b} hb => ?_⟩
  · intro k' s hk hs
    have hother : s.vault ≠ acc.vault := by
      rw [hvault]
      exact fun heq => hk (h.vault_injective hs hL.series heq)
    rw [m₃.others _ hother (h.ne_vault hs hL.holderCollateral.1 hp.holderCollateral.owner),
      m₂.others _ (h.ne_vault hs hL.holderDr.1.1 hp.holderDr.owner),
      m₁.others _ (h.ne_vault hs hL.holderPt.1.1 hp.holderPt.owner)]
  · intro k' side hk
    have hne : ∀ side', claimMintOf k' side ≠ claimMintOf acc.series side' :=
      fun side' heq => hk (claimMintOf_injective heq).1
    rw [m₃.supply, m₂.otherSupplies _ (by rw [hdr]; exact hne .dr),
      m₁.otherSupplies _ (by rw [hpt]; exact hne .pt)]
  · intro k' side hk
    rw [m₃.authority, m₂.authorities, m₁.authorities]
  · obtain ⟨s, a, hs, ha, rfl⟩ := books_eq_some.mp hb
    cases hL.series.symm.trans hs
    refine ⟨_, books_eq_some.mpr ⟨_, a, putSeries_series .., ha, rfl⟩, ?_⟩
    have hbalance : b₃.balance L.series.vault + amount.toNat = w.bank.balance L.series.vault := by
      rw [← hvault, m₃.debited hvc, m₂.others _ hvd, m₁.others _ hvp]
    have hsupply : ∀ side, b₃.supply (claimMintOf acc.series side) + amount.toNat =
        w.bank.supply (claimMintOf acc.series side) := by
      intro side
      cases side with
      | pt => rw [← hpt, m₃.supply, m₂.otherSupplies _ hp.accounts.distinct, m₁.burned]
      | dr => rw [← hdr, m₃.supply, m₂.burned, m₁.otherSupplies _ hp.accounts.distinct.symm]
    have hauthority : ∀ mint, b₃.authority mint = w.bank.authority mint := by
      intro mint
      rw [m₃.authority, m₂.authorities, m₁.authorities]
    have hstep := @Books.Step.recombine host acc.series
      (w.view acc.series L.series a) amount nominal
      v _ _ hp.positive hp.phase ?_ hn hv hsupply hbalance
    · convert hstep using 1
      simp only [view, Books.mk.injEq, true_and]
      exact ⟨rfl, rfl, rfl, rfl, funext fun side => hauthority _⟩
    · simp only [view]
      rw [← hvault, Bank.balance_eq hL.vault.1]
      exact UInt64.le_iff_toNat_le.mp hp.covered

/-- Under the links a missing head and a zeroed one are the same. -/
theorem Linked.head_none (h : w.Linked) {id : Bytes32} (hs : w.series k = some s)
    (hdefault : ((w.heads (.event k id)).getD .zeroed).series = .default) :
    w.heads (.event k id) = none := by
  cases hh : w.heads (.event k id) with
  | none => rfl
  | some head =>
    rw [hh] at hdefault
    have hkey := (h.heads hh).1
    injection hkey with hkey
    have hseries := (h.series hs).key
    rw [hkey] at hseries
    cases hdefault.symm.trans hseries

/-- Under the links a revision that was never numbered does not exist. -/
theorem Linked.revision_none (h : w.Linked) {key : Pubkey}
    (hunused : ((w.revisions key).getD .zeroed).revision = 0) : w.revisions key = none := by
  cases hr : w.revisions key with
  | none => rfl
  | some r =>
    rw [hr] at hunused
    exact absurd hunused (h.revisions hr).2.1

/-- A record that is written is one on the books. -/
theorem recorded_moves (h : w.Linked) {acc : UpsertEventAccounts} {input : EventInput}
    {p : AssetPolicy} {resolved inYear isNew : Bool} {head : EventHead}
    (hpass : UpsertPasses w acc input p s resolved inYear)
    (hr : Recorded host w acc.series s input resolved inYear head isNew s' w') :
    Moves host w w' acc.series (.record input) := by
  rw [hr.written]
  refine ⟨(((touches_refl w acc.series).putRevision _ _ _).putHead _ _).putSeries _,
    fun {b} hb => ?_⟩
  obtain ⟨t, a, hs, ha, rfl⟩ := books_eq_some.mp hb
  cases hpass.series.symm.trans hs
  obtain ⟨s₁, hcount, jv, v, hjv, hv, rfl⟩ := hr.series
  -- the flag `head_is_new` says that there is no head
  have hnew : isNew = (w.heads (.event acc.series input.eventId)).isNone := by
    cases isNew with
    | true =>
      have hnone := h.head_none hs (by rw [hr.loaded]; exact (hr.new rfl).1)
      rw [hnone]
      rfl
    | false =>
      cases hh : w.heads (.event acc.series input.eventId) with
      | none =>
        have hd := (hr.revised rfl).2.2.1
        rw [← hr.loaded, hh] at hd
        exact absurd rfl hd
      | some head' => rfl
  have hhead : head = (w.heads (.event acc.series input.eventId)).getD .zeroed := hr.loaded.symm
  refine ⟨_, books_eq_some.mpr ⟨_, a, putSeries_series .., ha, rfl⟩, ?_⟩
  have hstep := @Books.Step.record host acc.series (w.view acc.series s a) input resolved inYear s₁
    jv v hpass.phase hpass.revision ⟨_, hpass.valid⟩ ?_ ?_ ?_ ?_ hjv hv
  · convert hstep using 1
    have hseries : w.bank.balance s₁.vault = w.bank.balance s.vault := by
      have hid := congrArg Identity.vault (identity_of_updateCounters hcount)
      rw [show s₁.vault = s.vault from hid]
    simp only [view, Books.mk.injEq, Books.headOf, Books.isNew, ← hhead, ← hnew, true_and]
    refine ⟨funext fun id => ?_, funext fun id => funext fun n => ?_, hseries, rfl, rfl⟩
    · by_cases hid : id = input.eventId
      · subst hid
        rw [Function.update_self]
        exact Function.update_self ..
      · rw [Function.update_of_ne hid]
        exact Function.update_of_ne (fun heq => hid (by injection heq)) ..
    · rw [Books.putRevision]
      by_cases hid : id = input.eventId
      · subst hid
        rw [Function.update_self]
        by_cases hn : n = input.revision
        · subst hn
          rw [Function.update_self]
          exact Function.update_self ..
        · rw [Function.update_of_ne hn]
          exact Function.update_of_ne (fun heq => hn (by injection heq)) ..
      · rw [Function.update_of_ne hid]
        refine Function.update_of_ne (fun heq => ?_) ..
        injection heq with heq
        exact hid (by injection heq)
  · intro head' hh
    cases isNew with
    | true =>
      simp only [view] at hh
      rw [hh] at hnew
      cases hnew
    | false =>
      have hlt := (hr.revised rfl).2.2.2
      simp only [view] at hh
      rw [hhead, hh] at hlt
      exact hlt
  · intro hh
    simp only [view] at hh
    rw [hh] at hnew
    exact (hr.new hnew).2
  · exact h.revision_none hr.unused
  · simp only [Books.headOf, Books.isNew, view, ← hhead, ← hnew]
    exact hcount

/-- **The begin of a finalization** is one on the books. -/
theorem begin_moves {acc : BeginFinalizationAccounts} {version : UInt64} {hash coverage : Bytes32}
    (hx : beginFinalization host w acc version hash coverage = .ok w') :
    Moves host w w' acc.series .begin := by
  obtain ⟨L, profile, hL, hp, v, hv, rfl⟩ := beginFinalization_eq_ok.mp hx
  rw [hL.seeds, ← hp.journal.1, ← hp.journal.2]
  refine ⟨((touches_refl w acc.series).putSeries _).putAccumulator _, fun {b} hb => ?_⟩
  obtain ⟨s, a, hs, ha, rfl⟩ := books_eq_some.mp hb
  have hLa := hL.loadedAccumulator
  rw [hL.seeds] at hLa
  cases hL.loadedSeries.symm.trans hs
  cases hLa.symm.trans ha
  refine ⟨_, books_eq_some.mpr ⟨_, _, putSeries_series .., Function.update_self .., rfl⟩, ?_⟩
  refine Books.Step.begin hp.phase hp.resolved ?_ hv
  simp only [view]
  rw [← hp.accounts.exit.vault, Bank.balance_eq hL.loadedVault.1]
  exact UInt64.le_iff_toNat_le.mp hp.covered

/-- **An accumulation** is one on the books. -/
theorem accumulate_moves (h : w.Linked) {acc : AccumulateEventAccounts}
    (hx : accumulateEvent w acc = .ok w') :
    ∃ id, Moves host w w' acc.series (.accumulate id) := by
  obtain ⟨s, a, head, r, hp, numerator, denominator, hfactor, cursor, v, hc, hv, rfl⟩ :=
    accumulateEvent_eq_ok.mp hx
  have hhead : acc.eventHead = .event acc.series head.eventId := by
    rw [← hp.headSeries]
    exact (h.heads hp.loadedHead).1
  have hrevision :
      acc.revision = .revision (.event acc.series head.eventId) head.latestRevision := by
    rw [← hhead, ← hp.revisionHead, ← hp.latest.1]
    exact (h.revisions hp.loadedRevision).1
  refine ⟨head.eventId, ?_⟩
  rw [hp.seeds]
  refine ⟨((touches_refl w acc.series).putSeries _).putAccumulator _, fun {b} hb => ?_⟩
  obtain ⟨t, c, hs, ha, rfl⟩ := books_eq_some.mp hb
  have hpa := hp.accumulator
  rw [hp.seeds] at hpa
  cases hp.series.symm.trans hs
  cases hpa.symm.trans ha
  refine ⟨_, books_eq_some.mpr ⟨_, _, putSeries_series .., Function.update_self .., rfl⟩, ?_⟩
  refine Books.Step.accumulate hp.phase hp.pending ?_ hp.index ?_ hfactor hc hv
  · simp only [view]
    rw [← hhead]
    exact hp.loadedHead
  · simp only [view]
    rw [← hrevision]
    exact hp.loadedRevision

/-- **The end of a finalization** is one on the books. -/
theorem complete_moves (h : w.Linked) {acc : CompleteFinalizationAccounts}
    (hx : completeFinalization host w acc = .ok w') :
    Moves host w w' acc.series .complete := by
  obtain ⟨L, hL, hp, ptPool, drPool, hsplit, b₁, b₂, h₁, h₂, v, hv, rfl⟩ :=
    completeFinalization_eq_ok.mp hx
  have m₁ := Host.invoke_revoke h₁
  have m₂ := Host.invoke_revoke h₂
  have hpt : acc.ptMint = claimMintOf acc.series .pt :=
    hp.accounts.ptMint.trans (h.claimMint_eq hL.loadedSeries .pt)
  have hdr : acc.drMint = claimMintOf acc.series .dr :=
    hp.accounts.drMint.trans (h.claimMint_eq hL.loadedSeries .dr)
  refine ⟨(touches_setBank ?_ ?_ ?_).putSeries _, fun {b} hb => ?_⟩
  · intro k' s _ _
    rw [m₂.balance, m₁.balance]
  · intro k' side _
    rw [m₂.supply, m₁.supply]
  · intro k' side hk
    have hne : ∀ side', claimMintOf k' side ≠ claimMintOf acc.series side' :=
      fun side' heq => hk (claimMintOf_injective heq).1
    rw [m₂.otherAuthorities _ (by rw [hdr]; exact hne .dr),
      m₁.otherAuthorities _ (by rw [hpt]; exact hne .pt)]
  · obtain ⟨s, a, hs, ha, rfl⟩ := books_eq_some.mp hb
    have hLa := hL.loadedAccumulator
    rw [hL.seeds] at hLa
    cases hL.loadedSeries.symm.trans hs
    cases hLa.symm.trans ha
    refine ⟨_, books_eq_some.mpr ⟨_, _, putSeries_series .., ha, rfl⟩, ?_⟩
    have hauthority : ∀ side, b₂.authority (claimMintOf acc.series side) = none := by
      intro side
      cases side with
      | pt => rw [← hpt, m₂.otherAuthorities _ hp.accounts.distinct, m₁.revoked]
      | dr => rw [← hdr, m₂.revoked]
    have hstep := @Books.Step.complete host acc.series (w.view acc.series L.series L.accumulator)
      ptPool drPool w.clock.slot v hp.phase hp.done ?_ ?_ hsplit hv
    · convert hstep using 1
      simp only [view, Books.mk.injEq, true_and]
      refine ⟨rfl, rfl, ?_, funext fun side => ?_, funext hauthority⟩
      · exact (m₂.balance _).trans (m₁.balance _)
      · exact (m₂.supply _).trans (m₁.supply _)
    · simp only [view]
      rw [← hp.accounts.exit.vault, Bank.balance_eq hL.loadedVault.1]
      exact UInt64.le_iff_toNat_le.mp hp.covered
    · intro side
      simp only [view]
      cases side with
      | pt => rw [← hpt, Bank.authority_eq hL.pt.1.1, hp.ptMint.mintAuthority]
      | dr => rw [← hdr, Bank.authority_eq hL.dr.1.1, hp.drMint.mintAuthority]

/-- **An abort** is one on the books. -/
theorem abort_moves {acc : AbortFinalizationAccounts} {reason : Bytes32}
    (hx : abortFinalization w acc reason = .ok w') : Moves host w w' acc.series .abort := by
  obtain ⟨s, a, hs, ha, -, hphase, v, hv, rfl⟩ := abortFinalization_ok hx
  refine ⟨((touches_refl w acc.series).putSeries _).putAccumulator _, fun {b} hb => ?_⟩
  obtain ⟨t, c, hs', ha', rfl⟩ := books_eq_some.mp hb
  cases hs.symm.trans hs'
  cases ha.symm.trans ha'
  refine ⟨_, books_eq_some.mpr ⟨_, _, putSeries_series .., Function.update_self .., rfl⟩, ?_⟩
  exact Books.Step.abort hphase hv

/-- **A redemption** is one on the books. -/
theorem redeem_moves (h : w.Linked) {acc : RedeemAccounts} {side : RedeemSide} {amount : UInt64}
    {allowZero : Bool} {guard : Guard}
    (hx : redeem host w acc side amount allowZero guard = .ok w') :
    ∃ payout, Moves host w w' acc.series (.redeem side amount payout) := by
  obtain ⟨L, payout, hL, hp, b₁, b₂, h₁, h₂, redeemed, paid, v, hr, hpaid, hv, rfl⟩ :=
    redeem_eq_ok.mp hx
  have m₁ := Host.invoke_burn h₁
  have hmint : acc.claimMint = claimMintOf acc.series side :=
    hp.claimMint.trans (h.claimMint_eq hL.series side)
  have hvault := hp.accounts.vault
  have hvc : acc.vault ≠ acc.holderCollateral := by
    rw [hvault]
    exact h.ne_vault hL.series hL.holderCollateral.1 hp.holderCollateral.owner
  have hvh : acc.vault ≠ acc.holderClaim := by
    rw [hvault]
    exact h.ne_vault hL.series hL.holderClaim.1.1 hp.holderClaim.owner
  -- the payout, when there is one, leaves the vault
  obtain ⟨hdebit, hrest, hsupply, hauthority⟩ : b₂.balance acc.vault + payout.toNat =
      b₁.balance acc.vault ∧
      (∀ key, key ≠ acc.vault → key ≠ acc.holderCollateral → b₂.balance key = b₁.balance key) ∧
      (∀ mint, b₂.supply mint = b₁.supply mint) ∧
      ∀ mint, b₂.authority mint = b₁.authority mint := by
    split at h₂
    · have m₂ := Host.invoke_transfer h₂
      exact ⟨m₂.debited hvc, m₂.others, m₂.supply, m₂.authority⟩
    · rename_i hzero
      rw [Result.pure_eq_ok] at h₂
      subst h₂
      rw [UInt64.lt_iff_toNat_lt] at hzero
      have h0 : payout.toNat = 0 := by
        have : (0 : UInt64).toNat = 0 := rfl
        omega
      rw [h0]
      exact ⟨rfl, fun _ _ _ => rfl, fun _ => rfl, fun _ => rfl⟩
  refine ⟨payout, (touches_setBank ?_ ?_ ?_).putSeries _, fun {b} hb => ?_⟩
  · intro k' s hk hs
    have hother : s.vault ≠ acc.vault := by
      rw [hvault]
      exact fun heq => hk (h.vault_injective hs hL.series heq)
    rw [hrest _ hother (h.ne_vault hs hL.holderCollateral.1 hp.holderCollateral.owner),
      m₁.others _ (h.ne_vault hs hL.holderClaim.1.1 hp.holderClaim.owner)]
  · intro k' side' hk
    rw [hsupply, m₁.otherSupplies]
    rw [hmint]
    exact fun heq => hk (claimMintOf_injective heq).1
  · intro k' side' _
    rw [hauthority, m₁.authorities]
  · obtain ⟨s, a, hs, ha, rfl⟩ := books_eq_some.mp hb
    cases hL.series.symm.trans hs
    refine ⟨_, books_eq_some.mpr ⟨_, a, putSeries_series .., ha, rfl⟩, ?_⟩
    obtain ⟨obligations, ho, hcov⟩ := hp.covered
    have hstep := @Books.Step.redeem host acc.series (w.view acc.series L.series a) side amount
      payout redeemed paid v (b₂.supply (claimMintOf acc.series side)) (b₂.balance L.series.vault)
      hp.positive hp.phase hp.priced ?_ hr hpaid hv ?_ ?_
    · convert hstep using 1
      simp only [view, Books.mk.injEq, true_and]
      refine ⟨rfl, rfl, ?_, funext fun side' => ?_, funext fun side' => ?_⟩
      · cases side <;> rfl
      · by_cases hside : side' = side
        · subst hside
          rw [Function.update_self]
          rfl
        · rw [Function.update_of_ne hside]
          refine (hsupply _).trans (m₁.otherSupplies _ ?_)
          rw [hmint]
          exact fun heq => hside (claimMintOf_injective heq).2
      · exact (hauthority _).trans (m₁.authorities _)
    · refine ⟨obligations, ho, ?_⟩
      simp only [view]
      rw [← hvault, Bank.balance_eq hL.vault.1]
      exact UInt64.le_iff_toNat_le.mp hcov
    · simp only [view]
      rw [hsupply, ← hmint, m₁.burned]
    · simp only [view]
      rw [← hvault, hdebit, m₁.others _ hvh]

/-- A new series touches nothing but itself. -/
theorem created_touches {acc : CreateSeriesAccounts} {year : UInt16} {p : AssetPolicy}
    (h : w.Linked) (hc : SeriesCreated host w acc year p s w') :
    Touches w w' (.series acc.assetPolicy year) := by
  rw [hc.written]
  refine { ((touches_refl w _).putSeries _).putAccumulator _ with
    balance := fun k' s' hk hs => ?_, supply := fun k' side hk => ?_,
    authority := fun k' side hk => ?_ }
  · have hne : s'.vault ≠ .ata (.series acc.assetPolicy year) acc.collateralMint := by
      rw [show s'.vault = .ata k' s'.collateralMint from (h.series hs).vaultKey]
      exact fun heq => hk (by injection heq)
    exact congrArg (fun o : Option TokenAccount => o.elim 0 fun t => t.amount.toNat)
      (Function.update_of_ne hne ..)
  · have hother : createdMints w.bank.mints (.series acc.assetPolicy year) p.decimals
        (claimMintOf k' side) = w.bank.mints (claimMintOf k' side) :=
      createdMints_other fun side' heq => hk (claimMintOf_injective heq).1
    exact congrArg (fun o => Option.elim o 0 fun m => m.supply.toNat) hother
  · have hother : createdMints w.bank.mints (.series acc.assetPolicy year) p.decimals
        (claimMintOf k' side) = w.bank.mints (claimMintOf k' side) :=
      createdMints_other fun side' heq => hk (claimMintOf_injective heq).1
    exact congrArg (fun o => Option.bind o Mint.mintAuthority) hother

/-- And has empty books. -/
theorem created_fresh {acc : CreateSeriesAccounts} {year : UInt16} {p : AssetPolicy}
    (h : w.Linked) (hc : SeriesCreated host w acc year p s w') :
    ∃ b, w'.books (.series acc.assetPolicy year) = some b ∧
      b.Fresh host (.series acc.assetPolicy year) := by
  obtain ⟨start, maturity, profile, -, -, -, hfresh⟩ := hc.fresh
  have hnone := hc.noSeries
  rw [hc.written]
  generalize hk : Pubkey.series acc.assetPolicy year = k at hnone hfresh ⊢
  have hheads : ∀ id, w.heads (.event k id) = none := by
    intro id
    cases hh : w.heads (.event k id) with
    | none => rfl
    | some head =>
      obtain ⟨hkey, s, hs⟩ := h.heads hh
      injection hkey with hkey
      rw [← hkey, hnone] at hs
      cases hs
  refine ⟨_,
    books_eq_some.mpr ⟨s, ⟨k, 0, [1], [1]⟩, Function.update_self .., Function.update_self ..,
    rfl⟩, ⟨_, _, _, start, maturity, _, profile, hfresh⟩, rfl, hheads, fun id n => ?_, ?_,
    fun side => ?_, fun side => ?_⟩
  · cases hr : w.revisions (.revision (.event k id) n) with
    | none => exact hr
    | some r =>
      obtain ⟨hkey, -, head, hh, -⟩ := h.revisions hr
      injection hkey with hkey
      rw [← hkey, hheads] at hh
      cases hh
  · have hv : Function.update w.bank.tokens (.ata k acc.collateralMint)
        (some (freshVault k acc.collateralMint)) (.ata k acc.collateralMint) =
        some (freshVault k acc.collateralMint) := Function.update_self ..
    rw [hfresh]
    exact congrArg (fun o : Option TokenAccount => o.elim 0 fun t => t.amount.toNat) hv
  · exact congrArg (fun o => Option.elim o 0 fun m => m.supply.toNat)
      (createdMints_claim w.bank.mints k p.decimals side)
  · exact congrArg (fun o => Option.bind o Mint.mintAuthority)
      (createdMints_claim w.bank.mints k p.decimals side)

/-! ## Every action -/

/-- Same accounts of the program and same numbers: same books. -/
theorem books_of_same (hb : w.books k = some b) (hseries : w'.series = w.series)
    (hacc : w'.accumulators = w.accumulators) (hheads : w'.heads = w.heads)
    (hrevisions : w'.revisions = w.revisions) (hbank : w'.bank = w.bank) : w'.books k = some b := by
  obtain ⟨s, a, hs, ha, rfl⟩ := books_eq_some.mp hb
  refine books_eq_some.mpr ⟨s, a, by rw [hseries]; exact hs, by rw [hacc]; exact ha, ?_⟩
  simp only [view, hheads, hrevisions, hbank]

/-- Another bank, other balances and supplies. -/
theorem books_setBank {bank : Bank} (hb : w.books k = some b) :
    (w.setBank bank).books k = some { b with
      vault := bank.balance b.series.vault
      supply := fun side => bank.supply (claimMintOf k side)
      authority := fun side => bank.authority (claimMintOf k side) } := by
  obtain ⟨s, a, hs, ha, rfl⟩ := books_eq_some.mp hb
  exact books_eq_some.mpr ⟨s, a, hs, ha, rfl⟩

/-- A bank with the same numbers for this series. -/
theorem books_setBank_same {bank : Bank} (hb : w.books k = some b)
    (hbalance : bank.balance b.series.vault = w.bank.balance b.series.vault)
    (hsupply : ∀ side, bank.supply (claimMintOf k side) = w.bank.supply (claimMintOf k side))
    (hauthority : ∀ side,
      bank.authority (claimMintOf k side) = w.bank.authority (claimMintOf k side)) :
    (w.setBank bank).books k = some b := by
  rw [books_setBank hb, hbalance, funext hsupply, funext hauthority]
  obtain ⟨s, a, -, -, rfl⟩ := books_eq_some.mp hb
  rfl

theorem books_series (hb : w.books k = some b) : w.series k = some b.series := by
  obtain ⟨s, a, hs, -, rfl⟩ := books_eq_some.mp hb
  exact hs

theorem books_vault (hb : w.books k = some b) : b.vault = w.bank.balance b.series.vault := by
  obtain ⟨s, a, -, -, rfl⟩ := books_eq_some.mp hb
  rfl

theorem books_supply (hb : w.books k = some b) (side : RedeemSide) :
    b.supply side = w.bank.supply (claimMintOf k side) := by
  obtain ⟨s, a, -, -, rfl⟩ := books_eq_some.mp hb
  rfl

theorem books_authority (hb : w.books k = some b) (side : RedeemSide) :
    b.authority side = w.bank.authority (claimMintOf k side) := by
  obtain ⟨s, a, -, -, rfl⟩ := books_eq_some.mp hb
  rfl

/-- The books of `k` move by a step labelled after the action. -/
def BooksMove (host : Host) (b : Books) (w' : World) (k : Pubkey) (a : Action) : Prop :=
  ∃ c b', w'.books k = some b' ∧ b.Step host k c b' ∧ c.Labels a k b.series.vault

/-- What moves the books of one series leaves those of the others idle. -/
theorem Moves.booksMove {k₀ : Pubkey} {c : Change} {a : Action} (hm : Moves host w w' k₀ c)
    (hb : w.books k = some b) (hsame : k = k₀ → c.Labels a k b.series.vault)
    (hother : k ≠ k₀ → Change.idle.Labels a k b.series.vault) : BooksMove host b w' k a := by
  by_cases hk : k = k₀
  · subst hk
    obtain ⟨b', hb', hstep⟩ := hm.step hb
    exact ⟨c, b', hb', hstep, hsame rfl⟩
  · exact ⟨.idle, b, hm.touches.books hk hb, .idle, hother hk⟩

/-- Nothing happens on the books. -/
theorem booksMove_idle {a : Action} (hb : w'.books k = some b)
    (hl : Change.idle.Labels a k b.series.vault) : BooksMove host b w' k a :=
  ⟨.idle, b, hb, .idle, hl⟩

/-- An instruction that counts for nothing but itself. -/
theorem labels_plain {c : Change} {ix : Instruction} {vault : Pubkey}
    (hd : c.donation = 0) (hs : c.seizure = 0) (hb : ∀ side, c.burned side = 0)
    (hr : ∀ side, c.redeemed side = (Action.instruction ix).redemption k side)
    (hbegin : c.isBegin = (Action.instruction ix).begins k)
    (hcomplete : c.isComplete = (Action.instruction ix).completes k)
    (hnames : c.Names k (.instruction ix)) : c.Labels (.instruction ix) k vault :=
  ⟨hd, hs, hb, hr, hbegin, hcomplete, fun _ => rfl, hnames⟩

/-- **An instruction** moves the books of one series. -/
theorem execute_books (h : w.Linked) {ix : Instruction} (hx : w.execute host ix = .ok w')
    (hb : w.books k = some b) : BooksMove host b w' k (.instruction ix) := by
  cases ix with
  | initializeConfig upgradeAuthority domain =>
    obtain ⟨config, rfl⟩ := initializeConfig_ok hx
    exact booksMove_idle (books_of_same hb rfl rfl rfl rfl rfl)
      (labels_plain rfl rfl (fun _ => rfl) (fun _ => rfl) rfl rfl trivial)
  | registerAsset acc issuerId symbol attestor policyDigest =>
    obtain ⟨p, m, -, -, -, -, -, -, rfl⟩ := registerAsset_ok hx
    exact booksMove_idle (books_of_same hb rfl rfl rfl rfl rfl)
      (labels_plain rfl rfl (fun _ => rfl) (fun _ => rfl) rfl rfl trivial)
  | setAssetAdmission acc enabled =>
    obtain ⟨p, p', -, -, rfl⟩ := setAssetAdmission_ok hx
    exact booksMove_idle (books_of_same hb rfl rfl rfl rfl rfl)
      (labels_plain rfl rfl (fun _ => rfl) (fun _ => rfl) rfl rfl trivial)
  | refreshObservation acc evidence validUntil =>
    obtain ⟨p, p', -, -, rfl⟩ := refreshObservation_ok hx
    exact booksMove_idle (books_of_same hb rfl rfl rfl rfl rfl)
      (labels_plain rfl rfl (fun _ => rfl) (fun _ => rfl) rfl rfl trivial)
  | createSeries acc year =>
    obtain ⟨p, s, hc⟩ := createSeries_ok hx
    -- A series that has books is there already, so it is not the one created.
    have hk : k ≠ .series acc.assetPolicy year := by
      rintro rfl
      cases hc.noSeries.symm.trans (books_series hb)
    exact booksMove_idle ((created_touches h hc).books hk hb)
      (labels_plain rfl rfl (fun _ => rfl) (fun _ => rfl) rfl rfl trivial)
  | deposit acc amount guard =>
    exact (deposit_moves h hx).booksMove hb
      (fun heq => labels_plain rfl rfl (fun _ => rfl) (fun _ => rfl) rfl rfl
        ⟨acc, guard, rfl, heq.symm⟩)
      (fun _ => labels_plain rfl rfl (fun _ => rfl) (fun _ => rfl) rfl rfl trivial)
  | recombine acc amount guard =>
    exact (recombine_moves h hx).booksMove hb
      (fun heq => labels_plain rfl rfl (fun _ => rfl) (fun _ => rfl) rfl rfl
        ⟨acc, guard, rfl, heq.symm⟩)
      (fun _ => labels_plain rfl rfl (fun _ => rfl) (fun _ => rfl) rfl rfl trivial)
  | upsertEvent acc input =>
    obtain ⟨p, s, resolved, inYear, hpass, ⟨-, rfl⟩ | ⟨head, isNew, s', hr⟩⟩ := upsertEvent_ok hx
    · -- A replay of the latest record is accepted and writes nothing.
      exact booksMove_idle hb (labels_plain rfl rfl (fun _ => rfl) (fun _ => rfl) rfl rfl trivial)
    · exact (recorded_moves h hpass hr).booksMove hb
        (fun heq => labels_plain rfl rfl (fun _ => rfl) (fun _ => rfl) rfl rfl ⟨acc, rfl, heq.symm⟩)
        (fun _ => labels_plain rfl rfl (fun _ => rfl) (fun _ => rfl) rfl rfl trivial)
  | beginFinalization acc version hash coverage =>
    refine (begin_moves hx).booksMove hb (fun heq => ?_) (fun hne => ?_)
    · exact labels_plain rfl rfl (fun _ => rfl) (fun _ => rfl)
        (by simp [Action.begins, heq, Change.isBegin]) rfl
        ⟨acc, version, hash, coverage, rfl, heq.symm⟩
    · exact labels_plain rfl rfl (fun _ => rfl) (fun _ => rfl)
        (by simp [Action.begins, Change.isBegin, Ne.symm hne]) rfl trivial
  | accumulateEvent acc =>
    obtain ⟨id, hm⟩ := @accumulate_moves host _ _ h _ hx
    exact hm.booksMove hb
      (fun heq => labels_plain rfl rfl (fun _ => rfl) (fun _ => rfl) rfl rfl ⟨acc, rfl, heq.symm⟩)
      (fun _ => labels_plain rfl rfl (fun _ => rfl) (fun _ => rfl) rfl rfl trivial)
  | completeFinalization acc =>
    refine (complete_moves h hx).booksMove hb (fun heq => ?_) (fun hne => ?_)
    · exact labels_plain rfl rfl (fun _ => rfl) (fun _ => rfl) rfl
        (by simp [Action.completes, heq, Change.isComplete]) ⟨acc, rfl, heq.symm⟩
    · exact labels_plain rfl rfl (fun _ => rfl) (fun _ => rfl) rfl
        (by simp [Action.completes, Change.isComplete, Ne.symm hne]) trivial
  | abortFinalization acc reason =>
    exact (abort_moves hx).booksMove hb
      (fun heq => labels_plain rfl rfl (fun _ => rfl) (fun _ => rfl) rfl rfl
        ⟨acc, reason, rfl, heq.symm⟩)
      (fun _ => labels_plain rfl rfl (fun _ => rfl) (fun _ => rfl) rfl rfl trivial)
  | redeem acc side amount allowZero guard =>
    obtain ⟨payout, hm⟩ := redeem_moves h hx
    refine hm.booksMove hb (fun heq => ?_) (fun hne => ?_)
    · exact labels_plain rfl rfl (fun _ => rfl)
        (fun side' => by simp [Action.redemption, Change.redeemed, heq]) rfl rfl
        ⟨acc, allowZero, guard, rfl, heq.symm⟩
    · exact labels_plain rfl rfl (fun _ => rfl)
        (fun side' => by simp [Action.redemption, Change.redeemed, Ne.symm hne]) rfl rfl trivial

/-- What neither donates nor seizes nor burns is idle. -/
theorem labels_idle {a : Action} {vault : Pubkey} (hd : a.donation vault = 0)
    (hs : a.seizure vault = 0) (hb : ∀ side, a.directBurn (claimMintOf k side) = 0)
    (hix : a.instruction? = none) : Change.idle.Labels a k vault := by
  refine ⟨hd.symm, hs.symm, fun side => (hb side).symm, fun side => ?_, ?_, ?_,
    fun h => (by cases h), trivial⟩ <;> cases a <;> first | rfl | cases hix

/-- **The chain runs the books.** Whatever is accepted on chain, the books of every series make one
step, and its label counts what the action counts. -/
theorem act_books (h : w.Linked) {a : Action} (ha : w.act host a = some w')
    (hb : w.books k = some b) : BooksMove host b w' k a := by
  have hs := books_series hb
  cases a with
  | instruction ix =>
    simp only [World.act, Result.toOption_eq_some] at ha
    exact execute_books h ha hb
  | transfer mint source destination authority amount decimals =>
    simp only [World.act, Option.ite_none_right_eq_some, Option.map_eq_some_iff] at ha
    obtain ⟨hclaim, bank, hbank, rfl⟩ := ha
    have m := Host.invoke_transfer (Result.toOption_eq_some.mp hbank)
    obtain ⟨src, hsrc, hsm, -⟩ := m.source
    obtain ⟨dst, hdst, hdm⟩ := m.destination
    -- From outside only claims are transferred, and a vault holds none.
    refine booksMove_idle (books_setBank_same hb ?_ (fun side => m.supply _)
      (fun side => m.authority _)) (labels_idle rfl rfl (fun _ => rfl) rfl)
    exact m.others _ (h.ne_vault_of_claim hs hsrc (by rw [hsm]; exact hclaim))
      (h.ne_vault_of_claim hs hdst (by rw [hdm]; exact hclaim))
  | burn mint source authority amount =>
    simp only [World.act, Option.ite_none_right_eq_some, Option.map_eq_some_iff] at ha
    obtain ⟨hclaim, bank, hbank, rfl⟩ := ha
    have m := Host.invoke_burn (Result.toOption_eq_some.mp hbank)
    obtain ⟨src, hsrc, hsm, -⟩ := m.source
    have hvault := m.others _ (h.ne_vault_of_claim hs hsrc (by rw [hsm]; exact hclaim))
    -- A burn counts for the series whose claims are burned, and for no other.
    by_cases hmint : ∃ side, mint = claimMintOf k side
    · obtain ⟨side, rfl⟩ := hmint
      refine ⟨.burn side amount, _, books_setBank hb, ?_, ?_⟩
      · have hstep := @Books.Step.burn host k b side amount (bank.supply (claimMintOf k side))
          (by rw [books_supply hb]; exact m.burned)
        convert hstep using 1
        simp only [Books.mk.injEq, true_and]
        refine ⟨hvault.trans (books_vault hb).symm, funext fun side' => ?_, funext fun side' =>
          (m.authorities _).trans (books_authority hb side').symm⟩
        by_cases hside : side' = side
        · subst hside
          rw [Function.update_self]
        · rw [Function.update_of_ne hside, books_supply hb]
          exact m.otherSupplies _ fun heq => hside (claimMintOf_injective heq).2
      · refine ⟨rfl, rfl, fun side' => ?_, fun _ => rfl, rfl, rfl, fun h => (by cases h), trivial⟩
        simp only [Change.burned, Action.directBurn]
        by_cases hside : side = side'
        · rw [if_pos hside, if_pos (by rw [hside])]
        · rw [if_neg hside, if_neg fun heq => hside (claimMintOf_injective heq).2]
    · rw [not_exists] at hmint
      refine booksMove_idle (books_setBank_same hb hvault (fun side => m.otherSupplies _ ?_)
        (fun side => m.authorities _)) (labels_idle rfl rfl (fun side => ?_) rfl)
      · exact Ne.symm (hmint side)
      · simp only [Action.directBurn]
        rw [if_neg (hmint side)]
  | «open» key mint owner =>
    simp only [World.act, Option.ite_none_right_eq_some, Bool.and_eq_true,
      Option.isNone_iff_eq_none, Option.some.injEq] at ha
    obtain ⟨⟨⟨-, hnone⟩, -⟩, rfl⟩ := ha
    refine booksMove_idle (books_setBank_same hb ?_ (fun _ => rfl) (fun _ => rfl))
      (labels_idle rfl rfl (fun _ => rfl) rfl)
    have hne : b.series.vault ≠ key := by
      rintro rfl
      obtain ⟨v, hv, -⟩ := (h.series hs).vault
      cases hnone.symm.trans hv
    simp only [Bank.balance, Function.update_of_ne hne]
  | donate vault amount =>
    simp only [World.act] at ha
    split at ha
    · rename_i v hv
      simp only [Option.ite_none_right_eq_some, Bool.and_eq_true, decide_eq_true_eq,
        Option.some.injEq] at ha
      obtain ⟨⟨-, hfit⟩, rfl⟩ := ha
      by_cases hvault : vault = b.series.vault
      · subst hvault
        refine ⟨.donate amount, _, books_setBank hb, ?_, ?_⟩
        · have hstep := @Books.Step.donate host k b amount
            (by rw [books_vault hb, Bank.balance_eq hv]; exact hfit)
          convert hstep using 1
          simp only [Books.mk.injEq, true_and]
          refine ⟨?_, funext fun side => (books_supply hb side).symm, funext fun side =>
            (books_authority hb side).symm⟩
          rw [books_vault hb]
          exact Bank.balance_credit hv hfit
        · exact ⟨by simp [Change.donation, Action.donation], rfl, fun _ => rfl, fun _ => rfl, rfl,
            rfl, fun h => (by cases h), trivial⟩
      · refine booksMove_idle (books_setBank_same hb ?_ (fun _ => rfl) (fun _ => rfl))
          (labels_idle (by simp [Action.donation, hvault]) rfl (fun _ => rfl) rfl)
        exact Bank.balance_modifyToken_of_ne (Ne.symm hvault)
    · cases ha
  | seize vault amount =>
    simp only [World.act] at ha
    split at ha
    · rename_i v hv
      simp only [Option.ite_none_right_eq_some, Bool.and_eq_true, decide_eq_true_eq,
        Option.some.injEq] at ha
      obtain ⟨⟨-, hle⟩, rfl⟩ := ha
      by_cases hvault : vault = b.series.vault
      · subst hvault
        refine ⟨.seize amount, _, books_setBank hb, ?_, ?_⟩
        · have hstep := @Books.Step.seize host k b amount
            ((w.bank.debit b.series.vault amount).balance b.series.vault)
            (by rw [books_vault hb]; exact Bank.balance_debit hv hle)
          convert hstep using 1
          simp only [Books.mk.injEq, true_and]
          exact ⟨funext fun side => (books_supply hb side).symm, funext fun side =>
            (books_authority hb side).symm⟩
        · exact ⟨rfl, by simp [Change.seizure, Action.seizure], fun _ => rfl, fun _ => rfl, rfl,
            rfl, fun h => (by cases h), trivial⟩
      · refine booksMove_idle (books_setBank_same hb ?_ (fun _ => rfl) (fun _ => rfl))
          (labels_idle rfl (by simp [Action.seizure, hvault]) (fun _ => rfl) rfl)
        exact Bank.balance_modifyToken_of_ne (Ne.symm hvault)
    · cases ha
  | setFrozen vault frozen =>
    simp only [World.act, Option.ite_none_right_eq_some, Option.some.injEq] at ha
    obtain ⟨-, rfl⟩ := ha
    refine booksMove_idle (books_setBank_same hb ?_ (fun _ => rfl) (fun _ => rfl))
      (labels_idle rfl rfl (fun _ => rfl) rfl)
    by_cases hvault : b.series.vault = vault
    · obtain ⟨v, hv, -⟩ := (h.series hs).vault
      have hv' : w.bank.tokens b.series.vault = some v := hv
      rw [← hvault, Bank.balance_eq (Bank.modifyToken_self hv'), Bank.balance_eq hv']
    · exact Bank.balance_modifyToken_of_ne hvault
  | foreignToken key account =>
    simp only [World.act, Option.ite_none_right_eq_some, Bool.and_eq_true, Bool.not_eq_true',
      Option.some.injEq] at ha
    obtain ⟨⟨⟨hvault, -⟩, -⟩, rfl⟩ := ha
    refine booksMove_idle (books_setBank_same hb ?_ (fun _ => rfl) (fun _ => rfl))
      (labels_idle rfl rfl (fun _ => rfl) rfl)
    have hne : b.series.vault ≠ key := by
      rintro rfl
      rw [isVault_vault h hs] at hvault
      cases hvault
    simp only [Bank.balance, Function.update_of_ne hne]
  | foreignMint key mint =>
    simp only [World.act, Option.ite_none_right_eq_some, Bool.and_eq_true, Option.some.injEq] at ha
    obtain ⟨⟨hwallet, -⟩, rfl⟩ := ha
    have hne : ∀ side, claimMintOf k side ≠ key := fun side => claimMintOf_ne_wallet side hwallet
    refine booksMove_idle (books_setBank_same hb rfl (fun side => ?_) (fun side => ?_))
      (labels_idle rfl rfl (fun _ => rfl) rfl)
    · simp only [Bank.supply, Function.update_of_ne (hne side)]
    · simp only [Bank.authority, Function.update_of_ne (hne side)]
  | tick clock =>
    simp only [World.act, Option.ite_none_right_eq_some, Option.some.injEq] at ha
    obtain ⟨-, rfl⟩ := ha
    exact booksMove_idle (books_of_same hb rfl rfl rfl rfl rfl)
      (labels_idle rfl rfl (fun _ => rfl) rfl)

/-- Nothing outside the program writes one of its accounts. -/
theorem act_outside {a : Action} (ha : w.act host a = some w') (hix : a.instruction? = none) :
    ∃ bank clock, w' = { w with bank := bank, clock := clock } := by
  cases a with
  | instruction ix => cases hix
  | transfer mint source destination authority amount decimals =>
    simp only [World.act, Option.ite_none_right_eq_some, Option.map_eq_some_iff] at ha
    obtain ⟨-, bank, -, rfl⟩ := ha
    exact ⟨bank, w.clock, rfl⟩
  | burn mint source authority amount =>
    simp only [World.act, Option.ite_none_right_eq_some, Option.map_eq_some_iff] at ha
    obtain ⟨-, bank, -, rfl⟩ := ha
    exact ⟨bank, w.clock, rfl⟩
  | donate vault amount =>
    simp only [World.act] at ha
    split at ha
    · obtain ⟨-, ⟨⟩⟩ := Option.ite_none_right_eq_some.mp ha
      exact ⟨_, w.clock, rfl⟩
    · cases ha
  | seize vault amount =>
    simp only [World.act] at ha
    split at ha
    · obtain ⟨-, ⟨⟩⟩ := Option.ite_none_right_eq_some.mp ha
      exact ⟨_, w.clock, rfl⟩
    · cases ha
  | tick clock =>
    obtain ⟨-, ⟨⟩⟩ := Option.ite_none_right_eq_some.mp ha
    exact ⟨w.bank, clock, rfl⟩
  | _ =>
    obtain ⟨-, ⟨⟩⟩ := Option.ite_none_right_eq_some.mp ha
    exact ⟨_, w.clock, rfl⟩

/-! ## Before a series exists -/

/-- The action counts for nothing on a series. -/
structure Silent (k : Pubkey) (a : Action) : Prop where
  donation : ∀ mint, a.donation (.ata k mint) = 0
  seizure : ∀ mint, a.seizure (.ata k mint) = 0
  burned : ∀ side, a.directBurn (claimMintOf k side) = 0
  redeemed : ∀ side, a.redemption k side = 0
  begins : a.begins k = false
  completes : a.completes k = false
  records : ∀ acc input, a = .instruction (.upsertEvent acc input) → acc.series ≠ k

/-- Where there is no series there is no vault. -/
theorem not_isVault (hnone : w.series k = none) (mint : Pubkey) :
    w.isVault (.ata k mint) = false := by
  simp only [isVault, hnone]

/-- Nothing is counted for a series that does not exist yet. -/
theorem act_silent (h : w.Linked) {a : Action} (ha : w.act host a = some w')
    (hnone : w.series k = none) : Silent k a := by
  -- There are no claims of a series before it is created.
  have hclaim : ∀ side m, w.bank.mints (claimMintOf k side) ≠ some m := by
    intro side m hm
    rcases h.mints hm with hwallet | ⟨-, k', side', s, hkey, hs⟩
    · exact claimMintOf_ne_wallet side hwallet rfl
    · rw [← (claimMintOf_injective hkey).1, hnone] at hs
      cases hs
  cases a with
  | instruction ix =>
    simp only [World.act, Result.toOption_eq_some] at ha
    refine ⟨fun _ => rfl, fun _ => rfl, fun _ => rfl, fun side => ?_, ?_, ?_, ?_⟩
    · cases ix with
      | redeem acc side' amount allowZero guard =>
        obtain ⟨L, payout, hL, -⟩ := redeem_eq_ok.mp ha
        have hne : acc.series ≠ k := by
          rintro rfl
          cases hnone.symm.trans hL.series
        simp [Action.redemption, hne]
      | _ => rfl
    · cases ix with
      | beginFinalization acc version hash coverage =>
        obtain ⟨L, profile, hL, -⟩ := beginFinalization_eq_ok.mp ha
        have hne : acc.series ≠ k := by
          rintro rfl
          cases hnone.symm.trans hL.loadedSeries
        simp [Action.begins, hne]
      | _ => rfl
    · cases ix with
      | completeFinalization acc =>
        obtain ⟨L, hL, -⟩ := completeFinalization_eq_ok.mp ha
        have hne : acc.series ≠ k := by
          rintro rfl
          cases hnone.symm.trans hL.loadedSeries
        simp [Action.completes, hne]
      | _ => rfl
    · rintro acc input ⟨⟩ rfl
      obtain ⟨p, s, resolved, inYear, hpass, -⟩ := upsertEvent_ok ha
      cases hnone.symm.trans hpass.series
  | burn mint source authority amount =>
    simp only [World.act, Option.ite_none_right_eq_some, Option.map_eq_some_iff] at ha
    obtain ⟨-, bank, hbank, -⟩ := ha
    obtain ⟨haccept, -⟩ := Host.invoke_eq_ok.mp (Result.toOption_eq_some.mp hbank)
    obtain ⟨src, m, -, hm, -⟩ := host.accepts_requires _ _ haccept
    refine ⟨fun _ => rfl, fun _ => rfl, fun side => ?_, fun _ => rfl, rfl, rfl,
      fun _ _ h => by cases h⟩
    simp only [Action.directBurn]
    rw [if_neg]
    rintro rfl
    exact hclaim side m hm
  | donate vault amount =>
    refine ⟨fun mint => ?_, fun _ => rfl, fun _ => rfl, fun _ => rfl,
      rfl, rfl, fun _ _ h => by cases h⟩
    simp only [Action.donation]
    rw [if_neg]
    rintro rfl
    simp only [World.act, not_isVault hnone, Bool.false_and] at ha
    split at ha <;> simp at ha
  | seize vault amount =>
    refine ⟨fun _ => rfl, fun mint => ?_, fun _ => rfl, fun _ => rfl,
      rfl, rfl, fun _ _ h => by cases h⟩
    simp only [Action.seizure]
    rw [if_neg]
    rintro rfl
    simp only [World.act, not_isVault hnone, Bool.false_and] at ha
    split at ha <;> simp at ha
  | _ =>
    exact ⟨fun _ => rfl, fun _ => rfl, fun _ => rfl, fun _ => rfl,
      rfl, rfl, fun _ _ h => by cases h⟩

/-- A series appears with fresh books, by an instruction. -/
theorem act_created (h : w.Linked) {a : Action} (ha : w.act host a = some w')
    (hnone : w.series k = none) (hb : w'.books k = some b) :
    b.Fresh host k ∧ a.instruction?.isSome = true := by
  have hs := books_series hb
  cases a with
  | instruction ix =>
    refine ⟨?_, rfl⟩
    simp only [World.act, Result.toOption_eq_some] at ha
    -- Every instruction but the creation writes a series that was there, so puts none at `k`.
    have hput : ∀ {k' : Pubkey} {s s' : Series} {w₁ : World}, w.series k' = some s →
        w₁.series = w.series → (w₁.putSeries k' s').series k = some b.series → False := by
      intro k' s s' w₁ hk' hsame hput
      have hne : k ≠ k' := by
        rintro rfl
        cases hnone.symm.trans hk'
      rw [putSeries_series_of_ne hne, hsame, hnone] at hput
      cases hput
    cases ix with
    | initializeConfig upgradeAuthority domain =>
      obtain ⟨config, rfl⟩ := initializeConfig_ok ha
      cases hnone.symm.trans hs
    | registerAsset acc issuerId symbol attestor policyDigest =>
      obtain ⟨p, m, -, -, -, -, -, -, rfl⟩ := registerAsset_ok ha
      cases hnone.symm.trans hs
    | setAssetAdmission acc enabled =>
      obtain ⟨p, p', -, -, rfl⟩ := setAssetAdmission_ok ha
      cases hnone.symm.trans hs
    | refreshObservation acc evidence validUntil =>
      obtain ⟨p, p', -, -, rfl⟩ := refreshObservation_ok ha
      cases hnone.symm.trans hs
    | createSeries acc year =>
      obtain ⟨p, s, hc⟩ := createSeries_ok ha
      by_cases hk : k = .series acc.assetPolicy year
      · subst hk
        obtain ⟨b', hb', hfresh⟩ := created_fresh h hc
        cases hb.symm.trans hb'
        exact hfresh
      · rw [(created_touches h hc).series k hk, hnone] at hs
        cases hs
    | deposit acc amount guard =>
      obtain ⟨L, hL, -, b₁, b₂, b₃, -, -, -, nominal, v, -, -, rfl⟩ := deposit_eq_ok.mp ha
      exact (hput hL.series rfl hs).elim
    | recombine acc amount guard =>
      obtain ⟨L, hL, -, b₁, b₂, b₃, -, -, -, nominal, v, -, -, rfl⟩ := recombine_eq_ok.mp ha
      exact (hput hL.series rfl hs).elim
    | upsertEvent acc input =>
      obtain ⟨p, s, resolved, inYear, hpass, ⟨-, rfl⟩ | ⟨head, isNew, s', hr⟩⟩ := upsertEvent_ok ha
      · cases hnone.symm.trans hs
      · rw [hr.written] at hs
        exact (hput hpass.series rfl hs).elim
    | beginFinalization acc version hash coverage =>
      obtain ⟨L, profile, hL, -, v, -, rfl⟩ := beginFinalization_eq_ok.mp ha
      exact (@hput _ _ _ w hL.loadedSeries rfl hs).elim
    | accumulateEvent acc =>
      obtain ⟨s, a, head, r, hpass, n, d, -, cursor, v, -, -, rfl⟩ := accumulateEvent_eq_ok.mp ha
      exact (@hput _ _ _ w hpass.series rfl hs).elim
    | completeFinalization acc =>
      obtain ⟨L, hL, -, pt, dr, -, b₁, b₂, -, -, v, -, rfl⟩ := completeFinalization_eq_ok.mp ha
      exact (hput hL.loadedSeries rfl hs).elim
    | abortFinalization acc reason =>
      obtain ⟨s, a, hs', -, -, -, v, -, rfl⟩ := abortFinalization_ok ha
      exact (@hput _ _ _ w hs' rfl hs).elim
    | redeem acc side amount allowZero guard =>
      obtain ⟨L, payout, hL, -, b₁, b₂, -, -, r, p, v, -, -, -, rfl⟩ := redeem_eq_ok.mp ha
      exact (hput hL.series rfl hs).elim
  | _ =>
    obtain ⟨bank, clock, rfl⟩ := act_outside ha rfl
    cases hnone.symm.trans hs

/-! ## Induction over histories -/

/-- **Induction over the history of a series.** What holds of the fresh books of a series and is
kept by every step of them holds after every history. -/
theorem History.rec_books {P : List Action → World → Books → Prop} {w₀ : World} {tr : List Action}
    (h : History host w₀ tr w) (hb : w.books k = some b)
    (fresh : ∀ tr a w w' b, History host w₀ tr w → w.act host a = some w' → w'.books k = some b →
      b.Fresh host k → (∀ a' ∈ tr ++ [a], Silent k a') → a.instruction?.isSome = true →
      P (tr ++ [a]) w' b)
    (keep : ∀ tr w a w' b c b', History host w₀ tr w → w.books k = some b → P tr w b →
      w.act host a = some w' → w'.books k = some b' → b.Step host k c b' →
      c.Labels a k b.series.vault → P (tr ++ [a]) w' b') : P tr w b := by
  have hmain := h.2.rec_on_history
    (P := fun tr w => (w.series k = none → ∀ a ∈ tr, Silent k a) ∧ ∀ b,
      w.books k = some b → P tr w b)
    ⟨fun _ _ ha => absurd ha (by simp), fun b hb => ?_⟩ ?_
  · exact hmain.2 b hb
  · cases (h.1.series k).symm.trans (books_series hb)
  · rintro tr w a w' hrun ⟨hsilent, hP⟩ ha
    have hist : History host w₀ tr w := ⟨h.1, hrun⟩
    have hl := hist.linked
    cases hs : w.series k with
    | none =>
      have hall : ∀ a' ∈ tr ++ [a], Silent k a' := by
        intro a' ha'
        rcases List.mem_append.mp ha' with hold | hlast
        · exact hsilent hs a' hold
        · rw [List.mem_singleton.mp hlast]
          exact act_silent hl ha hs
      refine ⟨fun _ => hall, fun b' hb' => ?_⟩
      obtain ⟨hfresh, hix⟩ := act_created hl ha hs hb'
      exact fresh tr a w w' b' hist ha hb' hfresh hall hix
    | some s =>
      obtain ⟨b₁, hb₁, -⟩ := hl.exists_books hs
      obtain ⟨c, b₂, hb₂, hstep, hlabels⟩ := act_books hl ha hb₁
      refine ⟨fun hnone => ?_, fun b' hb' => ?_⟩
      · cases hnone.symm.trans (books_series hb₂)
      · cases hb₂.symm.trans hb'
        exact keep tr w a w' b₁ c b₂ hist hb₁ (hP b₁ hb₁) ha hb₂ hstep hlabels

/-- A series never goes away. -/
theorem books_of_run {tr : List Action} (hl : w.Linked) (hb : w.books k = some b)
    (hrun : Run (act host) w tr w') : ∃ b', w'.books k = some b' := by
  have hmain := hrun.invariant (P := fun w => w.Linked ∧ ∃ b, w.books k = some b) ⟨hl, b, hb⟩ ?_
  · exact hmain.2
  · rintro t a u ⟨hlt, b₁, hb₁⟩ ha
    obtain ⟨c, b₂, hb₂, -, -⟩ := act_books hlt ha hb₁
    exact ⟨hlt.act ha, b₂, hb₂⟩

/-- Induction over a run that starts with the series in place. -/
theorem rec_books_from {P : List Action → Books → Prop} {tr : List Action} {b' : Books}
    (hl : w.Linked) (hb : w.books k = some b) (hrun : Run (act host) w tr w')
    (hb' : w'.books k = some b') (start : P [] b)
    (keep : ∀ tr a b c b', P tr b → b.Step host k c b' → c.Labels a k b.series.vault →
      P (tr ++ [a]) b') : P tr b' := by
  have hmain := hrun.rec_on_history
    (P := fun tr w => w.Linked ∧ ∃ b, w.books k = some b ∧ P tr b) ⟨hl, b, hb, start⟩ ?_
  · obtain ⟨-, b₂, hb₂, hP⟩ := hmain
    cases hb₂.symm.trans hb'
    exact hP
  · rintro tr t a u - ⟨hlt, b₁, hb₁, hP⟩ ha
    obtain ⟨c, b₂, hb₂, hstep, hlabels⟩ := act_books hlt ha hb₁
    exact ⟨hlt.act ha, b₂, hb₂, keep tr a b₁ c b₂ hP hstep hlabels⟩

/-- A history goes on. -/
theorem History.append {w₀ : World} {tr tr' : List Action} (h : History host w₀ tr w)
    (hrun : Run (act host) w tr' w') : History host w₀ (tr ++ tr') w' :=
  ⟨h.1, h.2.append hrun⟩

/-! ## Time -/

/-- No instruction moves the clock. -/
theorem execute_clock {ix : Instruction} (hx : w.execute host ix = .ok w') :
    w'.clock = w.clock := by
  cases ix with
  | initializeConfig upgradeAuthority domain =>
    obtain ⟨config, rfl⟩ := initializeConfig_ok hx
    rfl
  | registerAsset acc issuerId symbol attestor policyDigest =>
    obtain ⟨p, m, -, -, -, -, -, -, rfl⟩ := registerAsset_ok hx
    rfl
  | setAssetAdmission acc enabled =>
    obtain ⟨p, p', -, -, rfl⟩ := setAssetAdmission_ok hx
    rfl
  | refreshObservation acc evidence validUntil =>
    obtain ⟨p, p', -, -, rfl⟩ := refreshObservation_ok hx
    rfl
  | createSeries acc year =>
    obtain ⟨p, s, hc⟩ := createSeries_ok hx
    rw [hc.written]
    rfl
  | deposit acc amount guard =>
    obtain ⟨L, -, -, b₁, b₂, b₃, -, -, -, nominal, v, -, -, rfl⟩ := deposit_eq_ok.mp hx
    rfl
  | recombine acc amount guard =>
    obtain ⟨L, -, -, b₁, b₂, b₃, -, -, -, nominal, v, -, -, rfl⟩ := recombine_eq_ok.mp hx
    rfl
  | upsertEvent acc input =>
    obtain ⟨p, s, resolved, inYear, -, ⟨-, rfl⟩ | ⟨head, isNew, s', hr⟩⟩ := upsertEvent_ok hx
    · rfl
    · rw [hr.written]
      rfl
  | beginFinalization acc version hash coverage =>
    obtain ⟨L, profile, -, -, v, -, rfl⟩ := beginFinalization_eq_ok.mp hx
    rfl
  | accumulateEvent acc =>
    obtain ⟨s, a, head, r, -, n, d, -, cursor, v, -, -, rfl⟩ := accumulateEvent_eq_ok.mp hx
    rfl
  | completeFinalization acc =>
    obtain ⟨L, -, -, pt, dr, -, b₁, b₂, -, -, v, -, rfl⟩ := completeFinalization_eq_ok.mp hx
    rfl
  | abortFinalization acc reason =>
    obtain ⟨s, a, -, -, -, -, v, -, rfl⟩ := abortFinalization_ok hx
    rfl
  | redeem acc side amount allowZero guard =>
    obtain ⟨L, payout, -, -, b₁, b₂, -, -, r, p, v, -, -, -, rfl⟩ := redeem_eq_ok.mp hx
    rfl

/-- The clock does not go back. -/
theorem act_clock {a : Action} (ha : w.act host a = some w') :
    w.clock.slot ≤ w'.clock.slot ∧ w.clock.unixTimestamp ≤ w'.clock.unixTimestamp := by
  have hsame : w'.clock = w.clock →
      w.clock.slot ≤ w'.clock.slot ∧ w.clock.unixTimestamp ≤ w'.clock.unixTimestamp := by
    intro heq
    rw [heq]
    exact ⟨UInt64.le_refl _, Int64.le_refl _⟩
  cases a with
  | instruction ix => exact hsame (execute_clock (Result.toOption_eq_some.mp ha))
  | transfer mint source destination authority amount decimals =>
    simp only [World.act, Option.ite_none_right_eq_some, Option.map_eq_some_iff] at ha
    obtain ⟨-, bank, -, rfl⟩ := ha
    exact hsame rfl
  | burn mint source authority amount =>
    simp only [World.act, Option.ite_none_right_eq_some, Option.map_eq_some_iff] at ha
    obtain ⟨-, bank, -, rfl⟩ := ha
    exact hsame rfl
  | donate vault amount =>
    simp only [World.act] at ha
    split at ha
    · obtain ⟨-, ⟨⟩⟩ := Option.ite_none_right_eq_some.mp ha
      exact hsame rfl
    · cases ha
  | seize vault amount =>
    simp only [World.act] at ha
    split at ha
    · obtain ⟨-, ⟨⟩⟩ := Option.ite_none_right_eq_some.mp ha
      exact hsame rfl
    · cases ha
  | tick clock =>
    obtain ⟨hle, ⟨⟩⟩ := Option.ite_none_right_eq_some.mp ha
    simpa [clockLe] using hle
  | _ =>
    obtain ⟨-, ⟨⟩⟩ := Option.ite_none_right_eq_some.mp ha
    exact hsame rfl

/-- Over a run the clock does not go back. -/
theorem clock_of_run {tr : List Action} (h : Run (act host) w tr w') :
    w.clock.slot ≤ w'.clock.slot ∧ w.clock.unixTimestamp ≤ w'.clock.unixTimestamp := by
  refine h.invariant (P := fun t => w.clock.slot ≤ t.clock.slot ∧
    w.clock.unixTimestamp ≤ t.clock.unixTimestamp) ⟨UInt64.le_refl _, Int64.le_refl _⟩ ?_
  rintro t a u ⟨hslot, htime⟩ ha
  obtain ⟨hslot', htime'⟩ := act_clock ha
  exact ⟨UInt64.le_trans hslot hslot', Int64.le_trans htime htime'⟩

end World

end DividendX
