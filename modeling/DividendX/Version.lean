import DividendX.Finalization

/-!
# The state version as an optimistic lock

A holder's instruction names the version it was quoted at. The version rises with every change the
program makes to a series and with nothing else, so two moments with one version show the same
accounts, and a version admits at most one of the instructions that name it.
-/

namespace DividendX

/-! ## One step -/

/-- The same account contents of a series: series, accumulator and journal. -/
structure Books.SameAccounts (b b' : Books) : Prop where
  series : b'.series = b.series
  accumulator : b'.accumulator = b.accumulator
  heads : b'.heads = b.heads
  revisions : b'.revisions = b.revisions

theorem Books.SameAccounts.trans {b b' b'' : Books} (h : b.SameAccounts b')
    (h' : b'.SameAccounts b'') : b.SameAccounts b'' :=
  ⟨h'.series.trans h.series, h'.accumulator.trans h.accumulator, h'.heads.trans h.heads,
    h'.revisions.trans h.revisions⟩

/-- What is not the work of the program leaves its accounts alone. -/
theorem Books.Step.sameAccounts {host : Host} {k : Pubkey} {b b' : Books} {c : Change}
    (h : b.Step host k c b') (hc : c.isBooked = false) : b.SameAccounts b' := by
  cases h with
  | idle => exact ⟨rfl, rfl, rfl, rfl⟩
  | burn _ => exact ⟨rfl, rfl, rfl, rfl⟩
  | donate _ => exact ⟨rfl, rfl, rfl, rfl⟩
  | seize _ => exact ⟨rfl, rfl, rfl, rfl⟩
  | _ => cases hc

/-! ## Instructions on a series -/

/-- The series an instruction changes. -/
def Instruction.mutates : Instruction → Option Pubkey
  | deposit acc _ _ => some acc.series
  | recombine acc _ _ => some acc.series
  | upsertEvent acc _ => some acc.series
  | beginFinalization acc _ _ _ => some acc.series
  | accumulateEvent acc => some acc.series
  | completeFinalization acc => some acc.series
  | abortFinalization acc _ => some acc.series
  | redeem acc _ _ _ _ => some acc.series
  | _ => none

/-- The series and version a holder's instruction was quoted for. -/
def Instruction.quotedAt : Instruction → Option (Pubkey × UInt64)
  | deposit acc _ guard => some (acc.series, guard.expectedStateVersion)
  | recombine acc _ guard => some (acc.series, guard.expectedStateVersion)
  | redeem acc _ _ _ guard => some (acc.series, guard.expectedStateVersion)
  | _ => none

/-- The action is a holder's instruction quoted for this series and version. -/
def Action.quotedAt (k : Pubkey) (v : UInt64) : Action → Bool
  | instruction ix => ix.quotedAt == some (k, v)
  | _ => false

namespace World

variable {host : Host} {w₀ w w' : World} {k : Pubkey} {s s' : Series} {b b' : Books}
  {tr tr' : List Action} {ix : Instruction} {v : UInt64}

/-- The instruction is the exact replay of the latest revision of an event. -/
def IsReplay (w : World) (k : Pubkey) (ix : Instruction) : Prop :=
  ∃ acc input, ix = .upsertEvent acc input ∧ acc.series = k ∧ Replay w k input

/-- **Every mutation raises the version by one**; only an exact replay does not, and it changes
nothing at all. -/
theorem execute_version (hix : ix.mutates = some k) (hx : w.execute host ix = .ok w') :
    (∃ s s', w.series k = some s ∧ w'.series k = some s' ∧
      s'.stateVersion.toNat = s.stateVersion.toNat + 1) ∨ (w.IsReplay k ix ∧ w' = w) := by
  have hput : ∀ {w₁ : World} {s s' : Series}, w.series k = some s →
      s'.stateVersion.toNat = s.stateVersion.toNat + 1 →
      ∃ t t', w.series k = some t ∧ (w₁.putSeries k s').series k = some t' ∧
        t'.stateVersion.toNat = t.stateVersion.toNat + 1 :=
    fun hs hv => ⟨_, _, hs, putSeries_series .., hv⟩
  cases ix with
  | deposit acc amount guard =>
    cases hix
    obtain ⟨L, hL, -, b₁, b₂, b₃, -, -, -, nominal, v, -, hv, rfl⟩ := deposit_eq_ok.mp hx
    exact .inl (hput hL.series hv)
  | recombine acc amount guard =>
    cases hix
    obtain ⟨L, hL, -, b₁, b₂, b₃, -, -, -, nominal, v, -, hv, rfl⟩ := recombine_eq_ok.mp hx
    exact .inl (hput hL.series hv)
  | upsertEvent acc input =>
    cases hix
    obtain ⟨p, s, resolved, inYear, hpass, ⟨hreplay, rfl⟩ | ⟨head, isNew, s', hr⟩⟩ :=
      upsertEvent_ok hx
    · exact .inr ⟨⟨acc, input, rfl, rfl, hreplay⟩, rfl⟩
    · obtain ⟨s₁, hcounted, jv, v, -, hv, rfl⟩ := hr.series
      obtain ⟨_, _, _, _, _, -, -, -, -, -, rfl⟩ := updateCounters_eq_ok.mp hcounted
      rw [hr.written]
      exact .inl (hput hpass.series hv)
  | beginFinalization acc version hash coverage =>
    cases hix
    obtain ⟨L, profile, hL, -, v, hv, rfl⟩ := beginFinalization_eq_ok.mp hx
    exact .inl (@hput w _ _ hL.loadedSeries hv)
  | accumulateEvent acc =>
    cases hix
    obtain ⟨s, a, head, r, hpass, n, d, -, cursor, v, -, hv, rfl⟩ := accumulateEvent_eq_ok.mp hx
    exact .inl (@hput w s { s with stateVersion := v } hpass.series hv)
  | completeFinalization acc =>
    cases hix
    obtain ⟨L, hL, -, pt, dr, -, b₁, b₂, -, -, v, hv, rfl⟩ := completeFinalization_eq_ok.mp hx
    exact .inl (hput hL.loadedSeries hv)
  | abortFinalization acc reason =>
    cases hix
    obtain ⟨s, a, hs, -, -, -, v, hv, rfl⟩ := abortFinalization_ok hx
    exact .inl (@hput w s { s.unsealed with stateVersion := v } hs hv)
  | redeem acc side amount allowZero guard =>
    cases hix
    obtain ⟨L, payout, hL, -, b₁, b₂, -, -, r, p, v, -, -, hv, rfl⟩ := redeem_eq_ok.mp hx
    exact .inl (hput hL.series hv)
  | _ => cases hix

/-- A holder's instruction succeeds at the version it names. -/
theorem execute_quoted (hix : ix.quotedAt = some (k, v)) (hx : w.execute host ix = .ok w') :
    ix.mutates = some k ∧ ∃ s, w.series k = some s ∧ s.stateVersion = v := by
  cases ix with
  | deposit acc amount guard =>
    cases hix
    obtain ⟨L, hL, hp, -⟩ := deposit_eq_ok.mp hx
    exact ⟨rfl, L.series, hL.series, (checkGuard_eq_ok.mp hp.guarded).1.symm⟩
  | recombine acc amount guard =>
    cases hix
    obtain ⟨L, hL, hp, -⟩ := recombine_eq_ok.mp hx
    exact ⟨rfl, L.series, hL.series, (checkGuard_eq_ok.mp hp.guarded).1.symm⟩
  | redeem acc side amount allowZero guard =>
    cases hix
    obtain ⟨L, payout, hL, hp, -⟩ := redeem_eq_ok.mp hx
    exact ⟨rfl, L.series, hL.series, (checkGuard_eq_ok.mp hp.guarded).1.symm⟩
  | _ => cases hix

/-- An accepted action that was quoted found its version and left it behind. -/
theorem act_quoted {a : Action} (ha : w.act host a = some w') (hq : a.quotedAt k v = true) :
    ∃ s s', w.series k = some s ∧ s.stateVersion = v ∧ w'.series k = some s' ∧
      v.toNat < s'.stateVersion.toNat := by
  cases a with
  | instruction ix =>
    simp only [World.act, Result.toOption_eq_some] at ha
    rw [Action.quotedAt, beq_iff_eq] at hq
    obtain ⟨hmut, s, hs, rfl⟩ := execute_quoted hq ha
    rcases execute_version hmut ha with ⟨t, s', ht, hs', hv⟩ | ⟨⟨acc, input, rfl, -⟩, -⟩
    · cases hs.symm.trans ht
      exact ⟨s, s', hs, rfl, hs', by omega⟩
    · cases hq
  | _ => cases hq

/-! ## Whole histories -/

/-- Along a run the version never falls, and while it stands still so do the accounts. -/
theorem version_of_run (hl : w.Linked) (hb : w.books k = some b) (hrun : Run (act host) w tr' w')
    (hb' : w'.books k = some b') :
    b.series.stateVersion.toNat ≤ b'.series.stateVersion.toNat ∧
      (b'.series.stateVersion.toNat = b.series.stateVersion.toNat → b.SameAccounts b') := by
  refine rec_books_from hl hb hrun hb' (P := fun _ b' =>
    b.series.stateVersion.toNat ≤ b'.series.stateVersion.toNat ∧
      (b'.series.stateVersion.toNat = b.series.stateVersion.toNat → b.SameAccounts b'))
    ⟨le_rfl, fun _ => ⟨rfl, rfl, rfl, rfl⟩⟩ ?_
  rintro tr a b₁ c b₂ ⟨hle, hsame⟩ hstep _
  have hv := hstep.stateVersion
  refine ⟨by omega, fun heq => ?_⟩
  cases hc : c.isBooked with
  | false =>
    rw [hc, Bool.toNat_false] at hv
    exact (hsame (by omega)).trans (hstep.sameAccounts hc)
  | true =>
    rw [hc, Bool.toNat_true] at hv
    omega

/-- Of all actions quoted for one version at most one is accepted, and then the version is past. -/
theorem History.quoted_once (h : History host w₀ tr w) :
    (w.series k = none → tr.countP (Action.quotedAt k v) = 0) ∧
    ∀ s, w.series k = some s → tr.countP (Action.quotedAt k v) = 0 ∨
      (tr.countP (Action.quotedAt k v) = 1 ∧ v.toNat < s.stateVersion.toNat) := by
  refine h.2.rec_on_history (P := fun tr w => (w.series k = none →
    tr.countP (Action.quotedAt k v) = 0) ∧ ∀ s, w.series k = some s →
      tr.countP (Action.quotedAt k v) = 0 ∨
      (tr.countP (Action.quotedAt k v) = 1 ∧ v.toNat < s.stateVersion.toNat))
    ⟨fun _ => rfl, fun _ _ => .inl rfl⟩ ?_
  rintro tr w a w' hrun ⟨hnone, hsome⟩ ha
  have hl := History.linked ⟨h.1, hrun⟩
  rw [List.countP_append, List.countP_singleton]
  cases hq : a.quotedAt k v with
  | true =>
    obtain ⟨s, s', hs, hv, hs', hlt⟩ := act_quoted ha hq
    -- The version quoted is the current one, so nothing quoted for it was accepted before.
    have hbefore : tr.countP (Action.quotedAt k v) = 0 := by
      rcases hsome s hs with hzero | ⟨-, hpast⟩
      · exact hzero
      · rw [hv] at hpast
        exact absurd hpast (lt_irrefl _)
    refine ⟨fun h0 => ?_, fun t ht => .inr ⟨?_, ?_⟩⟩
    · cases h0.symm.trans hs'
    · rw [hbefore]
      rfl
    · cases hs'.symm.trans ht
      exact hlt
  | false =>
    rw [if_neg (by decide), Nat.add_zero]
    cases hs : w.series k with
    | none => exact ⟨fun _ => hnone hs, fun _ _ => .inl (hnone hs)⟩
    | some s =>
      obtain ⟨b, hb, rfl⟩ := hl.exists_books hs
      obtain ⟨c, b', hb', hstep, -⟩ := act_books hl ha hb
      refine ⟨fun h0 => ?_, fun t ht => ?_⟩
      · cases h0.symm.trans (books_series hb')
      · cases (books_series hb').symm.trans ht
        rcases hsome _ hs with hzero | ⟨hone, hpast⟩
        · exact .inl hzero
        · refine .inr ⟨hone, ?_⟩
          rw [hstep.stateVersion]
          omega

/-- The accounts of a series at two moments are the same. -/
structure SameSeries (w w' : World) (k : Pubkey) : Prop where
  series : w'.series k = w.series k
  accumulator : w'.accumulators (.accumulator k) = w.accumulators (.accumulator k)
  heads : ∀ id, w'.heads (.event k id) = w.heads (.event k id)
  revisions : ∀ id n,
    w'.revisions (.revision (.event k id) n) = w.revisions (.revision (.event k id) n)

theorem sameSeries_of_books (hb : w.books k = some b) (hb' : w'.books k = some b')
    (h : b.SameAccounts b') : SameSeries w w' k := by
  refine ⟨?_, ?_, fun id => ?_, fun id n => ?_⟩
  · rw [books_series hb, books_series hb', h.series]
  · rw [books_accumulator hb, books_accumulator hb', h.accumulator]
  · rw [← books_heads hb, ← books_heads hb', h.heads]
  · rw [← books_revisions hb, ← books_revisions hb', h.revisions]

/-- Two moments with one version show the same accounts. -/
theorem sameSeries_of_version (hl : w.Linked) (hs : w.series k = some s)
    (hrun : Run (act host) w tr' w') (hs' : w'.series k = some s')
    (hv : s'.stateVersion = s.stateVersion) : SameSeries w w' k := by
  obtain ⟨b, hb, rfl⟩ := hl.exists_books hs
  obtain ⟨b', hb'⟩ := books_of_run hl hb hrun
  cases (books_series hb').symm.trans hs'
  exact sameSeries_of_books hb hb' ((version_of_run hl hb hrun hb').2 (congrArg UInt64.toNat hv))

/-- **The version is a faithful lock.** Two moments of a run with the same version show identical
series, accumulator, event heads and revisions; every successful instruction on a series raises its
version by exactly one, except the exact replay of a latest revision, which changes nothing; of all
holders' instructions that name one version at most one is ever accepted; and whichever is, however
much later, runs on the accounts the version was quoted from. -/
theorem version_is_a_lock (h : History host w₀ tr w) (hs : w.series k = some s) :
    (∀ tr' w' s', Run (act host) w tr' w' → w'.series k = some s' →
      s'.stateVersion = s.stateVersion → SameSeries w w' k) ∧
    (∀ ix w', ix.mutates = some k → w.execute host ix = .ok w' →
      (∃ s', w'.series k = some s' ∧ s'.stateVersion.toNat = s.stateVersion.toNat + 1) ∨
        (w.IsReplay k ix ∧ w' = w)) ∧
    (∀ v, tr.countP (Action.quotedAt k v) ≤ 1) ∧
    ∀ tr' w' ix w'', Run (act host) w tr' w' → ix.quotedAt = some (k, s.stateVersion) →
      w'.execute host ix = .ok w'' → SameSeries w w' k := by
  have hl := h.linked
  refine ⟨fun tr' w' s' hrun hs' hv => sameSeries_of_version hl hs hrun hs' hv, ?_, ?_, ?_⟩
  · intro ix w' hix hx
    rcases execute_version hix hx with ⟨t, s', ht, hs', hv⟩ | hreplay
    · cases hs.symm.trans ht
      exact .inl ⟨s', hs', hv⟩
    · exact .inr hreplay
  · intro v
    rcases h.quoted_once.2 s hs with hzero | ⟨hone, -⟩
    · exact hzero.le.trans (Nat.zero_le 1)
    · exact hone.le
  · intro tr' w' ix w'' hrun hq hx
    obtain ⟨-, s', hs', hv⟩ := execute_quoted hq hx
    exact sameSeries_of_version hl hs hrun hs' hv

/-- In the sample a redemption quoted right after completion goes through after a direct burn. -/
theorem version_is_a_lock_sample : ∃ s w'', (Sample.world 15).series Sample.seriesKey = some s ∧
    s.stateVersion = 6 ∧
    (Sample.world 16).execute Sample.host (.redeem (Sample.redemption .dr) .dr 40000 false
      (Sample.guard 6)) = .ok w'' ∧
    SameSeries (Sample.world 15) (Sample.world 16) Sample.seriesKey := by
  obtain ⟨s, hs, hversion⟩ := @Sample.series_of_any 15 (fun s => decide (s.stateVersion = 6))
    (by decide +kernel)
  have hv : s.stateVersion = 6 := of_decide_eq_true hversion
  have hburn := Run.single (@Sample.step 15 _ rfl)
  have hredeem := @Sample.step 16 _ rfl
  simp only [World.act, Result.toOption_eq_some] at hredeem
  refine ⟨s, _, hs, hv, hredeem, ?_⟩
  refine (version_is_a_lock (Sample.history 15) hs).2.2.2 _ _ _ _ hburn ?_ hredeem
  rw [hv]
  rfl

end World

end DividendX
