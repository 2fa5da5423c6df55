import DividendX.Simulated

/-!
# The program refines the reference

Every accepted run of the program on a series is a run of the accounting reference: the reference
takes the calls the run stands for, one after the other, gives the answers the chain gives, and has
the same numbers after them (`refines_reference`).

Two kinds of accepted steps are left out. The reference takes no amounts of zero, so a burn, a
transfer or a donation of nothing is no call; and it takes only times that are safe integers. Both
are checks of its own (`reference_refuses`).
-/

namespace DividendX

open AnnualReference

variable {host : Host} {N : Naming} {owners : List Pubkey} {k : Pubkey} {w₀ w w' : World}
  {tr : List Action} {b b' : Books}

/-! ## Whole runs -/

/-- What is assumed of a run: every owner of a claim account is on the list, nobody but the program
takes collateral out of the vault, the clock stays a safe integer, and no account is ever credited
more than the reference can hold. -/
structure Watched (host : Host) (N : Naming) (owners : List Pubkey) (k : Pubkey) (w₀ : World)
    (tr : List Action) (w : World) (s : Series) : Prop where
  year : N.term.year = s.year.toNat
  opened : ∀ key side owner, Action.open key (claimMintOf k side) owner ∈ tr → owner ∈ owners
  untouched : Untouched s.vault tr
  clock : w.clock.unixTimestamp.toInt ≤ 2 ^ 53 - 1
  cap : ∀ tr₁, tr₁ <+: tr → ∀ owner ∈ owners,
    credited (mirrorRun host N k w₀ tr₁) (N.account owner) ≤ U64_MAX

/-- What is assumed of a run is true before its last step. -/
theorem Watched.before {a : Action} (h : Watched host N owners k w₀ (tr ++ [a]) w' b'.series)
    (ha : w.act host a = some w') (hidentity : b'.series.identity = b.series.identity) :
    Watched host N owners k w₀ tr w b.series := by
  have hyear : b'.series.year = b.series.year := congrArg Identity.year hidentity
  have hvault : b'.series.vault = b.series.vault := congrArg Identity.vault hidentity
  have hclock := Int64.le_iff_toInt_le.mp (World.act_clock ha).2
  refine ⟨hyear ▸ h.year, fun key side owner hopen => h.opened key side owner
    (List.mem_append_left _ hopen), ?_, hclock.trans h.clock, fun tr₁ hinit => h.cap tr₁
      (hinit.trans (List.prefix_append _ _))⟩
  have huntouched := h.untouched
  rw [hvault, untouched_snoc] at huntouched
  exact huntouched.1

namespace World

open AnnualReferenceModel

variable {s₀ : AnnualReferenceModel}

/-- The reference just constructed stands for a series just created. -/
theorem mirrors_fresh (hnew : AnnualReferenceModel.new N.term (owners.map N.account) = .ok s₀)
    (hl : w.Linked) (hb : w.books k = some b) (hfresh : b.Fresh host k)
    (hyear : N.term.year = b.series.year.toNat) :
    Mirrors N owners k w b [] ⟨s₀, ∅⟩ := by
  have hstarted := new_started hnew
  obtain ⟨hinv, hcovered⟩ := inv_new hnew
  obtain ⟨-, -, hstart, hmaturity⟩ := yearBounds_eq_ok (hl.series (books_series hb)).bounds
  obtain ⟨assetKey, asset, year, start, maturity, mintKey, profile, hs⟩ := hfresh.series
  have hopen : b.series.phase ≠ .finalized := by simp [hs, freshSeries]
  refine ⟨hinv, hcovered, ?_, ?_, ?_, fun side => ?_, fun side => ?_, fun owner ho => ?_,
    fun id => ?_, fun key event hget => ?_⟩
  · rw [hstarted.terms, Books.settled_of_open hopen, hyear]
    exact Prod.ext rfl (Prod.ext hstart.symm (Prod.ext hmaturity.symm rfl))
  · rw [hstarted.accountable, hs]
    rfl
  · rw [hstarted.custody, hfresh.vault]
    rfl
  · rw [hstarted.supply, hfresh.supply]
    rfl
  · rw [hstarted.redeemed, hs]
    cases side <;> rfl
  · refine ⟨⟨0, 0, 0⟩, hstarted.accounts _ (List.mem_map_of_mem ho), rfl, le_rfl, fun side => ?_⟩
    exact ⟨0, owns_fresh hl hb hfresh side owner, by cases side <;> rfl⟩
  · rw [Books.latest, hfresh.heads]
    rfl
  · cases hget

/-- Along every history the reference takes the calls, and both sides agree. -/
theorem History.mirrors (henrolled : Enrolled N owners)
    (hnew : AnnualReferenceModel.new N.term (owners.map N.account) = .ok s₀)
    (h : History host w₀ tr w) (hb : w.books k = some b)
    (hwatched : Watched host N owners k w₀ tr w b.series) :
    ∃ x, Method.replay ExactOperation.apply ⟨s₀, ∅⟩ (mirrorRun host N k w₀ tr) = some x ∧
      Mirrors N owners k w b (mirrorRun host N k w₀ tr) x := by
  have hmain := h.2.rec_on_history
    (P := fun tr w => (w.books k = none → mirrorRun host N k w₀ tr = []) ∧
      ∀ b, w.books k = some b → Watched host N owners k w₀ tr w b.series →
        ∃ x, Method.replay ExactOperation.apply ⟨s₀, ∅⟩ (mirrorRun host N k w₀ tr) = some x ∧
          Mirrors N owners k w b (mirrorRun host N k w₀ tr) x)
    ⟨fun _ => rfl, fun b hb => ?_⟩ ?_
  · exact hmain.2 b hb hwatched
  · cases (h.1.series k).symm.trans (books_series hb)
  · rintro tr w a w' hrun ⟨hempty, hP⟩ ha
    have hist : History host w₀ tr w := ⟨h.1, hrun⟩
    have hl := hist.linked
    rw [mirrorRun_snoc hrun ha]
    cases hbefore : w.books k with
    | none =>
      -- the series is created by this step or later
      have hcalls : mirrorRun host N k w₀ tr ++ mirror N k w w' a = [] := by
        rw [hempty hbefore, mirror, hbefore]
        rfl
      rw [hcalls]
      refine ⟨fun _ => rfl, fun b' hb' hwatched' => ⟨_, rfl, ?_⟩⟩
      have hnone : w.series k = none := by
        by_contra hsome
        obtain ⟨s, hs⟩ := Option.ne_none_iff_exists'.mp hsome
        obtain ⟨b, hb, -⟩ := hl.exists_books hs
        cases hbefore.symm.trans hb
      exact mirrors_fresh hnew (hl.act ha) hb' (act_created hl ha hnone hb').1
        hwatched'.year
    | some b =>
      obtain ⟨c, b₂, hb₂, hstep, -⟩ := act_books hl ha hbefore
      refine ⟨fun hnone => ?_, fun b' hb' hwatched' => ?_⟩
      · cases hnone.symm.trans hb₂
      · obtain rfl : b' = b₂ := Option.some.inj (hb'.symm.trans hb₂)
        have hwatched := hwatched'.before ha hstep.identity
        obtain ⟨x, hreplay, hmirrors⟩ := hP b hbefore hwatched
        have hcalls : mirror N k w w' a = calls N k w b b' a := by
          rw [mirror, hbefore, hb']
        have hseizure := hwatched'.untouched
        rw [hstep.vaultKey, untouched_snoc] at hseizure
        have hcap := hwatched'.cap _ (List.prefix_refl _)
        rw [mirrorRun_snoc hrun ha, hcalls] at hcap
        obtain ⟨x', hcall, hmirrors'⟩ := Setting.step
          ⟨henrolled, hist, hbefore, hwatched.year, hwatched.opened, hwatched.untouched,
            hwatched.clock, hmirrors⟩ ha hb' hseizure.2 hcap
        rw [hcalls]
        exact ⟨x', Method.replay_append.mpr ⟨x, hreplay, hcall⟩, hmirrors'⟩

/-- **The program refines the reference.** The reference, set up with the owners of all claim
accounts, takes the calls of every history of a series one after the other, answers as the chain
does, and agrees with the chain afterwards, so after every step. -/
theorem refines_reference {s : Series} (h : History host w₀ tr w) (hs : w.series k = some s)
    (hproper : N.Proper)
    (hnew : AnnualReferenceModel.new N.term (owners.map N.account) = .ok s₀)
    (hwatched : Watched host N owners k w₀ tr w s) :
    ∃ x, Method.replay ExactOperation.apply ⟨s₀, ∅⟩ (mirrorRun host N k w₀ tr) = some x ∧
      Reconciled w k s x := by
  have hstarted := new_started hnew
  have henrolled : Enrolled N owners := by
    refine ⟨hproper, hstarted.texts, fun owner ho owner' ho' heq => ?_⟩
    exact List.inj_on_of_nodup_map hstarted.nodup ho ho' heq
  obtain ⟨b, hb, rfl⟩ := h.linked.exists_books hs
  obtain ⟨x, hreplay, hmirrors⟩ := h.mirrors henrolled hnew hb hwatched
  exact ⟨x, hreplay, hmirrors.reconciled h hb⟩

end World

/-! ## The sample year -/

namespace Sample

/-- Bytes as characters. -/
def nameOf (bytes : Bytes32) : String :=
  String.ofList (bytes.toList.map fun byte => Char.ofNat byte.toNat)

theorem toNat_charOf (byte : UInt8) : (Char.ofNat byte.toNat).toNat = byte.toNat := by
  have hlt := byte.toNat_lt
  have hvalid : byte.toNat.isValidChar := .inl (by omega)
  rw [Char.ofNat, dif_pos hvalid]
  rfl

theorem nameOf_injective : Function.Injective nameOf := by
  intro bytes bytes' h
  have hlist := String.ofList_injective h
  refine List.Vector.toList_injective (List.map_injective_iff.mpr (fun byte byte' heq => ?_) hlist)
  have hnat := congrArg Char.toNat heq
  rw [toNat_charOf, toNat_charOf] at hnat
  exact UInt8.toNat_inj.mp hnat

theorem textLength_nameOf (bytes : Bytes32) : textLength (nameOf bytes) = 32 := by
  have hones : ∀ l : List UInt8, ((l.map fun byte => Char.ofNat byte.toNat).map fun c =>
      if c.toNat < 0x10000 then 1 else 2).sum = l.length := by
    intro l
    induction l with
    | nil => rfl
    | cons byte l ih =>
      have hlt := byte.toNat_lt
      rw [List.map_cons, List.map_cons, List.sum_cons, ih, toNat_charOf, if_pos (by omega),
        List.length_cons, Nat.add_comm]
  rw [textLength, nameOf, String.toList_ofList, hones]
  exact bytes.2

/-- Names for the sample. -/
def naming : Naming :=
  { term := { chain := "solana", issuer := "issuer", mint := "mint", symbol := "XS", year := 2027 }
    account := fun owner => if owner = .wallet holder then "holder" else "attestor"
    event := nameOf }

def holders : List Pubkey := [.wallet holder, .wallet attestor]

theorem naming_proper : naming.Proper :=
  ⟨nameOf_injective, fun id => by
    change textLength (nameOf id) ≠ 0 ∧ textLength (nameOf id) ≤ MAX_TEXT_LENGTH
    rw [textLength_nameOf]
    decide⟩

theorem watched {s : Series} (hs : (world 18).series seriesKey = some s) :
    Watched Sample.host naming holders seriesKey genesis (actions.take 18) (world 18) s := by
  obtain ⟨s', hs', hfacts⟩ := @series_of_any 18
    (fun s => decide (s.year = 2027 ∧ s.vault = vaultKey)) (by decide +kernel)
  cases hs.symm.trans hs'
  obtain ⟨hyear, hvault⟩ := of_decide_eq_true hfacts
  refine ⟨by rw [hyear]; rfl, fun key side owner hopen => ?_, fun a ha => ?_, by decide +kernel,
    fun tr₁ hinit => ?_⟩
  · have hall : ((actions.take 18).all fun a => match a with
        | .open _ _ owner => decide (owner ∈ holders)
        | _ => true) = true := by decide +kernel
    exact of_decide_eq_true (List.all_eq_true.mp hall _ hopen)
  · have hall : ((actions.take 18).all fun a => a.seizure vaultKey == 0) = true := by
      decide +kernel
    rw [hvault]
    exact beq_iff_eq.mp (List.all_eq_true.mp hall a ha)
  · have hall : ((List.range 19).all fun n => decide (∀ owner ∈ holders,
        credited (mirrorRun Sample.host naming seriesKey genesis ((actions.take 18).take n))
          (naming.account owner) ≤ U64_MAX)) = true := by decide +kernel
    have hlength : tr₁.length < 19 := Nat.lt_succ_of_le hinit.length_le
    rw [List.prefix_iff_eq_take.mp hinit]
    exact of_decide_eq_true (List.all_eq_true.mp hall _ (List.mem_range.mpr hlength))

/-- The year once more, with a clock far past its end. -/
def late : List Action :=
  actions.take 9 ++
    [.tick ⟨20, 9007199254740992⟩,
     .instruction (.refreshObservation ⟨attestor, assetKey, mintKey⟩ evidence 9007199254741092),
     .instruction (.beginFinalization stage 1 journalHash evidence),
     .instruction (.accumulateEvent fold)]

end Sample

namespace World

/-- In the sample year the reference takes eight calls. -/
theorem refines_reference_sample : ∃ s s₀ x, (Sample.world 18).series Sample.seriesKey = some s ∧
    AnnualReferenceModel.new Sample.naming.term (Sample.holders.map Sample.naming.account) =
      .ok s₀ ∧
    (mirrorRun Sample.host Sample.naming Sample.seriesKey Sample.genesis
      (Sample.actions.take 18)).length = 8 ∧
    Method.replay ExactOperation.apply ⟨s₀, ∅⟩ (mirrorRun Sample.host Sample.naming
      Sample.seriesKey Sample.genesis (Sample.actions.take 18)) = some x ∧
    Reconciled (Sample.world 18) Sample.seriesKey s x := by
  obtain ⟨s, hs, -⟩ := @Sample.series_of_any 18 (fun _ => true) (by decide +kernel)
  have hnew : (AnnualReferenceModel.new Sample.naming.term
      (Sample.holders.map Sample.naming.account)).toOption.isSome = true := by decide +kernel
  obtain ⟨s₀, hs₀⟩ := Option.isSome_iff_exists.mp hnew
  have hok := Result.toOption_eq_some.mp hs₀
  obtain ⟨x, hreplay, hreconciled⟩ := refines_reference (Sample.history 18) hs
    Sample.naming_proper hok (Sample.watched hs)
  exact ⟨s, s₀, x, hs, hok, by decide +kernel, hreplay, hreconciled⟩

/-- Two things the chain accepts and the reference refuses: a burn of nothing, and a completion at a
time that is no safe integer. -/
theorem reference_refuses :
    (∃ w w', History Sample.host Sample.genesis (Sample.actions.take 8) w ∧
      w.act Sample.host (.burn (.pt Sample.seriesKey) Sample.holderPt (.wallet Sample.holder) 0) =
        some w' ∧
      ∀ x id side answer x', ExactOperation.apply (.burn id side 0) x ≠ (.ok answer, x')) ∧
    ∃ w w', History Sample.host Sample.genesis Sample.late w ∧
      w.act Sample.host (.instruction (.completeFinalization Sample.finish)) = some w' ∧
      ∀ x answer x', ExactOperation.apply (.finalize w.clock.unixTimestamp.toInt true) x ≠
        (.ok answer, x') := by
  refine ⟨?_, ?_⟩
  · have hburn : ((Sample.world 8).act Sample.host (.burn (.pt Sample.seriesKey) Sample.holderPt
        (.wallet Sample.holder) 0)).isSome = true := by decide +kernel
    obtain ⟨w', hw'⟩ := Option.isSome_iff_exists.mp hburn
    refine ⟨_, w', Sample.history 8, hw', fun x id side answer x' h => ?_⟩
    obtain ⟨s', hburned⟩ : ∃ s', AnnualReferenceModel.burn id side 0 x.base = (.ok (), s') := by
      have happly : ((Operation.burn id side 0).apply x.base).1 = .ok answer :=
        congrArg Prod.fst h
      have hpair : (Operation.burn id side 0).apply x.base =
          (.ok answer, ((Operation.burn id side 0).apply x.base).2) := Prod.ext happly rfl
      obtain ⟨_, hburned, -⟩ := bind_pure_eq_ok.mp hpair
      exact ⟨_, hburned⟩
    obtain ⟨account, -, hrest⟩ := Method.check_bind_eq_ok.mp hburned
    obtain ⟨amount, hamount, -⟩ := Method.check_bind_eq_ok.mp hrest
    exact absurd ((AnnualReferenceModel.checkedRaw_eq_ok hamount).2.2.1 rfl) (lt_irrefl 0)
  · have hrun : (runAll (World.act Sample.host) Sample.genesis Sample.late).any (fun w =>
        (w.act Sample.host (.instruction (.completeFinalization Sample.finish))).isSome
          ∧ w.clock.unixTimestamp.toInt = 2 ^ 53) = true := by decide +kernel
    obtain ⟨w, hw, hfacts⟩ := (Option.any_eq_true ..).mp hrun
    obtain ⟨hcomplete, hclock⟩ := of_decide_eq_true hfacts
    obtain ⟨w', hw'⟩ := Option.isSome_iff_exists.mp hcomplete
    refine ⟨w, w', ⟨Sample.genesis_genesis, runAll_eq_some.mp hw⟩, hw', fun x answer x' h => ?_⟩
    rw [hclock] at h
    obtain ⟨f, hfinalize, -⟩ := bind_pure_eq_ok.mp h
    -- the time is looked at first
    have hrefused : (ExactReferenceModel.finalize (2 ^ 53) true x).1 = .error ⟨.invalidTime,
        "nowSeconds must be a non-negative integer UTC timestamp"⟩ := rfl
    rw [hfinalize] at hrefused
    cases hrefused

end World

end DividendX
