import DividendX.Journal
import DividendX.Portfolio
import DividendX.Sdk.EventInputs
import DividendX.Sdk.ReferenceEffects

/-!
# A run of the program as calls of the reference

Which calls of the accounting reference an action of the chain stands for, and the answers that the
chain gives to them (`mirror`), along a whole run (`mirrorRun`). Both are functions of what is on
chain, so they can be evaluated.

The reference knows holders, not token accounts, and takes texts where the chain has keys, digests
and packed dates. A `Naming` says which texts. Transfers between accounts of one holder, transfers,
burns and donations of nothing, and the stages of finalization before the last are no calls.
-/

namespace DividendX

open AnnualReference Binary64

/-! ## Names -/

/-- How things on chain are called in the reference. -/
structure Naming where
  term : AnnualTermIdentity
  account : Pubkey → String
  event : Bytes32 → String

/-- Event ids have names of their own, that the reference takes. -/
structure Naming.Proper (N : Naming) : Prop where
  injective : Function.Injective N.event
  text : ∀ id, textLength (N.event id) ≠ 0 ∧ textLength (N.event id) ≤ MAX_TEXT_LENGTH

/-- The side in the reference. -/
def RedeemSide.claim : RedeemSide → AnnualClaimSide
  | .pt => .pt
  | .dr => .dr

theorem RedeemSide.claim_injective {side side' : RedeemSide} (h : side.claim = side'.claim) :
    side = side' := by
  cases side <;> cases side' <;> first | rfl | cases h

/-- A claim mint of the series, by side. -/
def sideOf (k mint : Pubkey) : Option RedeemSide :=
  if mint = claimMintOf k .pt then some .pt
  else if mint = claimMintOf k .dr then some .dr
  else none

/-- A claim mint says which side it is. -/
theorem sideOf_eq_some {k mint : Pubkey} {side : RedeemSide} :
    sideOf k mint = some side ↔ mint = claimMintOf k side := by
  rw [sideOf]
  cases side with
  | pt => simp
  | dr =>
    have hne : claimMintOf k .dr ≠ claimMintOf k .pt := fun heq =>
      nomatch (claimMintOf_injective heq).2
    split
    · rename_i heq
      simp [heq, hne.symm]
    · simp

/-! ## Dates -/

/-- The last decimal digit of a number. -/
def lastDigit (n : Nat) : Char := Char.ofNat (48 + n % 10)

/-- A packed date as `YYYY-MM-DD`. -/
def civilText (date : UInt32) : String :=
  let n := date.toNat
  String.ofList [lastDigit (n / 10000000), lastDigit (n / 1000000), lastDigit (n / 100000),
    lastDigit (n / 10000), '-', lastDigit (n / 1000), lastDigit (n / 100), '-', lastDigit (n / 10),
    lastDigit n]

/-- The last digit is one, and worth its rest. -/
theorem lastDigit_spec (n : Nat) :
    (lastDigit n).isDigit = true ∧ (lastDigit n).toNat - '0'.toNat = n % 10 := by
  have hall : ∀ d < 10, (Char.ofNat (48 + d)).isDigit = true ∧
      (Char.ofNat (48 + d)).toNat - '0'.toNat = d := by decide
  exact hall (n % 10) (Nat.mod_lt _ (by decide))

/-- Years of four digits come back from their text. -/
theorem ofDigits_year {n : Nat} (h : n / 10000 < 10000) :
    ofDigits [lastDigit (n / 10000000), lastDigit (n / 1000000), lastDigit (n / 100000),
      lastDigit (n / 10000)] = n / 10000 := by
  simp only [ofDigits, List.foldl_cons, List.foldl_nil, (lastDigit_spec _).2]
  omega

theorem ofDigits_pair (m : Nat) : ofDigits [lastDigit (m / 10), lastDigit m] = m % 100 := by
  simp only [ofDigits, List.foldl_cons, List.foldl_nil, (lastDigit_spec _).2]
  omega

/-- Both know the same months. -/
theorem lastDay_eq (year month : Nat) :
    AnnualReference.lastDay year month = Devnet.Instant.lastDay
      (Devnet.Instant.inLeapYear year) month := by
  have hleap : Devnet.Instant.inLeapYear year = true ↔
      year % 4 = 0 ∧ (year % 100 ≠ 0 ∨ year % 400 = 0) := by
    simp only [Devnet.Instant.inLeapYear, decide_eq_true_eq]
    omega
  simp only [AnnualReference.lastDay, Devnet.Instant.lastDay, hleap]

/-- An admitted date is one for the reference, in the same year. -/
theorem civilText_spec {date : UInt32} {parts : UInt16 × UInt8 × UInt8}
    (h : parseCivilDate date = .ok parts) : validCivilDate (civilText date) = true ∧
      civilYear (civilText date) = (date.toNat / 10000 : Nat) := by
  obtain ⟨⟨hlo, hhi⟩, hmonth, hday⟩ := Sdk.parseCivilDate_iff.mp ⟨parts, h⟩
  rw [← lastDay_eq] at hday
  have hyear := ofDigits_year (n := date.toNat) (by omega)
  have hm := ofDigits_pair (date.toNat / 100)
  have hd := ofDigits_pair date.toNat
  rw [Nat.div_div_eq_div_mul] at hm
  refine ⟨?_, ?_⟩
  · rw [validCivilDate, civilText]
    simp only [String.toList_ofList, hyear, hm, hd, List.all_cons,
      List.all_nil, (lastDigit_spec _).1, Bool.true_and, Bool.and_true, decide_eq_true_eq]
    exact ⟨by omega, hmonth.1, hmonth.2, hday⟩
  · rw [civilYear, civilText]
    simp only [String.toList_ofList, List.take_succ_cons, List.take_zero, hyear]

/-! ## Events -/

/-- The status of a record by its code. -/
def statusOf (status : UInt8) : AnnualEventStatus :=
  if status = STATUS_PENDING then .pending
  else if status = STATUS_QUALIFIED then .qualified
  else if status = STATUS_CONFIRMED_ZERO then .confirmedZero
  else if status = STATUS_CANCELLED then .cancelled
  else .unsupported

/-- A multiplier as the exact fraction of its bits. Records that are not qualified carry none on
chain; the reference wants a positive number there, which it does not use. -/
def multiplierOf (status : UInt8) (bits : UInt64) : RationalIndex :=
  if status = STATUS_QUALIFIED then Fraction.ofRat (value bits) else ⟨1, 1⟩

/-- The record of an input. -/
def Naming.record (N : Naming) (input : EventInput) : ExactEvent :=
  { id := N.event input.eventId
    revision := input.revision.toNat
    chain := N.term.chain
    issuer := N.term.issuer
    mint := N.term.mint
    exDate := if input.exDate = 0 then none else some (civilText input.exDate)
    status := statusOf input.status
    m0 := multiplierOf input.status input.m0Bits
    m1 := multiplierOf input.status input.m1Bits
    finalized := input.sourceFinal }

/-- Only the code of qualified means it. -/
theorem statusOf_eq_qualified {status : UInt8} : statusOf status = .qualified ↔
    status = STATUS_QUALIFIED := by
  rw [statusOf]
  constructor
  · intro h
    split_ifs at h with h1 h2
    exact h2
  · rintro rfl
    decide

theorem statusOf_of_resolved {input : EventInput} (h : input.isResolved = true) :
    ¬ (statusOf input.status = .pending ∨ statusOf input.status = .unsupported) := by
  simp only [EventInput.isResolved, Bool.and_eq_true, Bool.or_eq_true, beq_iff_eq] at h
  rcases h.1.1 with (hq | hz) | hc
  · rw [hq]; decide
  · rw [hz]; decide
  · rw [hc]; decide

/-- The record of an input that was validated passes the reference's own checks on its fields. -/
structure Naming.Passes (N : Naming) (input : EventInput) : Prop where
  date : ∀ exDate ∈ (N.record input).exDate, validCivilDate exDate = true
  positive : (N.record input).Positive
  rise : ¬ AnnualReference.compare (N.record input).m1 (N.record input).m0 < 0

/-- **What the program validates** the reference takes. -/
theorem Naming.passes (N : Naming) {input : EventInput} {year : UInt16} {clock : Clock}
    {flags : Bool × Bool} (h : validateEventInput input year clock = .ok flags) :
    N.Passes input := by
  obtain ⟨-, -, -, hdate, -, hfactor, -⟩ := Sdk.exists_validateEventInput_iff.mp ⟨flags, h⟩
  refine ⟨fun exDate hexDate => ?_, fun m hm => ?_, ?_⟩
  · simp only [record] at hexDate
    split at hexDate
    · cases hexDate
    · rename_i hne
      obtain ⟨parts, hparts⟩ := ((Sdk.validCivilDate_iff _).mp hdate).resolve_left hne
      cases hexDate
      exact (civilText_spec hparts).1
  · simp only [record, multiplierOf] at hm
    split at hm
    · rename_i hq
      rw [if_pos hq] at hfactor
      simp only [List.mem_cons, List.not_mem_nil, or_false] at hm
      rcases hm with rfl | rfl
      · exact ⟨Rat.num_pos.mpr hfactor.1.positiveNormal.value_pos, Fraction.denominator_ofRat_pos _⟩
      · exact ⟨Rat.num_pos.mpr hfactor.2.1.positiveNormal.value_pos,
          Fraction.denominator_ofRat_pos _⟩
    · simp only [List.mem_cons, List.not_mem_nil, or_false, or_self] at hm
      rw [hm]
      decide
  · simp only [record, multiplierOf]
    split
    · rename_i hq
      rw [if_pos hq] at hfactor
      have hle :=
        (hfactor.1.positiveNormal.le_iff_value_le hfactor.2.1.positiveNormal).mp hfactor.2.2
      rw [AnnualReference.compare, Fraction.compare_lt_zero (Fraction.denominator_ofRat_pos _)
        (Fraction.denominator_ofRat_pos _), Fraction.value_ofRat, Fraction.value_ofRat]
      exact not_lt.mpr hle
    · decide

/-- A resolved record contributes the same factor on both sides. -/
theorem Naming.factor_record (N : Naming) {input : EventInput} {year : UInt16} {clock : Clock}
    {flags : Bool × Bool} (hyear : N.term.year = year.toNat)
    (h : validateEventInput input year clock = .ok flags) (hresolved : input.isResolved = true) :
    (N.record input).factor N.term.year =
      if input.counts year then value input.m0Bits / value input.m1Bits else 1 := by
  obtain ⟨-, -, -, hdate, -⟩ := Sdk.exists_validateEventInput_iff.mp ⟨flags, h⟩
  have hne : input.exDate ≠ 0 := by
    simp only [EventInput.isResolved, Bool.and_eq_true, bne_iff_ne] at hresolved
    exact hresolved.2
  obtain ⟨parts, hparts⟩ := ((Sdk.validCivilDate_iff _).mp hdate).resolve_left hne
  have hexDate : (N.record input).exDate = some (civilText input.exDate) := if_neg hne
  have hstatus : (N.record input).status = .qualified ↔ input.status = STATUS_QUALIFIED :=
    statusOf_eq_qualified
  have hin : isInYear input.exDate year = true ↔
      civilYear (civilText input.exDate) = N.term.year := by
    rw [(civilText_spec hparts).2, hyear, isInYear, beq_iff_eq, ← UInt32.toNat_inj,
      UInt32.toNat_div, UInt16.toNat_toUInt32]
    exact Int.ofNat_inj.symm
  have hskip : (civilYear (civilText input.exDate) ≠ N.term.year ∨
      (N.record input).status ≠ .qualified) ↔ ¬ input.counts year = true := by
    rw [ne_eq, ne_eq, hstatus, ← hin]
    simp only [EventInput.counts, hresolved, Bool.true_and, Bool.and_eq_true, beq_iff_eq]
    tauto
  rw [ExactEvent.factor]
  rw [hexDate]
  dsimp only
  by_cases hcounts : input.counts year = true
  · have hq : input.status = STATUS_QUALIFIED := by
      simp only [EventInput.counts, Bool.and_eq_true, beq_iff_eq] at hcounts
      exact hcounts.1.2
    rw [if_neg (fun h => hskip.mp h hcounts), if_pos hcounts]
    simp only [record, multiplierOf, if_pos hq, Fraction.value_ofRat]
  · rw [if_pos (hskip.mpr hcounts), if_neg hcounts]

/-- What `finalize` asks of an event is what makes a record resolved. -/
theorem Naming.closable_record (N : Naming) {input : EventInput} (h : input.isResolved = true) :
    (N.record input).Closable := by
  have hparts := h
  simp only [EventInput.isResolved, Bool.and_eq_true, bne_iff_ne] at hparts
  refine ⟨?_, hparts.1.2, statusOf_of_resolved h⟩
  simp only [record, if_neg hparts.2]
  intro hnone
  cases hnone

/-! ## Calls -/

/-- The snapshot a finalized series stands for. -/
def Books.snapshot (b : Books) : AnnualFinalSnapshot :=
  { accountableRaw := b.series.nominalBacking.toNat
    index := Fraction.lowest ⟨LittleEndian.ofBytes b.accumulator.numerator,
      LittleEndian.ofBytes b.accumulator.denominator⟩
    ptPoolRaw := b.series.ptPool.toNat
    drPoolRaw := b.series.drPool.toNat
    supplyDenominatorRaw := b.series.finalSupply.toNat }

/-- The latest record of the event has this revision number. -/
def Books.repeats (b : Books) (input : EventInput) : Bool :=
  (b.heads input.eventId).any fun head => head.latestRevision == input.revision

/-- A call of the reference with the answer that is expected. -/
abbrev Call : Type := ExactOperation × Returned

/-- The calls an accepted action stands for: `w` and `b` are the chain and the books of the series
before it, `b'` the books after it. -/
def calls (N : Naming) (k : Pubkey) (w : World) (b b' : Books) : Action → List Call
  | .instruction (.deposit acc amount _) =>
    if acc.series = k then
      [(.deposit (N.account (.wallet acc.holder)) amount.toNat w.clock.unixTimestamp.toInt,
        .nothing)]
    else []
  | .instruction (.recombine acc amount _) =>
    if acc.series = k then [(.recombine (N.account (.wallet acc.holder)) amount.toNat, .nothing)]
    else []
  | .instruction (.upsertEvent acc input) =>
    if acc.series = k then
      [(.recordEvent (N.record input),
        .recorded (if b.repeats input then .idempotent else .accepted))]
    else []
  | .instruction (.completeFinalization acc) =>
    if acc.series = k then
      [(.finalize w.clock.unixTimestamp.toInt true, .snapshot b'.snapshot)]
    else []
  | .instruction (.redeem acc side amount allowZero _) =>
    if acc.series = k then
      [(.redeem (N.account (.wallet acc.holder)) side.claim amount.toNat allowZero,
        .payout ((b.vault : Int) - b'.vault))]
    else []
  | .transfer mint source destination _ amount _ =>
    match sideOf k mint, w.bank.ownerOf source, w.bank.ownerOf destination with
    | some side, some owner, some owner' =>
      if amount = 0 ∨ owner = owner' then []
      else [(.transfer (N.account owner) (N.account owner') side.claim amount.toNat, .nothing)]
    | _, _, _ => []
  | .burn mint source _ amount =>
    match sideOf k mint, w.bank.ownerOf source with
    | some side, some owner =>
      if amount = 0 then []
      else [(.burn (N.account owner) side.claim amount.toNat, .nothing)]
    | _, _ => []
  | .donate vault amount =>
    if vault = b.series.vault ∧ amount ≠ 0 then [(.donate amount.toNat, .nothing)] else []
  | _ => []

/-- The same, read off the chain; nothing before the series exists. -/
def mirror (N : Naming) (k : Pubkey) (w w' : World) (a : Action) : List Call :=
  match w.books k, w'.books k with
  | some b, some b' => calls N k w b b' a
  | _, _ => []

/-- The calls a run stands for. -/
def mirrorRun (host : Host) (N : Naming) (k : Pubkey) : World → List Action → List Call
  | _, [] => []
  | w, a :: tr =>
    (w.act host a).elim [] fun w' => mirror N k w w' a ++ mirrorRun host N k w' tr

/-- One more action is mapped after those before it. -/
theorem mirrorRun_snoc {host : Host} {N : Naming} {k : Pubkey} {w w' w'' : World} {tr : List Action}
    {a : Action} (hrun : Run (World.act host) w tr w') (ha : w'.act host a = some w'') :
    mirrorRun host N k w (tr ++ [a]) = mirrorRun host N k w tr ++ mirror N k w' w'' a := by
  induction tr generalizing w with
  | nil =>
    obtain rfl : w' = w := hrun.functional .nil
    simp [mirrorRun, ha]
  | cons a₁ tr ih =>
    obtain ⟨w₁, hfirst, hrest⟩ := hrun.uncons
    rw [List.cons_append, mirrorRun, mirrorRun, hfirst, Option.elim_some,
      Option.elim_some, ih hrest, List.append_assoc]

/-- What a call and its answer credit an account with. -/
def Call.credit (id : String) : Call → Int
  | (.recombine accountId raw, _) => if accountId = id then raw else 0
  | (.redeem accountId _ _ _, .payout payout) => if accountId = id then payout else 0
  | _ => 0

/-- The collateral that calls credit an account with. -/
def credited (calls : List Call) (id : String) : Int := (calls.map (Call.credit id)).sum

/-- Credits add up over the calls. -/
theorem credited_append (calls calls' : List Call) (id : String) :
    credited (calls ++ calls') id = credited calls id + credited calls' id := by
  rw [credited, List.map_append, List.sum_append]
  rfl

end DividendX
