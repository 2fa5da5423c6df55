import DividendX.Sdk.AnnualInvariants

/-!
# The reference without limits on texts and revisions

The reference takes multipliers as decimals of at most 64 characters and revisions as safe integers.
The program takes binary64 multipliers and 64-bit revisions, so for a comparison of the two those
two limits are lifted: here an event carries its multipliers as fractions. Everything else is the
reference itself, its operations run on the part without the journal (`lift`).

`Operation.apply_exact` says that nothing else was changed: what the reference accepts, the lifted
one accepts with the same result.
-/

namespace DividendX

namespace AnnualReference

open Method AnnualReferenceModel

/-! ## Data -/

/-- `AnnualEventRecord`, with fractions for multipliers. -/
structure ExactEvent where
  id : String
  revision : Int
  chain : String
  issuer : String
  mint : String
  exDate : Option String
  status : AnnualEventStatus
  m0 : RationalIndex
  m1 : RationalIndex
  finalized : Bool
deriving DecidableEq

/-- The reference with such events. The journal of `base` stays empty. -/
structure ExactReferenceModel where
  base : AnnualReferenceModel
  journal : Record String ExactEvent
deriving DecidableEq

namespace ExactReferenceModel

/-- A method of the lifted reference. -/
abbrev Operate : Type → Type := Method ExactReferenceModel AnnualReferenceError

/-- A method that does not look at the journal. -/
def lift {α : Type} (m : AnnualReferenceModel.Operate α) : Operate α := fun s =>
  ((m s.base).1, { s with base := (m s.base).2 })

/-- One turn of `currentIndex`. -/
def multiplyEvent (year : Int) (index : RationalIndex) (event : ExactEvent) :
    Thrown RationalIndex :=
  match event.exDate with
  | none => .ok index
  | some exDate =>
    if civilYear exDate ≠ year ∨ event.status ≠ .qualified then .ok index
    else reduce (index.numerator * event.m0.numerator * event.m1.denominator)
      (index.denominator * event.m0.denominator * event.m1.numerator)

/-- `currentIndex`. -/
def currentIndex (s : ExactReferenceModel) : Thrown RationalIndex :=
  (s.journal.entries.map Prod.snd).foldlM (multiplyEvent s.base.term.year) ⟨1, 1⟩

/-- `previewAllocation`. -/
def previewAllocation (s : ExactReferenceModel) : Thrown AnnualAllocation :=
  match s.base.snapshot with
  | some snapshot => .ok snapshot.toAnnualAllocation
  | none => do
    let index ← s.currentIndex
    let drPoolRaw :=
      (s.base.accountableRaw * (index.denominator - index.numerator)).tdiv index.denominator
    return { accountableRaw := s.base.accountableRaw, index := index
             ptPoolRaw := s.base.accountableRaw - drPoolRaw, drPoolRaw := drPoolRaw }

/-- A multiplier that a positive decimal could stand for. -/
def positive (m : RationalIndex) : Thrown RationalIndex := do
  demand (0 < m.numerator ∧ 0 < m.denominator) .invalidEvent "Multiplier must be positive"
  return m

/-- `validateEvent`. -/
def validateEvent (s : ExactReferenceModel) (input : ExactEvent) : Thrown ExactEvent := do
  let id ← checkedText input.id "Event ID"
  demand (¬ input.revision < 0) .invalidEvent "Event revision must be a non-negative integer"
  let chain ← checkedText input.chain "Event chain"
  let issuer ← checkedText input.issuer "Event issuer"
  let mint ← checkedText input.mint "Event mint"
  demand (chain = s.base.term.chain ∧ issuer = s.base.term.issuer ∧ mint = s.base.term.mint)
    .invalidEvent "Event identity does not match the annual series"
  demand (∀ exDate ∈ input.exDate, validCivilDate exDate = true) .invalidEvent
    "exDate must be a valid exchange civil date in YYYY-MM-DD form"
  let m0 ← positive input.m0
  let m1 ← positive input.m1
  demand (¬ (compare m1 m0 < 0 ∧ input.status ≠ .pending ∧ input.status ≠ .unsupported))
    .invalidEvent "A multiplier decrease must be rejected or quarantined as unsupported"
  return { input with id := id, chain := chain, issuer := issuer, mint := mint }

/-- `recordEvent`. -/
def recordEvent (input : ExactEvent) : Operate Recorded := do
  let s ← this
  check (demand (s.base.snapshot = none) .postFinalizedAmendment
    "Finalized pools cannot be repriced")
  let record ← check (s.validateEvent input)
  match s.journal.get? record.id with
  | some previous =>
    if record = previous then pure .idempotent
    else do
      check (demand (¬ record.revision ≤ previous.revision) .revisionConflict
        "Event correction must have a strictly higher revision")
      assign fun s => { s with journal := s.journal.set record.id record }
      pure .accepted
  | none => do
    check (demand (¬ MAX_EVENT_IDS ≤ s.journal.entries.length) .eventLimit
      "Annual journal supports at most 64 unique event IDs")
    assign fun s => { s with journal := s.journal.set record.id record }
    pure .accepted

/-- The journal's part of `finalize`, for one event. -/
def closable (event : ExactEvent) : Thrown Unit := do
  demand (event.exDate ≠ none) .incompleteJournal
    ("Event " ++ event.id ++ " has no validated ex-date")
  demand (event.finalized = true) .incompleteJournal ("Event " ++ event.id ++ " is not final")
  demand (¬ (event.status = .pending ∨ event.status = .unsupported)) .incompleteJournal
    ("Event " ++ event.id ++ " remains " ++ event.status.text)

/-- `finalize`. -/
def finalize (nowSeconds : Int) (ledgerComplete : Bool) : Operate AnnualFinalSnapshot := do
  let s ← this
  let now ← check (checkedNow nowSeconds)
  check (demand (s.base.snapshot = none) .finalized "Series is already finalized")
  check (demand (¬ now < s.base.maturitySeconds) .notMature
    "Annual series has not reached maturity")
  check (demand (ledgerComplete = true) .incompleteJournal
    "A complete journal attestation is required")
  check ((s.journal.entries.map Prod.snd).forM closable)
  check s.base.requireCustodyAvailable
  let allocation ← check s.previewAllocation
  let snapshot : AnnualFinalSnapshot :=
    { allocation with supplyDenominatorRaw := s.base.accountableRaw }
  assign fun s => { s with base := { s.base with
    snapshot := some snapshot
    remainingPtPoolRaw := snapshot.ptPoolRaw
    remainingDrPoolRaw := snapshot.drPoolRaw } }
  pure snapshot

end ExactReferenceModel

/-- An operation with its arguments. -/
inductive ExactOperation
  | deposit (accountId : String) (raw nowSeconds : Int)
  | recordEvent (input : ExactEvent)
  | transfer (fromId toId : String) (side : AnnualClaimSide) (raw : Int)
  | recombine (accountId : String) (raw : Int)
  | burn (accountId : String) (side : AnnualClaimSide) (raw : Int)
  | finalize (nowSeconds : Int) (ledgerComplete : Bool)
  | redeem (accountId : String) (side : AnnualClaimSide) (raw : Int) (allowZero : Bool)
  | donate (raw : Int)

open ExactReferenceModel in
/-- Carry an operation out. -/
def ExactOperation.apply : ExactOperation → ExactReferenceModel.Operate Returned
  | .deposit accountId raw nowSeconds => lift ((Operation.deposit accountId raw nowSeconds).apply)
  | .recordEvent input => do
    let r ← ExactReferenceModel.recordEvent input
    pure (.recorded r)
  | .transfer fromId toId side raw => lift ((Operation.transfer fromId toId side raw).apply)
  | .recombine accountId raw => lift ((Operation.recombine accountId raw).apply)
  | .burn accountId side raw => lift ((Operation.burn accountId side raw).apply)
  | .finalize nowSeconds ledgerComplete => do
    let f ← ExactReferenceModel.finalize nowSeconds ledgerComplete
    pure (.snapshot f)
  | .redeem accountId side raw allowZero =>
    lift ((Operation.redeem accountId side raw allowZero).apply)
  | .donate raw => lift ((Operation.donate raw).apply)

/-! ## Nothing else was changed -/

/-- A record with its decimals read. -/
def AnnualEventRecord.exact (e : AnnualEventRecord) : Thrown ExactEvent := do
  let m0 ← parsePositiveDecimal e.m0
  let m1 ← parsePositiveDecimal e.m1
  return { id := e.id, revision := e.revision, chain := e.chain, issuer := e.issuer, mint := e.mint
           exDate := e.exDate, status := e.status, m0 := m0, m1 := m1, finalized := e.finalized }

/-- An operation with its decimals read. The two operations of a host that watches custody have no
counterpart. -/
def Operation.exact : Operation → Option ExactOperation
  | .deposit accountId raw nowSeconds => some (.deposit accountId raw nowSeconds)
  | .recordEvent input => input.exact.toOption.map .recordEvent
  | .transfer fromId toId side raw => some (.transfer fromId toId side raw)
  | .recombine accountId raw => some (.recombine accountId raw)
  | .burn accountId side raw => some (.burn accountId side raw)
  | .finalize nowSeconds ledgerComplete => some (.finalize nowSeconds ledgerComplete)
  | .redeem accountId side raw allowZero => some (.redeem accountId side raw allowZero)
  | .donate raw => some (.donate raw)
  | .setCustodyBlocked _ => none
  | .reportActualCustody _ => none

/-- A model without its journal. -/
def AnnualReferenceModel.forget (s : AnnualReferenceModel) : AnnualReferenceModel :=
  { s with events := ∅ }

/-- The same model, with decimals read. -/
structure Embeds (s : AnnualReferenceModel) (x : ExactReferenceModel) : Prop where
  base : x.base = s.forget
  journal : Record.Related (fun e e' => e.exact = .ok e') s.events x.journal

/-- A method that neither reads nor writes the journal. -/
def Blind {α : Type} (m : AnnualReferenceModel.Operate α) : Prop :=
  ∀ s, m s.forget = ((m s).1, (m s).2.forget) ∧ (m s).2.events = s.events

namespace Blind

variable {α β : Type} {m : AnnualReferenceModel.Operate α} {f : α → AnnualReferenceModel.Operate β}

/-- A value does not look at the events. -/
theorem pure (a : α) : Blind (Pure.pure a : AnnualReferenceModel.Operate α) := fun _ => ⟨rfl, rfl⟩

/-- A check that does not look at the events. -/
theorem check {c : Thrown α} (hf : ∀ a, c = .ok a → Blind (f a)) :
    Blind (Method.check c >>= f) := by
  intro s
  cases c with
  | ok a => exact hf a rfl s
  | error e => exact ⟨rfl, rfl⟩

/-- An assignment that leaves the events. -/
theorem assign {g : AnnualReferenceModel → AnnualReferenceModel}
    {f : Unit → AnnualReferenceModel.Operate β}
    (hg : ∀ s, g s.forget = (g s).forget ∧ (g s).events = s.events)
    (hf : Blind (f ())) : Blind (Method.assign g >>= f) := by
  intro s
  obtain ⟨hforget, hevents⟩ := hf (g s)
  refine ⟨?_, hevents.trans (hg s).2⟩
  change f () (g s.forget) = _
  rw [(hg s).1]
  exact hforget

/-- The last assignment. -/
theorem done {g : AnnualReferenceModel → AnnualReferenceModel}
    (hg : ∀ s, g s.forget = (g s).forget ∧ (g s).events = s.events) :
    Blind (Method.assign g : AnnualReferenceModel.Operate Unit) := by
  intro s
  refine ⟨?_, (hg s).2⟩
  change (_, g s.forget) = _
  rw [(hg s).1]
  rfl

/-- What is read first does not depend on the journal. -/
theorem this {f : AnnualReferenceModel → AnnualReferenceModel.Operate β}
    (hread : ∀ s, f s.forget = f s) (hf : ∀ s, Blind (f s)) : Blind (Method.this >>= f) := by
  intro s
  obtain ⟨hforget, hevents⟩ := hf s s
  refine ⟨?_, hevents⟩
  change f s.forget s.forget = _
  rw [hread]
  exact hforget

theorem bind_pure {g : α → β} (hm : Blind m) : Blind (m >>= fun a => Pure.pure (g a)) := by
  intro s
  obtain ⟨hforget, hevents⟩ := hm s
  simp only [bind, hforget]
  cases hs : m s with
  | mk r s' =>
    rw [hs] at hevents
    cases r with
    | ok a => exact ⟨rfl, hevents⟩
    | error e => exact ⟨rfl, hevents⟩

end Blind

namespace AnnualReferenceModel

/-- A deposit does not look at the events. -/
theorem deposit_blind (accountId : String) (raw nowSeconds : Int) :
    Blind (deposit accountId raw nowSeconds) := by
  refine .this (fun _ => rfl) fun s => ?_
  refine .check fun _ _ => .check fun _ _ => .check fun _ _ => .check fun _ _ => .check fun _ _ =>
    .check fun _ _ => .check fun _ _ => .check fun _ _ => .check fun _ _ => .check fun _ _ =>
    .check fun _ _ => .check fun _ _ => ?_
  exact .assign (fun _ => ⟨rfl, rfl⟩) (.assign (fun _ => ⟨rfl, rfl⟩) (.assign (fun _ => ⟨rfl, rfl⟩)
    (.assign (fun _ => ⟨rfl, rfl⟩) (.done fun _ => ⟨rfl, rfl⟩))))

/-- Nor does a transfer. -/
theorem transfer_blind (fromId toId : String) (side : AnnualClaimSide) (raw : Int) :
    Blind (transfer fromId toId side raw) := by
  refine .this (fun _ => rfl) fun s => ?_
  refine .check fun _ _ => .check fun _ _ => .check fun _ _ => .check fun _ _ => .check fun _ _ =>
    .check fun _ _ => ?_
  exact .assign (fun _ => ⟨rfl, rfl⟩) (.done fun _ => ⟨rfl, rfl⟩)

/-- Nor a recombination. -/
theorem recombine_blind (accountId : String) (raw : Int) : Blind (recombine accountId raw) := by
  refine .this (fun _ => rfl) fun s => ?_
  refine .check fun _ _ => .check fun _ _ => .check fun _ _ => .check fun _ _ => .check fun _ _ =>
    .check fun _ _ => ?_
  exact .assign (fun _ => ⟨rfl, rfl⟩) (.assign (fun _ => ⟨rfl, rfl⟩) (.assign (fun _ => ⟨rfl, rfl⟩)
    (.assign (fun _ => ⟨rfl, rfl⟩) (.done fun _ => ⟨rfl, rfl⟩))))

/-- Nor a burn. -/
theorem burn_blind (accountId : String) (side : AnnualClaimSide) (raw : Int) :
    Blind (burn accountId side raw) := by
  refine .this (fun _ => rfl) fun s => .check fun _ _ => .check fun _ _ => .check fun _ _ =>
    .assign (fun _ => ⟨rfl, rfl⟩) ?_
  cases side with
  | pt => exact .assign (fun _ => ⟨rfl, rfl⟩) (.check fun _ _ => .done fun _ => ⟨rfl, rfl⟩)
  | dr => exact .assign (fun _ => ⟨rfl, rfl⟩) (.check fun _ _ => .done fun _ => ⟨rfl, rfl⟩)

/-- Nor a redemption. -/
theorem redeem_blind (accountId : String) (side : AnnualClaimSide) (raw : Int) (allowZero : Bool) :
    Blind (redeem accountId side raw allowZero) := by
  refine .this (fun _ => rfl) fun s => .check fun _ _ => .check fun _ _ => .check fun _ _ =>
    .check fun _ _ => .check fun _ _ => .check fun _ _ => ?_
  cases side with
  | pt =>
    exact .check fun _ _ =>
        .assign (fun _ => ⟨rfl, rfl⟩) (.assign (fun _ => ⟨rfl, rfl⟩) (.check fun _ _ =>
      .assign (fun _ => ⟨rfl, rfl⟩) (.assign (fun _ => ⟨rfl, rfl⟩) (.assign (fun _ => ⟨rfl, rfl⟩)
        (.assign (fun _ => ⟨rfl, rfl⟩) (.pure _))))))
  | dr =>
    exact .check fun _ _ =>
        .assign (fun _ => ⟨rfl, rfl⟩) (.assign (fun _ => ⟨rfl, rfl⟩) (.check fun _ _ =>
      .assign (fun _ => ⟨rfl, rfl⟩) (.assign (fun _ => ⟨rfl, rfl⟩) (.assign (fun _ => ⟨rfl, rfl⟩)
        (.assign (fun _ => ⟨rfl, rfl⟩) (.pure _))))))

/-- Nor a donation. -/
theorem donate_blind (raw : Int) : Blind (donate raw) := by
  refine .this (fun _ => rfl) fun s => .check fun _ _ => .check fun _ _ => .check fun _ _ => ?_
  exact .assign (fun _ => ⟨rfl, rfl⟩) (.done fun _ => ⟨rfl, rfl⟩)

end AnnualReferenceModel

open AnnualReferenceModel in
/-- The six operations that have nothing to do with the journal do not see it. -/
theorem Operation.blind {operation : Operation} {o : ExactOperation}
    (ho : operation.exact = some o) (hrecord : ∀ input, operation ≠ .recordEvent input)
    (hfinalize : ∀ now complete, operation ≠ .finalize now complete) :
    Blind operation.apply ∧ o.apply = ExactReferenceModel.lift operation.apply := by
  cases operation with
  | deposit accountId raw nowSeconds =>
    cases ho
    exact ⟨(deposit_blind accountId raw nowSeconds).bind_pure, rfl⟩
  | recordEvent input => exact absurd rfl (hrecord input)
  | transfer fromId toId side raw =>
    cases ho
    exact ⟨(transfer_blind fromId toId side raw).bind_pure, rfl⟩
  | recombine accountId raw =>
    cases ho
    exact ⟨(recombine_blind accountId raw).bind_pure, rfl⟩
  | burn accountId side raw =>
    cases ho
    exact ⟨(burn_blind accountId side raw).bind_pure, rfl⟩
  | finalize now complete => exact absurd rfl (hfinalize now complete)
  | redeem accountId side raw allowZero =>
    cases ho
    exact ⟨(redeem_blind accountId side raw allowZero).bind_pure, rfl⟩
  | donate raw =>
    cases ho
    exact ⟨(donate_blind raw).bind_pure, rfl⟩
  | setCustodyBlocked blocked => cases ho
  | reportActualCustody raw => cases ho

/-! ## The journal -/

theorem AnnualEventRecord.exact_eq_ok {e : AnnualEventRecord} {e' : ExactEvent} :
    e.exact = .ok e' ↔ ∃ m0 m1, parsePositiveDecimal e.m0 = .ok m0 ∧
      parsePositiveDecimal e.m1 = .ok m1 ∧ e' =
        { id := e.id, revision := e.revision, chain := e.chain, issuer := e.issuer, mint := e.mint
          exDate := e.exDate, status := e.status, m0 := m0, m1 := m1
          finalized := e.finalized } := by
  rw [exact]
  simp only [Result.bind_eq_ok, Result.pure_eq_ok]
  constructor
  · rintro ⟨m0, hm0, m1, hm1, rfl⟩
    exact ⟨m0, m1, hm0, hm1, rfl⟩
  · rintro ⟨m0, m1, hm0, hm1, rfl⟩
    exact ⟨m0, hm0, m1, hm1, rfl⟩

/-- One turn of `currentIndex` is the same. -/
theorem multiplyEvent_exact {e : AnnualEventRecord} {e' : ExactEvent} (he : e.exact = .ok e')
    (year : Int) (index : RationalIndex) :
    ExactReferenceModel.multiplyEvent year index e' =
      AnnualReferenceModel.multiplyEvent year index e := by
  obtain ⟨m0, m1, hm0, hm1, rfl⟩ := AnnualEventRecord.exact_eq_ok.mp he
  rw [ExactReferenceModel.multiplyEvent, AnnualReferenceModel.multiplyEvent]
  cases e.exDate with
  | none => rfl
  | some exDate =>
    dsimp only
    rw [hm0, hm1]
    rfl

/-- The exact event closes the year when the text does. -/
theorem closable_exact {e : AnnualEventRecord} {e' : ExactEvent} (he : e.exact = .ok e') :
    ExactReferenceModel.closable e' = AnnualReferenceModel.closable e := by
  obtain ⟨m0, m1, -, -, rfl⟩ := AnnualEventRecord.exact_eq_ok.mp he
  rfl

namespace Embeds

variable {s s' : AnnualReferenceModel} {x : ExactReferenceModel}

/-- The loops over the journal have the same turns. -/
theorem foldlM (h : Embeds s x) {β : Type} {f : β → AnnualEventRecord → Thrown β}
    {g : β → ExactEvent → Thrown β} (hfg : ∀ b e e', e.exact = .ok e' → g b e' = f b e) (b : β) :
    (x.journal.entries.map Prod.snd).foldlM g b = (s.events.entries.map Prod.snd).foldlM f b := by
  have hjournal := h.journal
  rw [Record.Related] at hjournal
  generalize s.events.entries = l at hjournal
  generalize x.journal.entries = l' at hjournal
  induction hjournal generalizing b with
  | nil => rfl
  | @cons e e' l l' he _ ih =>
    rw [List.map_cons, List.map_cons, List.foldlM_cons, List.foldlM_cons, hfg b _ _ he.2]
    cases f b e.2 with
    | ok b' => exact ih b'
    | error _ => rfl

theorem forM (h : Embeds s x) : (x.journal.entries.map Prod.snd).forM ExactReferenceModel.closable =
    (s.events.entries.map Prod.snd).forM AnnualReferenceModel.closable := by
  have hjournal := h.journal
  rw [Record.Related] at hjournal
  generalize s.events.entries = l at hjournal
  generalize x.journal.entries = l' at hjournal
  induction hjournal with
  | nil => rfl
  | @cons e e' l l' he _ ih =>
    change (ExactReferenceModel.closable e'.2 >>= fun _ => _) =
      (AnnualReferenceModel.closable e.2 >>= fun _ => _)
    rw [closable_exact he.2, ih]

/-- Both have the same index. -/
theorem currentIndex (h : Embeds s x) : x.currentIndex = s.currentIndex := by
  have hyear : x.base.term.year = s.term.year := by rw [h.base]; rfl
  rw [ExactReferenceModel.currentIndex, AnnualReferenceModel.currentIndex]
  rw [hyear]
  exact h.foldlM (fun b e e' he => multiplyEvent_exact he _ b) _

/-- And the same allocation. -/
theorem previewAllocation (h : Embeds s x) : x.previewAllocation = s.previewAllocation := by
  have hsnapshot : x.base.snapshot = s.snapshot := by rw [h.base]; rfl
  have haccountable : x.base.accountableRaw = s.accountableRaw := by rw [h.base]; rfl
  have hindex := h.currentIndex
  rw [ExactReferenceModel.previewAllocation, AnnualReferenceModel.previewAllocation]
  rw [hsnapshot, haccountable]
  generalize x.currentIndex = index at hindex ⊢
  subst hindex
  rfl

end Embeds

/-- What `recordEvent` asks of an event. -/
structure ExactReferenceModel.Admits (x : ExactReferenceModel) (input : ExactEvent) : Prop where
  id : textLength input.id ≠ 0 ∧ textLength input.id ≤ MAX_TEXT_LENGTH
  revision : ¬ input.revision < 0
  texts : ∀ text ∈ [input.chain, input.issuer, input.mint],
    textLength text ≠ 0 ∧ textLength text ≤ MAX_TEXT_LENGTH
  term : input.chain = x.base.term.chain ∧ input.issuer = x.base.term.issuer
    ∧ input.mint = x.base.term.mint
  date : ∀ exDate ∈ input.exDate, validCivilDate exDate = true
  positive : ∀ m ∈ [input.m0, input.m1], 0 < m.numerator ∧ 0 < m.denominator
  rise : ¬ (compare input.m1 input.m0 < 0 ∧ input.status ≠ .pending ∧ input.status ≠ .unsupported)

theorem checkedText_eq_ok {value label text : String} : checkedText value label = .ok text ↔
    text = value ∧ textLength value ≠ 0 ∧ textLength value ≤ MAX_TEXT_LENGTH := by
  rw [checkedText]
  simp only [Result.bind_eq_ok, demand_eq_ok, Result.exists_unit, Result.pure_eq_ok]
  exact ⟨fun h => ⟨h.2.symm, h.1⟩, fun h => ⟨h.2, h.1.symm⟩⟩

namespace ExactReferenceModel

variable {x : ExactReferenceModel} {input record : ExactEvent}

/-- What is admitted is taken as it is. -/
theorem validateEvent_eq_ok :
    x.validateEvent input = .ok record ↔ record = input ∧ x.Admits input := by
  simp only [validateEvent, positive]
  simp only [Result.bind_eq_ok, demand_eq_ok, Result.exists_unit, Result.pure_eq_ok,
    checkedText_eq_ok]
  constructor
  · rintro ⟨_, ⟨rfl, hid⟩, hrevision, _, ⟨rfl, hchain⟩, _, ⟨rfl, hissuer⟩, _, ⟨rfl, hmint⟩, hterm,
      hdate, _, ⟨hm0, rfl⟩, _, ⟨hm1, rfl⟩, hrise, rfl⟩
    refine ⟨rfl, hid, hrevision, ?_, hterm, hdate, ?_, hrise⟩
    · simp [hchain, hissuer, hmint]
    · simp [hm0, hm1]
  · rintro ⟨rfl, h⟩
    have htexts := h.texts
    have hpositive := h.positive
    simp only [List.forall_mem_cons, List.not_mem_nil, false_imp_iff, implies_true, and_true]
      at htexts hpositive
    exact ⟨_, ⟨rfl, h.id⟩, h.revision, _, ⟨rfl, htexts.1⟩, _, ⟨rfl, htexts.2.1⟩,
      _, ⟨rfl, htexts.2.2⟩,
      h.term, h.date, _, ⟨hpositive.1, rfl⟩, _, ⟨hpositive.2, rfl⟩, h.rise, rfl⟩

/-- An event that is recorded already. -/
theorem recordEvent_repeated (hopen : x.base.snapshot = none) (h : x.Admits input)
    (hget : x.journal.get? input.id = some input) :
    recordEvent input x = (.ok .idempotent, x) := by
  refine check_bind_eq_ok.mpr ⟨(), demand_eq_ok.mpr hopen, ?_⟩
  refine check_bind_eq_ok.mpr ⟨input, validateEvent_eq_ok.mpr ⟨rfl, h⟩, ?_⟩
  rw [hget]
  exact congrFun (if_pos rfl) x

/-- A new event, or a later revision. -/
theorem recordEvent_accepted (hopen : x.base.snapshot = none) (h : x.Admits input)
    (hlater : ∀ previous, x.journal.get? input.id = some previous →
      previous.revision < input.revision)
    (hlimit : x.journal.get? input.id = none → x.journal.entries.length < MAX_EVENT_IDS) :
    recordEvent input x =
      (.ok .accepted, { x with journal := x.journal.set input.id input }) := by
  refine check_bind_eq_ok.mpr ⟨(), demand_eq_ok.mpr hopen, ?_⟩
  refine check_bind_eq_ok.mpr ⟨input, validateEvent_eq_ok.mpr ⟨rfl, h⟩, ?_⟩
  cases hget : x.journal.get? input.id with
  | none => exact check_bind_eq_ok.mpr ⟨(), demand_eq_ok.mpr (by have := hlimit hget; omega), rfl⟩
  | some previous =>
    have hlt := hlater previous hget
    have hne : input ≠ previous := fun heq => by
      rw [heq] at hlt
      exact absurd hlt (lt_irrefl _)
    refine (congrFun (if_neg hne) x).trans ?_
    exact check_bind_eq_ok.mpr ⟨(), demand_eq_ok.mpr (by omega), rfl⟩

end ExactReferenceModel

/-- What an accepted `recordEvent` found and did. -/
theorem AnnualReferenceModel.recordEvent_eq_ok {s s' : AnnualReferenceModel}
    {input : AnnualEventRecord} {r : Recorded}
    (h : AnnualReferenceModel.recordEvent input s = (.ok r, s')) :
    s.snapshot = none ∧ s.validateEvent input = .ok input ∧
      ((r = .idempotent ∧ s' = s ∧ s.events.get? input.id = some input) ∨
        (r = .accepted ∧ s' = { s with events := s.events.set input.id input } ∧
          (∀ previous, s.events.get? input.id = some previous →
            previous.revision < input.revision) ∧
          (s.events.get? input.id = none → s.events.entries.length < MAX_EVENT_IDS))) := by
  obtain ⟨_, hopen, hrest⟩ := check_bind_eq_ok.mp h
  obtain ⟨record, hrecord, hlookup⟩ := check_bind_eq_ok.mp hrest
  clear h hrest
  -- Validation returns what it was given.
  obtain rfl : record = input := by
    have hvalid := hrecord
    rw [validateEvent] at hvalid
    simp only [Result.bind_eq_ok, demand_eq_ok, Result.exists_unit, Result.pure_eq_ok,
      checkedText_eq_ok] at hvalid
    obtain ⟨_, ⟨rfl, -⟩, -, _, ⟨rfl, -⟩, _, ⟨rfl, -⟩, _, ⟨rfl, -⟩, -, -, _, -, _, -, -, rfl⟩ :=
      hvalid
    rfl
  refine ⟨demand_eq_ok.mp hopen, hrecord, ?_⟩
  cases hget : s.events.get? record.id with
  | none =>
    rw [hget] at hlookup
    obtain ⟨_, hlimit, hdone⟩ := check_bind_eq_ok.mp hlookup
    cases hdone
    exact .inr ⟨rfl, rfl, fun _ hsome => (by cases hsome),
      fun _ => not_le.mp (demand_eq_ok.mp hlimit)⟩
  | some previous =>
    rw [hget] at hlookup
    dsimp only at hlookup
    split at hlookup
    · rename_i heq
      cases hlookup
      exact .inl ⟨rfl, rfl, by rw [heq]⟩
    · obtain ⟨_, hlater, hdone⟩ := check_bind_eq_ok.mp hlookup
      cases hdone
      refine .inr ⟨rfl, rfl, fun _ hsome => ?_, fun hnone => by cases hnone⟩
      cases hsome
      exact not_le.mp (demand_eq_ok.mp hlater)

namespace Embeds

variable {s s' : AnnualReferenceModel} {x : ExactReferenceModel}

/-- What the one admits the other does. -/
theorem admits (h : Embeds s x) {input : AnnualEventRecord} {input' : ExactEvent}
    (hinput : input.exact = .ok input') (hvalid : s.validateEvent input = .ok input) :
    x.Admits input' := by
  obtain ⟨m0, m1, hm0, hm1, rfl⟩ := AnnualEventRecord.exact_eq_ok.mp hinput
  have hterm : x.base.term = s.term := by rw [h.base]; rfl
  rw [validateEvent] at hvalid
  simp only [Result.bind_eq_ok, demand_eq_ok, Result.exists_unit, Result.pure_eq_ok,
    checkedText_eq_ok] at hvalid
  obtain ⟨_, ⟨rfl, hid⟩, hrevision, _, ⟨rfl, hchain⟩, _, ⟨rfl, hissuer⟩,
    _, ⟨rfl, hmint⟩, hsame, hdate, _, hm0', _, hm1', hrise, -⟩ := hvalid
  cases hm0.symm.trans hm0'
  cases hm1.symm.trans hm1'
  refine ⟨hid, hrevision.2, ?_, ?_, hdate, ?_, hrise⟩
  · simp [hchain, hissuer, hmint]
  · rw [hterm]
    exact hsame
  · simp [parsePositiveDecimal_pos hm0, parsePositiveDecimal_pos hm1]

/-- `recordEvent`: the record differs from its predecessor in the revision, or is the same. -/
theorem recordEvent (h : Embeds s x) {input : AnnualEventRecord} {r : Recorded}
    (hrecord : AnnualReferenceModel.recordEvent input s = (.ok r, s')) :
    ∃ input' x', input.exact = .ok input' ∧
      ExactReferenceModel.recordEvent input' x = (.ok r, x') ∧ Embeds s' x' := by
  obtain ⟨hopen, hvalid, hcases⟩ := recordEvent_eq_ok hrecord
  obtain ⟨m0, m1, hm0, hm1, -⟩ := validateEvent_sound hvalid
  obtain ⟨input', hinput, hid, hrevision⟩ : ∃ input', input.exact = .ok input' ∧
      input'.id = input.id ∧ input'.revision = input.revision :=
    ⟨_, AnnualEventRecord.exact_eq_ok.mpr ⟨m0, m1, hm0, hm1, rfl⟩, rfl, rfl⟩
  have hadmits := h.admits hinput hvalid
  have hopen' : x.base.snapshot = none := by rw [h.base]; exact hopen
  have hget := h.journal.get? input.id
  rw [← hid] at hget
  rcases hcases with ⟨rfl, rfl, hrepeated⟩ | ⟨rfl, rfl, hlater, hlimit⟩
  · -- a record that is there reads as one that is there
    rw [hid, hrepeated] at hget
    cases hx : x.journal.get? input.id with
    | none => rw [hx] at hget; cases hget
    | some previous =>
      rw [hx] at hget
      cases hget with
      | some hsame =>
        cases hinput.symm.trans hsame
        exact ⟨_, x, hinput,
          ExactReferenceModel.recordEvent_repeated hopen' hadmits (by rw [hid]; exact hx), h⟩
  · -- a later record, or a new event within the limit
    refine ⟨input', _, hinput,
      ExactReferenceModel.recordEvent_accepted hopen' hadmits ?_ ?_, h.base, ?_⟩
    · intro previous hprevious
      rw [hprevious] at hget
      cases hs : s.events.get? input'.id with
      | none => rw [hs] at hget; cases hget
      | some old =>
        rw [hs] at hget
        cases hget with
        | some hsame =>
          obtain ⟨_, _, -, -, rfl⟩ := AnnualEventRecord.exact_eq_ok.mp hsame
          rw [hrevision]
          rw [hid] at hs
          exact hlater old hs
    · intro hnone
      rw [hnone] at hget
      rw [← h.journal.length]
      cases hs : s.events.get? input'.id with
      | none => exact hlimit (by rw [← hid]; exact hs)
      | some old => rw [hs] at hget; cases hget
    · rw [hid]
      exact h.journal.set input.id hinput

/-- `finalize` reads the same journal. -/
theorem finalize (h : Embeds s x) {now : Int} {complete : Bool} {f : AnnualFinalSnapshot}
    (hfinal : AnnualReferenceModel.finalize now complete s = (.ok f, s')) :
    ∃ x', ExactReferenceModel.finalize now complete x = (.ok f, x') ∧ Embeds s' x' := by
  obtain ⟨now', hnow, hfinal⟩ := check_bind_eq_ok.mp hfinal
  obtain ⟨_, hopen, hfinal⟩ := check_bind_eq_ok.mp hfinal
  obtain ⟨_, hmature, hfinal⟩ := check_bind_eq_ok.mp hfinal
  obtain ⟨_, hcomplete, hfinal⟩ := check_bind_eq_ok.mp hfinal
  obtain ⟨_, hclosable, hfinal⟩ := check_bind_eq_ok.mp hfinal
  obtain ⟨_, hcustody, hfinal⟩ := check_bind_eq_ok.mp hfinal
  obtain ⟨allocation, hallocation, hdone⟩ := check_bind_eq_ok.mp hfinal
  cases hdone
  rw [← h.forM] at hclosable
  rw [← h.previewAllocation] at hallocation
  obtain ⟨base, journal⟩ := x
  obtain ⟨rfl, hjournal⟩ := h
  refine ⟨_, check_bind_eq_ok.mpr ⟨now', hnow, check_bind_eq_ok.mpr ⟨(), hopen,
    check_bind_eq_ok.mpr ⟨(), hmature, check_bind_eq_ok.mpr ⟨(), hcomplete,
    check_bind_eq_ok.mpr ⟨(), hclosable, check_bind_eq_ok.mpr ⟨(), hcustody,
    check_bind_eq_ok.mpr ⟨allocation, hallocation, rfl⟩⟩⟩⟩⟩⟩⟩, ?_⟩
  exact ⟨rfl, hjournal⟩

end Embeds

/-- The two operations of a host that watches custody. -/
def Operation.watches : Operation → Bool
  | .setCustodyBlocked _ => true
  | .reportActualCustody _ => true
  | _ => false

/-- A mapped value that was returned. -/
theorem bind_pure_eq_ok {σ α β : Type} {m : Method σ AnnualReferenceError α} {g : α → β} {s s' : σ}
    {b : β} : (m >>= fun a => pure (g a)) s = (.ok b, s') ↔ ∃ a, m s = (.ok a, s') ∧ g a = b := by
  simp only [bind]
  cases m s with
  | mk r s₁ =>
    cases r with
    | ok a =>
      change ((.ok (g a), s₁) : Except AnnualReferenceError β × σ) = _ ↔ _
      simp only [Prod.mk.injEq, Except.ok.injEq]
      exact ⟨fun ⟨hb, hs⟩ => ⟨a, ⟨rfl, hs⟩, hb⟩, fun ⟨a', ⟨ha, hs⟩, hb⟩ => ⟨ha ▸ hb, hs⟩⟩
    | error e => simp

/-- **One operation.** What the reference accepts, the lifted one accepts with the same result. -/
theorem Operation.apply_exact {operation : Operation} {s s' : AnnualReferenceModel}
    {x : ExactReferenceModel} {r : Returned} (h : Embeds s x) (hwatch : operation.watches = false)
    (happly : operation.apply s = (.ok r, s')) :
    ∃ o x', operation.exact = some o ∧ o.apply x = (.ok r, x') ∧ Embeds s' x' := by
  have hblind : ∀ {o : ExactOperation}, operation.exact = some o →
      (∀ input, operation ≠ .recordEvent input) →
      (∀ now complete, operation ≠ .finalize now complete) →
      ∃ x', o.apply x = (.ok r, x') ∧ Embeds s' x' := by
    intro o ho hrecord hfinalize
    obtain ⟨hblind, hlift⟩ := Operation.blind ho hrecord hfinalize
    obtain ⟨hforget, hevents⟩ := hblind s
    rw [happly] at hforget hevents
    refine ⟨{ x with base := s'.forget }, ?_, rfl, ?_⟩
    · rw [hlift, ExactReferenceModel.lift, h.base, hforget]
    · change Record.Related _ s'.events x.journal
      rw [show s'.events = s.events from hevents]
      exact h.journal
  cases operation with
  | recordEvent input =>
    obtain ⟨recorded, hrecord, hr⟩ := bind_pure_eq_ok.mp happly
    obtain ⟨input', x', hinput, hx', hembeds⟩ := h.recordEvent hrecord
    refine ⟨.recordEvent input', x', ?_, bind_pure_eq_ok.mpr ⟨recorded, hx', hr⟩, hembeds⟩
    rw [Operation.exact, hinput]
    rfl
  | finalize now complete =>
    obtain ⟨f, hfinal, hr⟩ := bind_pure_eq_ok.mp happly
    obtain ⟨x', hx', hembeds⟩ := h.finalize hfinal
    exact ⟨.finalize now complete, x', rfl, bind_pure_eq_ok.mpr ⟨f, hx', hr⟩, hembeds⟩
  | setCustodyBlocked blocked => cases hwatch
  | reportActualCustody raw => cases hwatch
  | _ =>
    obtain ⟨x', hx', hembeds⟩ := hblind rfl (fun _ => nofun) (fun _ _ => nofun)
    exact ⟨_, x', rfl, hx', hembeds⟩

/-- **Any sequence.** The lifted reference is a conservative extension of the reference: it makes
the same calls with the same answers, decimals read as the fractions they stand for. -/
theorem replay_exact {s s' : AnnualReferenceModel} {x : ExactReferenceModel}
    {calls : List (Operation × Returned)} (h : Embeds s x)
    (hwatch : ∀ call ∈ calls, call.1.watches = false)
    (hcalls : replay Operation.apply s calls = some s') :
    ∃ calls' x', List.Forall₂ (fun c c' => c.1.exact = some c'.1 ∧ c.2 = c'.2) calls calls' ∧
      replay ExactOperation.apply x calls' = some x' ∧ Embeds s' x' := by
  induction calls generalizing s x with
  | nil =>
    cases hcalls
    exact ⟨[], x, .nil, rfl, h⟩
  | cons call calls ih =>
    obtain ⟨operation, r⟩ := call
    obtain ⟨s₁, happly, hrest⟩ := replay_cons.mp hcalls
    obtain ⟨hfirst, hothers⟩ := List.forall_mem_cons.mp hwatch
    obtain ⟨o, x₁, ho, hx₁, hembeds⟩ := Operation.apply_exact h hfirst happly
    obtain ⟨calls', x', hall, hreplay, hlast⟩ := ih hembeds hothers hrest
    exact ⟨(o, r) :: calls', x', .cons ⟨ho, rfl⟩ hall, replay_cons.mpr ⟨x₁, hx₁, hreplay⟩, hlast⟩

end AnnualReference

end DividendX
