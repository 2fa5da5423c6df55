import DividendX.Lib.Run

/-!
# The guided demo's runtime

`GuidedDemoRuntime` of `packages/guided-runtime/src/runtime.ts`, as a state machine: its public
state, and what is under way between two turns of the event loop. A call of `beginStart` or
`beginStep` changes the state and awaits that it is persisted; only then the setup or the step is
run, in the background.

Persists are chained, so they are awaited in one queue (`tail`), each with what waits for it: the
first may resolve, and any may reject, since a value that cannot be cloned rejects out of turn. All
else that a background operation awaits is in `busy`, and goes on in any order. Which transactions a
step makes, and whether it throws, is left open.
-/

namespace DividendX

namespace Guided

/-- `DemoStep`. -/
inductive DemoStep where
  | coreSplit | coreRecombinePartial | coreRecombineRest
  | dividendSplit | dividendQuarterOne | dividendQuarterTwo | dividendRecombine
  | createPool | addLiquidity | buyDr | removeLiquidity
  | recombine | settleYear | redeemBuyer | redeemProvider
deriving DecidableEq, Repr

/-- `DEMO_STEPS`. -/
def demoSteps : List DemoStep :=
  [.coreSplit, .coreRecombinePartial, .coreRecombineRest,
    .dividendSplit, .dividendQuarterOne, .dividendQuarterTwo, .dividendRecombine,
    .createPool, .addLiquidity, .buyDr, .removeLiquidity,
    .recombine, .settleYear, .redeemBuyer, .redeemProvider]

/-- `DemoStatus`. -/
inductive DemoStatus where
  | idle | preparing | ready | running | failed | complete
deriving DecidableEq, Repr

/-- `DemoAsset`. -/
structure DemoAsset where
  id : String
  company : String
  symbol : String
  issuerLabel : String
  decimals : ℕ
deriving DecidableEq, Repr

/-- `DEMO_ASSETS`. -/
def demoAssets : List DemoAsset :=
  [⟨"xstocks-test-kox", "Coca-Cola", "TestKOx", "xStocks test profile", 8⟩,
    ⟨"backpack-test-mu", "Micron", "TestMU", "Backpack/Trek test profile", 6⟩,
    ⟨"ondo-test-ibm", "IBM", "TestIBMon", "Ondo test profile", 9⟩]

/-- `DemoStep | 'setup'`: what is run in the background. -/
inductive Activity where
  | setup
  | step (step : DemoStep)
deriving DecidableEq, Repr

inductive TransactionStatus where
  | submitted | confirmed | finalized
deriving DecidableEq, Repr

/-- `DemoTransaction`. -/
structure DemoTransaction where
  step : Activity
  name : String
  signature : String
  status : TransactionStatus
  slot : Option ℕ
deriving DecidableEq, Repr

/-- `DemoState`, over a type of snapshots. -/
structure DemoState (Snapshot : Type) where
  runtimeId : String
  revision : ℕ := 0
  sessionId : Option String := none
  asset : Option DemoAsset := none
  status : DemoStatus := .idle
  activeStep : Option Activity := none
  nextStep : Option DemoStep := none
  completedSteps : List DemoStep := []
  snapshot : Option Snapshot := none
  transactions : List DemoTransaction := []
  error : Option String := none
deriving DecidableEq, Repr

/-- `HttpError`. -/
structure HttpError where
  status : ℕ
  message : String
deriving DecidableEq, Repr

/-- What waits for a persist: a call that begins something, a background operation on its way, one
whose last update this is, or the record of a failure. -/
inductive Persisting where
  | begin (activity : Activity)
  | journal (activity : Activity)
  | closing (activity : Activity)
  | recording
deriving DecidableEq, Repr

/-- What waits for something else: a background operation, or `fail` for its snapshot. -/
inductive Busy where
  | working (activity : Activity)
  | failing
deriving DecidableEq, Repr

/-- `GuidedDemoRuntime`, between two turns. -/
structure GuidedDemoRuntime (Snapshot : Type) where
  state : DemoState Snapshot
  tail : List Persisting := []
  busy : List Busy := []
deriving DecidableEq, Repr

namespace GuidedDemoRuntime

variable {Snapshot : Type} (s : GuidedDemoRuntime Snapshot)

/-- `update`: the state is changed, the revision goes up, and the persist joins the chain. -/
def update (state : DemoState Snapshot) (awaited : Persisting) : GuidedDemoRuntime Snapshot :=
  { s with
    state := { state with revision := state.revision + 1 }
    tail := s.tail ++ [awaited] }

/-- `beginStart`, up to its persist; the session's id is random. -/
def beginStart (expectedRuntimeId : String) (expectedRevision : ℕ) (assetId sessionId : String) :
    Except HttpError (GuidedDemoRuntime Snapshot) :=
  if expectedRuntimeId ≠ s.state.runtimeId ∨ expectedRevision ≠ s.state.revision then
    .error ⟨409, "stale runtime or revision"⟩
  else if s.state.status ∉ [DemoStatus.idle, .complete, .failed] then
    .error ⟨409, "a demo operation is already active"⟩
  else match demoAssets.find? (·.id = assetId) with
    | none => .error ⟨400, "unsupported test stock profile"⟩
    | some asset => .ok (s.update
      { runtimeId := s.state.runtimeId
        revision := s.state.revision
        sessionId := some sessionId
        asset := some asset
        status := .preparing
        activeStep := some .setup } (.begin .setup))

/-- `beginStep`, up to its persist. -/
def beginStep (expectedRuntimeId sessionId : String) (expectedRevision : ℕ) (step : DemoStep) :
    Except HttpError (GuidedDemoRuntime Snapshot) :=
  if expectedRuntimeId ≠ s.state.runtimeId ∨ some sessionId ≠ s.state.sessionId
      ∨ expectedRevision ≠ s.state.revision then
    .error ⟨409, "stale runtime, session, or revision"⟩
  else if s.state.status ≠ .ready ∨ s.state.nextStep ≠ some step then
    .error ⟨409, "only the exact next step is accepted"⟩
  else .ok (s.update
    { s.state with status := .running, activeStep := some (.step step),
                   nextStep := none, error := none }
    (.begin (.step step)))

/-- `submitted`, of an operation that goes on. -/
def submitted (activity : Activity) (name signature : String) : GuidedDemoRuntime Snapshot :=
  s.update { s.state with
    transactions := s.state.transactions ++ [⟨activity, name, signature, .submitted, none⟩] }
      (.journal activity)

/-- The last transaction of the journal with this name and signature, changed. -/
def journaled (name signature : String) (slot : ℕ) (status : TransactionStatus) :
    List DemoTransaction → Option (List DemoTransaction)
  | [] => none
  | t :: rest => match journaled name signature slot status rest with
    | some rest => some (t :: rest)
    | none => if t.signature = signature ∧ t.name = name then
        some ({ t with status := status, slot := some slot } :: rest)
      else none

/-- `confirmed`, of an operation that goes on; one without its submission throws
`SUBMISSION_JOURNAL_MISSING`. -/
def confirmed (activity : Activity) (name signature : String) (slot : ℕ)
    (status : TransactionStatus) :
    GuidedDemoRuntime Snapshot :=
  match journaled name signature slot status s.state.transactions with
  | none => { s with busy := s.busy ++ [.failing] }
  | some transactions => s.update { s.state with transactions := transactions } (.journal activity)

/-- The end of `runSetup` or `runStep`: the last update. -/
def finish (snapshot : Snapshot) : Activity → GuidedDemoRuntime Snapshot
  | .setup => s.update { s.state with
      status := .ready, activeStep := none, nextStep := some .coreSplit
      snapshot := some snapshot } (.closing .setup)
  | .step step =>
    let completed := s.state.completedSteps ++ [step]
    let next := demoSteps[completed.length]?
    s.update { s.state with
      completedSteps := completed
      snapshot := some snapshot
      activeStep := none
      nextStep := next
      status := if next.isSome then .ready else .complete } (.closing (.step step))

/-- `fail`, once it has its snapshot; the text is cut to five hundred characters before. -/
def fail (error : String) (observed : Option Snapshot) : GuidedDemoRuntime Snapshot :=
  s.update { s.state with
    status := .failed
    activeStep := none
    nextStep := none
    error := some error
    snapshot := observed <|> s.state.snapshot } .recording

/-- A persist resolved. A call that began something starts it in the background. -/
def resume : Persisting → GuidedDemoRuntime Snapshot
  | .begin activity => { s with busy := s.busy ++ [.working activity] }
  | .journal activity => { s with busy := s.busy ++ [.working activity] }
  | .closing _ => s
  | .recording => s

/-- A persist rejected. A background operation fails, the record of a failure is given up, and a
call that began something throws to its caller. -/
def reject : Persisting → GuidedDemoRuntime Snapshot
  | .begin _ => s
  | .journal _ => { s with busy := s.busy ++ [.failing] }
  | .closing _ => { s with busy := s.busy ++ [.failing] }
  | .recording => s

/-- What can happen. An index is that of a persist in the chain, or of what is busy. -/
inductive Event (Snapshot : Type) where
  | beginStart (expectedRuntimeId : String) (expectedRevision : ℕ) (assetId sessionId : String)
  | beginStep (expectedRuntimeId sessionId : String) (expectedRevision : ℕ) (step : DemoStep)
  | resolves
  | rejects (index : ℕ)
  | submits (index : ℕ) (name signature : String)
  | confirms (index : ℕ) (name signature : String) (slot : ℕ) (status : TransactionStatus)
  | persists (index : ℕ)
  | throws (index : ℕ)
  | finishes (index : ℕ) (snapshot : Snapshot)
  | observes (index : ℕ) (error : String) (observed : Option Snapshot)
deriving DecidableEq, Repr

/-- What a busy operation does next; it is no longer busy with what it was. -/
def goOn (index : ℕ) (next : GuidedDemoRuntime Snapshot → Activity → GuidedDemoRuntime Snapshot) :
    Option (GuidedDemoRuntime Snapshot) :=
  match s.busy[index]? with
  | some (.working activity) => some (next { s with busy := s.busy.eraseIdx index } activity)
  | _ => none

/-- One event, if it can happen. A call that is refused changes nothing. -/
def step (s : GuidedDemoRuntime Snapshot) : Event Snapshot → Option (GuidedDemoRuntime Snapshot)
  | .beginStart expectedRuntimeId expectedRevision assetId sessionId =>
    match s.beginStart expectedRuntimeId expectedRevision assetId sessionId with
    | .ok s' => some s'
    | .error _ => some s
  | .beginStep expectedRuntimeId sessionId expectedRevision step =>
    match s.beginStep expectedRuntimeId sessionId expectedRevision step with
    | .ok s' => some s'
    | .error _ => some s
  | .resolves => match s.tail with
    | [] => none
    | awaited :: rest => some ({ s with tail := rest }.resume awaited)
  | .rejects index => match s.tail[index]? with
    | none => none
    | some awaited => some ({ s with tail := s.tail.eraseIdx index }.reject awaited)
  | .submits index name signature =>
    s.goOn index fun s activity => s.submitted activity name signature
  | .confirms index name signature slot status =>
    s.goOn index fun s activity => s.confirmed activity name signature slot status
  | .persists index =>
    s.goOn index fun s activity => { s with tail := s.tail ++ [.journal activity] }
  | .throws index => s.goOn index fun s _ => { s with busy := s.busy ++ [.failing] }
  | .finishes index snapshot => s.goOn index fun s activity => s.finish snapshot activity
  | .observes index error observed => match s.busy[index]? with
    | some .failing => some ({ s with busy := s.busy.eraseIdx index }.fail error observed)
    | _ => none

/-- A new runtime. -/
def start (runtimeId : String) : GuidedDemoRuntime Snapshot :=
  { state := { runtimeId := runtimeId } }

/-! ## The revision -/

variable {s} {s' : GuidedDemoRuntime Snapshot} {e : Event Snapshot}

theorem goOn_eq_some {index : ℕ}
    {next : GuidedDemoRuntime Snapshot → Activity → GuidedDemoRuntime Snapshot}
    (h : s.goOn index next = some s') : ∃ activity, s.busy[index]? = some (.working activity) ∧
      s' = next { s with busy := s.busy.eraseIdx index } activity := by
  rw [goOn] at h
  split at h
  · rename_i activity hbusy
    cases h
    exact ⟨activity, hbusy, rfl⟩
  · cases h

/-- A call of `beginStart` that is accepted. -/
theorem beginStart_eq_ok {expectedRuntimeId assetId sessionId : String} {expectedRevision : ℕ}
    (h : s.beginStart expectedRuntimeId expectedRevision assetId sessionId = .ok s') :
    s.state.status ∈ [DemoStatus.idle, .complete, .failed] ∧ ∃ asset, s' = s.update
      { runtimeId := s.state.runtimeId
        revision := s.state.revision
        sessionId := some sessionId
        asset := some asset
        status := .preparing
        activeStep := some .setup } (.begin .setup) := by
  rw [beginStart] at h
  split_ifs at h with hstale hstatus
  split at h
  · cases h
  · rename_i asset _
    cases h
    exact ⟨hstatus, asset, rfl⟩

/-- A call of `beginStep` that is accepted. -/
theorem beginStep_eq_ok {expectedRuntimeId sessionId : String} {expectedRevision : ℕ}
    {step : DemoStep}
    (h : s.beginStep expectedRuntimeId sessionId expectedRevision step = .ok s') :
    s.state.status = .ready ∧ s.state.nextStep = some step ∧ s' = s.update
      { s.state with status := .running, activeStep := some (.step step),
                     nextStep := none, error := none }
      (.begin (.step step)) := by
  rw [beginStep] at h
  split_ifs at h with hstale hstatus
  obtain ⟨hready, hnext⟩ := not_or.mp hstatus
  cases h
  exact ⟨not_not.mp hready, not_not.mp hnext, rfl⟩

theorem state_resume (awaited : Persisting) : (s.resume awaited).state = s.state := by
  cases awaited <;> rfl

theorem state_reject (awaited : Persisting) : (s.reject awaited).state = s.state := by
  cases awaited <;> rfl

/-- **Every change of the state raises the revision by one.** -/
theorem revision_step (h : s.step e = some s') :
    s'.state = s.state ∨ s'.state.revision = s.state.revision + 1 := by
  cases e with
  | beginStart expectedRuntimeId expectedRevision assetId sessionId =>
    simp only [step] at h
    split at h
    · rename_i hok
      cases h
      obtain ⟨-, asset, rfl⟩ := beginStart_eq_ok hok
      exact .inr rfl
    · cases h
      exact .inl rfl
  | beginStep expectedRuntimeId sessionId expectedRevision step =>
    simp only [GuidedDemoRuntime.step] at h
    split at h
    · rename_i hok
      cases h
      obtain ⟨-, -, rfl⟩ := beginStep_eq_ok hok
      exact .inr rfl
    · cases h
      exact .inl rfl
  | resolves =>
    simp only [step] at h
    split at h
    · cases h
    · cases h
      exact .inl (state_resume _)
  | rejects index =>
    simp only [step] at h
    split at h
    · cases h
    · cases h
      exact .inl (state_reject _)
  | submits index name signature =>
    simp only [step] at h
    obtain ⟨activity, -, rfl⟩ := goOn_eq_some h
    exact .inr rfl
  | confirms index name signature slot status =>
    simp only [step] at h
    obtain ⟨activity, -, rfl⟩ := goOn_eq_some h
    rw [confirmed]
    split
    · exact .inl rfl
    · exact .inr rfl
  | persists index =>
    simp only [step] at h
    obtain ⟨activity, -, rfl⟩ := goOn_eq_some h
    exact .inl rfl
  | throws index =>
    simp only [step] at h
    obtain ⟨activity, -, rfl⟩ := goOn_eq_some h
    exact .inl rfl
  | finishes index snapshot =>
    simp only [step] at h
    obtain ⟨activity, -, rfl⟩ := goOn_eq_some h
    cases activity <;> exact .inr rfl
  | observes index error observed =>
    simp only [step] at h
    split at h
    · cases h
      exact .inr rfl
    · cases h

/-! ## What a runtime is like

While no failure of a last update crosses a new call, what is under way has one of a few shapes. -/

/-- The statuses in which something may be begun. -/
def settledStatuses : List DemoStatus := [.idle, .ready, .complete, .failed]

/-- The state while something is begun, run or has failed. -/
def Active (state : DemoState Snapshot) : Activity → Prop
  | .setup => state.status = .preparing ∧ state.completedSteps = []
  | .step step => state.status = .running ∧ demoSteps[state.completedSteps.length]? = some step

/-- Persists that start nothing: at most one, of a last update or of a failure. -/
inductive Quiet : List Persisting → Prop
  | none : Quiet []
  | closing (activity : Activity) : Quiet [.closing activity]
  | recording : Quiet [.recording]

/-- The shapes of what is under way. -/
inductive Shape (s : GuidedDemoRuntime Snapshot) : Prop
  | rest : s.state.status ∈ settledStatuses → Quiet s.tail → s.busy = [] → Shape s
  | undone : s.state.status ∈ settledStatuses → s.tail = [] → s.busy = [.failing] → Shape s
  | begun {activity : Activity} {quiet : List Persisting} : Active s.state activity → Quiet quiet →
      s.tail = quiet ++ [.begin activity] → s.busy = [] → Shape s
  | working {activity : Activity} : Active s.state activity → s.tail = [] →
    s.busy = [.working activity] → Shape s
  | journal {activity : Activity} : Active s.state activity → s.tail = [.journal activity] →
    s.busy = [] → Shape s
  | failed {activity : Activity} : Active s.state activity → s.tail = [] →
    s.busy = [.failing] → Shape s

/-- A sound runtime. -/
structure Sound (s : GuidedDemoRuntime Snapshot) : Prop where
  completed : s.state.completedSteps <+: demoSteps
  next : s.state.status = .ready → ∃ step, s.state.nextStep = some step ∧
    demoSteps[s.state.completedSteps.length]? = some step
  session : s.state.sessionId = none → s.state.status = .idle ∧ s.tail = [] ∧ s.busy = []
  shape : s.Shape

/-- The events that leave a runtime sound: no persist of a call that begins something rejects, the
last update of an operation is undone only while no such call is under way, and no such call is
accepted while it is undone. -/
def spared (s : GuidedDemoRuntime Snapshot) : Event Snapshot → Bool
  | .beginStart expectedRuntimeId expectedRevision assetId sessionId =>
    !(s.beginStart expectedRuntimeId expectedRevision assetId sessionId).isOk
      || !s.busy.contains .failing
  | .beginStep expectedRuntimeId sessionId expectedRevision step =>
    !(s.beginStep expectedRuntimeId sessionId expectedRevision step).isOk
      || !s.busy.contains .failing
  | .rejects index => match s.tail[index]? with
    | some (.begin _) => false
    | some (.closing _) => s.tail.all fun
      | .begin _ => false
      | _ => true
    | _ => true
  | _ => true

/-- Where nothing is active, nothing is under way that a new call could cross. -/
theorem Sound.quiet (h : s.Sound) (hstatus : s.state.status ∈ settledStatuses)
    (hbusy : Busy.failing ∉ s.busy) : Quiet s.tail ∧ s.busy = [] := by
  have hactive : ∀ activity, ¬Active s.state activity := by
    intro activity hactive
    cases activity <;> simp [hactive.1, settledStatuses] at hstatus
  cases h.shape with
  | rest _ hquiet hempty => exact ⟨hquiet, hempty⟩
  | undone _ _ hfailing => simp [hfailing] at hbusy
  | begun ha => exact absurd ha (hactive _)
  | working ha => exact absurd ha (hactive _)
  | journal ha => exact absurd ha (hactive _)
  | failed ha => exact absurd ha (hactive _)

/-- Something active belongs to a session. -/
theorem Sound.session_of_active (h : s.Sound) {activity : Activity}
    (hactive : Active s.state activity) :
    s.state.sessionId ≠ none := by
  intro hnone
  have hidle := (h.session hnone).1
  cases activity <;> cases hactive.1.symm.trans hidle

/-- An operation that goes on is the only one. -/
theorem Sound.goOn (h : s.Sound) {index : ℕ}
    {next : GuidedDemoRuntime Snapshot → Activity → GuidedDemoRuntime Snapshot}
    (hstep : s.goOn index next = some s') : ∃ activity, Active s.state activity ∧ s.tail = [] ∧
      s' = next { s with busy := [] } activity := by
  obtain ⟨activity, hindex, rfl⟩ := goOn_eq_some hstep
  cases h.shape with
  | working hactive htail hbusy =>
    rw [hbusy] at hindex ⊢
    obtain ⟨rfl, rfl⟩ : index = 0 ∧ _ = activity := by
      cases index with
      | zero => exact ⟨rfl, by simpa using hindex⟩
      | succ index => simp at hindex
    exact ⟨_, hactive, htail, rfl⟩
  | rest _ _ hbusy => simp [hbusy] at hindex
  | undone _ _ hbusy => cases index <;> simp [hbusy] at hindex
  | begun _ _ _ hbusy => simp [hbusy] at hindex
  | journal _ _ hbusy => simp [hbusy] at hindex
  | failed _ _ hbusy => cases index <;> simp [hbusy] at hindex

/-- A failure is the only thing under way. -/
theorem Sound.observes (h : s.Sound) {index : ℕ} (hindex : s.busy[index]? = some .failing) :
    s.tail = [] ∧ s.busy.eraseIdx index = [] := by
  cases h.shape with
  | undone _ htail hbusy =>
    rw [hbusy] at hindex ⊢
    cases index with
    | zero => exact ⟨htail, rfl⟩
    | succ index => simp at hindex
  | failed _ htail hbusy =>
    rw [hbusy] at hindex ⊢
    cases index with
    | zero => exact ⟨htail, rfl⟩
    | succ index => simp at hindex
  | rest _ _ hbusy => simp [hbusy] at hindex
  | begun _ _ _ hbusy => simp [hbusy] at hindex
  | working _ _ hbusy => cases index <;> simp [hbusy] at hindex
  | journal _ _ hbusy => simp [hbusy] at hindex

/-- The step that is run is the one after those completed. -/
theorem prefix_snoc {completed : List DemoStep} {step : DemoStep} (h : completed <+: demoSteps)
    (hstep : demoSteps[completed.length]? = some step) : completed ++ [step] <+: demoSteps := by
  rw [List.prefix_iff_eq_take] at h
  have hnext : demoSteps.take (completed.length + 1) = completed ++ [step] := by
    rw [List.take_add_one, hstep, ← h]
    rfl
  rw [← hnext]
  exact List.take_prefix _ _

/-- A call that is accepted begins what it is for. -/
theorem Sound.begin (h : s.Sound) (hstatus : s.state.status ∈ settledStatuses)
    (hbusy : Busy.failing ∉ s.busy)
    {state : DemoState Snapshot} {activity : Activity} (hactive : Active state activity)
    (hcompleted : state.completedSteps <+: demoSteps) (hsession : state.sessionId ≠ none) :
    (s.update state (.begin activity)).Sound := by
  obtain ⟨hquiet, hempty⟩ := h.quiet hstatus hbusy
  refine ⟨hcompleted, ?_, fun hnone => absurd hnone hsession, .begun ?_ hquiet rfl hempty⟩
  · intro hready
    cases activity <;> cases hactive.1.symm.trans hready
  · cases activity <;> exact hactive

theorem Sound.resolves (h : s.Sound) {awaited : Persisting} {rest : List Persisting}
    (htail : s.tail = awaited :: rest) : ({ s with tail := rest }.resume awaited).Sound := by
  refine ⟨?_, ?_, ?_, ?_⟩
  · rw [state_resume]
    exact h.completed
  · rw [state_resume]
    exact h.next
  · rw [state_resume]
    intro hnone
    cases htail.symm.trans (h.session hnone).2.1
  · cases h.shape with
    | rest hstatus hquiet hbusy =>
      rw [htail] at hquiet
      cases hquiet with
      | closing => exact .rest hstatus .none hbusy
      | recording => exact .rest hstatus .none hbusy
    | begun hactive hquiet htail' hbusy =>
      rw [htail] at htail'
      cases hquiet with
      | none =>
        cases htail'
        exact .working hactive rfl (congrArg (· ++ _) hbusy)
      | closing =>
        cases htail'
        exact .begun hactive .none rfl hbusy
      | recording =>
        cases htail'
        exact .begun hactive .none rfl hbusy
    | journal hactive htail' hbusy =>
      rw [htail] at htail'
      cases htail'
      exact .working hactive rfl (congrArg (· ++ _) hbusy)
    | undone _ hnil => cases htail.symm.trans hnil
    | working _ hnil => cases htail.symm.trans hnil
    | failed _ hnil => cases htail.symm.trans hnil

/-- The only persist of a chain. -/
theorem eq_of_singleton {index : ℕ} {awaited only : Persisting}
    (h : [only][index]? = some awaited) :
    index = 0 ∧ awaited = only := by
  cases index with
  | zero => exact ⟨rfl, (Option.some.inj h).symm⟩
  | succ index => simp at h

theorem Sound.rejects (h : s.Sound) {index : ℕ} {awaited : Persisting}
    (hindex : s.tail[index]? = some awaited)
    (hspared : s.spared (.rejects index) = true) :
    ({ s with tail := s.tail.eraseIdx index }.reject awaited).Sound := by
  refine ⟨?_, ?_, ?_, ?_⟩
  · rw [state_reject]
    exact h.completed
  · rw [state_reject]
    exact h.next
  · rw [state_reject]
    intro hnone
    simp [(h.session hnone).2.1] at hindex
  · simp only [spared, hindex] at hspared
    cases h.shape with
    | rest hstatus hquiet hbusy =>
      generalize s.tail = tail at hquiet hindex
      cases hquiet with
      | none => simp at hindex
      | closing =>
        obtain ⟨rfl, rfl⟩ := eq_of_singleton hindex
        exact .undone hstatus rfl (congrArg (· ++ _) hbusy)
      | recording =>
        obtain ⟨rfl, rfl⟩ := eq_of_singleton hindex
        exact .rest hstatus .none hbusy
    | @begun activity quiet hactive hquiet htail hbusy =>
      -- only the record of a failure may be lost before the call that waits behind it goes on
      rw [htail] at hindex hspared ⊢
      cases hquiet with
      | none =>
        obtain ⟨rfl, rfl⟩ := eq_of_singleton hindex
        simp at hspared
      | closing =>
        cases index with
        | zero =>
          cases hindex
          simp at hspared
        | succ index =>
          obtain ⟨-, rfl⟩ := eq_of_singleton hindex
          simp at hspared
      | recording =>
        cases index with
        | zero =>
          cases hindex
          exact .begun hactive .none rfl hbusy
        | succ index =>
          obtain ⟨-, rfl⟩ := eq_of_singleton hindex
          simp at hspared
    | journal hactive htail hbusy =>
      rw [htail] at hindex ⊢
      obtain ⟨rfl, rfl⟩ := eq_of_singleton hindex
      exact .failed hactive rfl (congrArg (· ++ _) hbusy)
    | undone _ hnil => simp [hnil] at hindex
    | working _ hnil => simp [hnil] at hindex
    | failed _ hnil => simp [hnil] at hindex

theorem Quiet.of_closing {tail : List Persisting} (h : tail = []) (activity : Activity) :
    Quiet (tail ++ [.closing activity]) := by
  rw [h]
  exact .closing activity

theorem Quiet.of_recording {tail : List Persisting} (h : tail = []) :
    Quiet (tail ++ [.recording]) := by
  rw [h]
  exact .recording

/-- The last update of an operation. -/
theorem Sound.finish (h : s.Sound) {activity : Activity} (hactive : Active s.state activity)
    (htail : s.tail = [])
    (snapshot : Snapshot) : ({ s with busy := [] }.finish snapshot activity).Sound := by
  cases activity with
  | setup =>
    have hready : DemoStatus.ready ∈ settledStatuses := by decide
    refine ⟨h.completed, ?_, fun hnone => absurd hnone (h.session_of_active hactive),
      .rest hready (.of_closing htail _) rfl⟩
    intro _
    refine ⟨.coreSplit, rfl, ?_⟩
    change demoSteps[s.state.completedSteps.length]? = _
    rw [hactive.2]
    rfl
  | step step =>
    refine ⟨prefix_snoc h.completed hactive.2, ?_,
      fun hnone => absurd hnone (h.session_of_active hactive), .rest ?_ (.of_closing htail _) rfl⟩
    · intro hready
      change (if (demoSteps[(s.state.completedSteps ++ [step]).length]?).isSome
        then DemoStatus.ready else .complete) = .ready at hready
      split_ifs at hready with hnext
      obtain ⟨next, hnext⟩ := Option.isSome_iff_exists.mp hnext
      exact ⟨next, hnext, hnext⟩
    · change (if (demoSteps[(s.state.completedSteps ++ [step]).length]?).isSome
        then DemoStatus.ready else .complete) ∈ settledStatuses
      split_ifs <;> decide

/-- `fail` records its failure. -/
theorem Sound.fail (h : s.Sound) (htail : s.tail = []) (hbusy : s.busy ≠ []) (error : String)
    (observed : Option Snapshot) :
    ({ s with busy := [] }.fail error observed).Sound := by
  have hfailed : DemoStatus.failed ∈ settledStatuses := by decide
  refine ⟨h.completed, ?_, fun hnone => absurd (h.session hnone).2.2 hbusy,
    .rest hfailed (.of_recording htail) rfl⟩
  intro hready
  cases hready

/-- **A spared event leaves a sound runtime.** -/
theorem Sound.step (h : s.Sound) (hspared : s.spared e = true)
    (hstep : s.step e = some s') : s'.Sound := by
  cases e with
  | beginStart expectedRuntimeId expectedRevision assetId sessionId =>
    simp only [GuidedDemoRuntime.step] at hstep
    split at hstep
    · rename_i hok
      cases hstep
      simp only [spared, hok, Except.isOk, Except.toBool] at hspared
      obtain ⟨hstatus, asset, rfl⟩ := beginStart_eq_ok hok
      -- The condition: no call is accepted while the last update of an operation is undone.
      refine h.begin ?_ (by simpa using hspared) ⟨rfl, rfl⟩ List.nil_prefix (by simp)
      simp only [List.mem_cons, List.not_mem_nil, or_false] at hstatus
      rcases hstatus with hstatus | hstatus | hstatus <;> simp [hstatus, settledStatuses]
    · cases hstep
      exact h
  | beginStep expectedRuntimeId sessionId expectedRevision step =>
    simp only [GuidedDemoRuntime.step] at hstep
    split at hstep
    · rename_i hok
      cases hstep
      simp only [spared, hok, Except.isOk, Except.toBool] at hspared
      obtain ⟨hready, hnext, rfl⟩ := beginStep_eq_ok hok
      obtain ⟨step', hnext', hlength⟩ := h.next hready
      cases hnext.symm.trans hnext'
      refine h.begin (by simp [hready, settledStatuses]) (by simpa using hspared)
        ⟨rfl, hlength⟩ h.completed ?_
      intro hnone
      cases hready.symm.trans (h.session hnone).1
    · cases hstep
      exact h
  | resolves =>
    simp only [GuidedDemoRuntime.step] at hstep
    split at hstep
    · cases hstep
    · rename_i htail
      cases hstep
      exact h.resolves htail
  | rejects index =>
    simp only [GuidedDemoRuntime.step] at hstep
    split at hstep
    · cases hstep
    · rename_i hindex
      cases hstep
      -- The condition: no beginning is rejected, and no last update while a beginning is under way.
      exact h.rejects hindex hspared
  | submits index name signature =>
    simp only [GuidedDemoRuntime.step] at hstep
    obtain ⟨activity, hactive, htail, rfl⟩ := h.goOn hstep
    have hsession := h.session_of_active hactive
    exact ⟨h.completed, h.next, fun hnone => absurd hnone hsession,
      .journal hactive (congrArg (· ++ _) htail) rfl⟩
  | confirms index name signature slot status =>
    simp only [GuidedDemoRuntime.step] at hstep
    obtain ⟨activity, hactive, htail, rfl⟩ := h.goOn hstep
    have hsession := h.session_of_active hactive
    rw [confirmed]
    split
    · exact ⟨h.completed, h.next, fun hnone => absurd hnone hsession, .failed hactive htail rfl⟩
    · exact ⟨h.completed, h.next, fun hnone => absurd hnone hsession,
        .journal hactive (congrArg (· ++ _) htail) rfl⟩
  | persists index =>
    simp only [GuidedDemoRuntime.step] at hstep
    obtain ⟨activity, hactive, htail, rfl⟩ := h.goOn hstep
    have hsession := h.session_of_active hactive
    exact ⟨h.completed, h.next, fun hnone => absurd hnone hsession,
      .journal hactive (congrArg (· ++ _) htail) rfl⟩
  | throws index =>
    simp only [GuidedDemoRuntime.step] at hstep
    obtain ⟨activity, hactive, htail, rfl⟩ := h.goOn hstep
    have hsession := h.session_of_active hactive
    exact ⟨h.completed, h.next, fun hnone => absurd hnone hsession, .failed hactive htail rfl⟩
  | finishes index snapshot =>
    simp only [GuidedDemoRuntime.step] at hstep
    obtain ⟨activity, hactive, htail, rfl⟩ := h.goOn hstep
    exact h.finish hactive htail snapshot
  | observes index error observed =>
    simp only [GuidedDemoRuntime.step] at hstep
    split at hstep
    · rename_i hindex
      cases hstep
      obtain ⟨htail, hbusy⟩ := h.observes hindex
      rw [hbusy]
      exact h.fail htail (List.ne_nil_of_mem (List.mem_of_getElem? hindex)) error observed
    · cases hstep

/-! ## Runs -/

/-- How many setups and steps are under way in the background. -/
def backgrounds (s : GuidedDemoRuntime Snapshot) : ℕ :=
  (s.busy.countP fun
    | .working _ => true
    | .failing => false) +
  s.tail.countP fun
    | .journal _ => true
    | .closing _ => true
    | .begin _ => false
    | .recording => false

/-- A call that begins something would be accepted. -/
def Accepts (s : GuidedDemoRuntime Snapshot) : Prop :=
  (∃ expectedRuntimeId expectedRevision assetId sessionId,
    (s.beginStart expectedRuntimeId expectedRevision assetId sessionId).isOk = true) ∨
  ∃ expectedRuntimeId sessionId expectedRevision step,
    (s.beginStep expectedRuntimeId sessionId expectedRevision step).isOk = true

/-- **A healthy runtime**: the completed steps are the first ones, the next one is offered when it
is ready, one operation runs at most, something can be begun again when nothing is under way, and
the revision goes up with every change. -/
def Healthy (s : GuidedDemoRuntime Snapshot) : Prop :=
  s.state.completedSteps <+: demoSteps ∧
    (s.state.status = .ready → ∃ step, s.state.nextStep = some step ∧
      demoSteps[s.state.completedSteps.length]? = some step) ∧
    s.backgrounds ≤ 1 ∧
    (s.tail = [] → s.busy = [] → s.state.status ∈ settledStatuses ∧ s.Accepts) ∧
    ∀ e s', s.step e = some s' → s'.state = s.state ∨ s.state.revision < s'.state.revision

/-- Where nothing is active, something can be begun: the next step, or a setup. -/
theorem Sound.accepts (h : s.Sound) (hstatus : s.state.status ∈ settledStatuses) : s.Accepts := by
  by_cases hready : s.state.status = .ready
  · obtain ⟨step, hnext, -⟩ := h.next hready
    have hsession : s.state.sessionId ≠ none := by
      intro hnone
      cases hready.symm.trans (h.session hnone).1
    obtain ⟨sessionId, hsession⟩ := Option.ne_none_iff_exists'.mp hsession
    refine .inr ⟨s.state.runtimeId, sessionId, s.state.revision, step, ?_⟩
    rw [beginStep, if_neg (by simp [hsession]), if_neg (by simp [hready, hnext])]
    rfl
  · have hmem : s.state.status ∈ [DemoStatus.idle, .complete, .failed] := by
      revert hstatus hready
      generalize s.state.status = status
      cases status <;> decide
    refine .inl ⟨s.state.runtimeId, s.state.revision, "ondo-test-ibm", "", ?_⟩
    rw [beginStart, if_neg (by simp), if_neg (not_not.mpr hmem)]
    rfl

theorem Sound.backgrounds_le (h : s.Sound) : s.backgrounds ≤ 1 := by
  rw [backgrounds]
  cases h.shape with
  | rest _ hquiet hbusy =>
    rw [hbusy]
    generalize s.tail = tail at hquiet
    cases hquiet <;> simp
  | undone _ htail hbusy => simp [htail, hbusy]
  | begun _ hquiet htail hbusy =>
    rw [htail, hbusy]
    cases hquiet <;> simp
  | working _ htail hbusy => simp [htail, hbusy]
  | journal _ htail hbusy => simp [htail, hbusy]
  | failed _ htail hbusy => simp [htail, hbusy]

theorem Sound.settled (h : s.Sound) (htail : s.tail = []) (hbusy : s.busy = []) :
    s.state.status ∈ settledStatuses := by
  cases h.shape with
  | rest hstatus => exact hstatus
  | undone hstatus => exact hstatus
  | begun _ _ htail' => simp [htail'] at htail
  | working _ _ hbusy' => simp [hbusy'] at hbusy
  | journal _ htail' => simp [htail'] at htail
  | failed _ _ hbusy' => simp [hbusy'] at hbusy

theorem Sound.healthy (h : s.Sound) : s.Healthy := by
  refine ⟨h.completed, h.next, h.backgrounds_le, ?_, ?_⟩
  · intro htail hbusy
    have hstatus := h.settled htail hbusy
    exact ⟨hstatus, h.accepts hstatus⟩
  · intro e s' hstep
    rcases revision_step hstep with hsame | hone
    · exact .inl hsame
    · exact .inr (by omega)

theorem sound_start (runtimeId : String) :
    (start runtimeId : GuidedDemoRuntime Snapshot).Sound where
  completed := List.nil_prefix
  next := by
    intro hready
    cases hready
  session := fun _ => ⟨rfl, rfl, rfl⟩
  shape := .rest (show DemoStatus.idle ∈ settledStatuses by decide) .none rfl

/-- An event, if it is spared. -/
def stepSpared (s : GuidedDemoRuntime Snapshot) (e : Event Snapshot) :
    Option (GuidedDemoRuntime Snapshot) :=
  if s.spared e then s.step e else none

/-- **The runtime never wedges while its calls are persisted.** In every run of spared events, every
runtime reached is healthy. -/
theorem healthy_of_spared {runtimeId : String} {tr : List (Event Snapshot)}
    (h : Run stepSpared (start runtimeId) tr s) : s.Healthy := by
  have hsound : s.Sound := by
    refine h.invariant (sound_start runtimeId) ?_
    intro t e u ht hstep
    rw [stepSpared] at hstep
    split_ifs at hstep with hspared
    exact ht.step hspared hstep
  exact hsound.healthy

/-- A setup whose journal cannot be written fails, and so does the record of that; another may be
started. -/
theorem healthy_of_spared_sample :
    ∃ s : GuidedDemoRuntime Unit, Run stepSpared (start "runtime")
        [.beginStart "runtime" 0 "ondo-test-ibm" "session", .resolves,
          .submits 0 "fund" "signature", .rejects 0,
          .observes 0 "disk full" none, .rejects 0] s ∧ s.state.status = .failed ∧ s.Healthy := by
  have hrun : ∃ s : GuidedDemoRuntime Unit, runAll stepSpared (start "runtime")
      [.beginStart "runtime" 0 "ondo-test-ibm" "session", .resolves,
        .submits 0 "fund" "signature", .rejects 0,
        .observes 0 "disk full" none, .rejects 0] = some s ∧ s.state.status = .failed :=
          ⟨_, rfl, rfl⟩
  obtain ⟨s, hs, hstatus⟩ := hrun
  exact ⟨s, runAll_eq_some.mp hs, hstatus, healthy_of_spared (runAll_eq_some.mp hs)⟩

/-- **A call whose persist rejects wedges the runtime**: nothing is under way, and it is still
preparing. -/
theorem not_healthy : ¬∀ (tr : List (Event Unit)) (s : GuidedDemoRuntime Unit),
    Run step (start "runtime") tr s → s.Healthy := by
  intro hall
  have hrun : ∃ s : GuidedDemoRuntime Unit, runAll step (start "runtime")
      [.beginStart "runtime" 0 "ondo-test-ibm" "session", .rejects 0] = some s ∧
        s.tail = [] ∧ s.busy = [] ∧
      s.state.status = .preparing := ⟨_, rfl, rfl, rfl, rfl⟩
  obtain ⟨s, hs, htail, hbusy, hstatus⟩ := hrun
  obtain ⟨-, -, -, hsettled, -⟩ := hall _ s (runAll_eq_some.mp hs)
  have hmem := (hsettled htail hbusy).1
  rw [hstatus] at hmem
  exact absurd hmem (by decide)

end GuidedDemoRuntime

end Guided

end DividendX
