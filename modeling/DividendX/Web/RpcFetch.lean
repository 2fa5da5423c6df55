import DividendX.Lib.Monitor
import DividendX.Web.RequestScheduler

/-!
# The browser's bounded fetch

`createBoundedRpcFetch` of the wallet, `apps/web/src/wallet/runtime.ts`: a request that waits for a
slot of the scheduler before every attempt, and is tried again after a transient answer. It is a
program of calls: those to the scheduler, those to the platform, and those that read the clock and
the signals, so that anything may happen between two of them.

A promise of a slot is asked for (`acquire`) and awaited (`slot`) in two calls. The function that
releases a slot is named by the waiter it was granted to.
-/

namespace DividendX

namespace Web

/-- What is thrown: an error of the wallet, or what the platform throws. -/
inductive Cause where
  | error (message : String)
  | thrown (reason : ℕ)
deriving DecidableEq, Repr

/-- A response, as far as it is looked at. -/
structure Response where
  status : ℕ
  retryAfter : Option String
deriving DecidableEq, Repr

/-- `RpcFetchOptions`. -/
structure RpcFetchOptions where
  retryTransient : Bool := false
  scheduler : Bool := false
  onExpired : Bool := false
deriving DecidableEq, Repr

/-- `RPC_TIMEOUT_MS`. -/
def rpcTimeoutMs : ℚ := 15000

/-- One call of a function that `createBoundedRpcFetch` made: the arguments that made it, and the
signal of the controller of the call. -/
structure RpcFetch where
  timeoutMs : ℚ := rpcTimeoutMs
  label : String := "Local RPC"
  options : RpcFetchOptions := {}
  signal : ℕ
deriving DecidableEq, Repr

/-- `Number(header) * 1_000` and `Date.parse(header)` of the platform; `none` is a value that is not
finite. -/
structure Platform where
  milliseconds : String → Option ℚ
  parseDate : String → Option ℚ

namespace RpcFetch

/-- What a call of the function does. -/
inductive Call where
  | arm (timeoutMs : ℚ)
  | disarm
  | acquire (signal : ℕ)
  | slot (waiter : ℕ)
  | release (waiter : ℕ)
  | defer (delayMs : Option ℚ)
  | fetch (signal : ℕ)
  | onExpired (message : String)
  | now
  | arrayBuffer
  | cancel
  | delay (delayMs : Option ℚ)
  | signals

/-- What it learns. `signals` answers with the reason of the controller's signal, if that has
aborted, and whether the caller's has. -/
@[reducible] def Answer : Call → Type
  | .arm _ => Unit
  | .disarm => Unit
  | .acquire _ => ℕ
  | .slot _ => Except Cause Unit
  | .release _ => Unit
  | .defer _ => Unit
  | .fetch _ => Except Cause Response
  | .onExpired _ => Except Cause Unit
  | .now => ℚ
  | .arrayBuffer => Except Cause Unit
  | .cancel => Except Cause Unit
  | .delay _ => Except Cause Unit
  | .signals => Option Cause × Bool

/-- A promise. -/
abbrev Promise (α : Type) : Type := ExceptT Cause (Async Call Answer) α

/-- `drainRejectedResponse`. -/
def drainRejectedResponse : Promise Unit :=
  tryCatch (Async.call .arrayBuffer id) fun _ => tryCatch (Async.call .cancel id) fun _ => pure ()

/-- The white space that `trim` takes off. -/
def isWhiteSpace (c : Char) : Bool :=
  c ∈ ['\t', '\n', '\x0b', '\x0c', '\r', ' ', '\u00a0', '\u1680', '\u2028',
    '\u2029', '\u202f', '\u205f', '\u3000', '\ufeff'] || (0x2000 ≤ c.toNat && c.toNat ≤ 0x200a)

/-- `/^\d+(?:\.\d+)?$/`, of the trimmed header. -/
def isDelaySeconds (header : String) : Bool :=
  let trimmed := ((header.toList.dropWhile isWhiteSpace).reverse.dropWhile isWhiteSpace).reverse
  let whole := trimmed.takeWhile Char.isDigit
  match trimmed.dropWhile Char.isDigit with
  | [] => whole ≠ []
  | '.' :: fraction => whole ≠ [] && fraction ≠ [] && fraction.all Char.isDigit
  | _ => false

/-- `retryDelayMs`. An empty header is no header. -/
def retryDelayMs (platform : Platform) (response : Response) (attempt : ℕ) : Promise (Option ℚ) :=
  let exponential : Option ℚ := some (250 * 2 ^ attempt)
  match response.retryAfter.filter (· ≠ "") with
  | none => pure exponential
  | some header =>
    if isDelaySeconds header then pure (platform.milliseconds header)
    else match platform.parseDate header with
      | none => pure exponential
      | some date => do
        let now : ℚ ← Async.ask Call.now
        pure (some (max 0 (date - now)))

variable (platform : Platform) (call : RpcFetch)

/-- `attempts`. -/
def attempts : ℕ := if call.options.retryTransient then 4 else 1

/-- The slot of an attempt, if there is a scheduler to wait for. -/
def acquireSlot : Promise (Option ℕ) :=
  if call.options.scheduler then do
    let waiter : ℕ ← Async.ask (Call.acquire call.signal)
    Async.call (Call.slot waiter) id
    pure (some waiter)
  else pure none

/-- `release()`. -/
def releaseSlot : Option ℕ → Promise Unit
  | none => pure ()
  | some waiter => Async.ask (Call.release waiter)

/-- The wallet is told that its sandbox is gone. -/
def notifyExpired (response : Response) : Promise Unit :=
  if response.status = 410 ∧ call.options.onExpired = true then
    Async.call
      (.onExpired "This sandbox expired or was replaced. Transaction controls were cleared.") id
  else pure ()

def transient (response : Response) : Bool :=
  call.options.retryTransient && (response.status == 429 || response.status == 503)

def retry (response : Response) (attempt : ℕ) : Bool :=
  call.transient response && attempt + 1 < call.attempts

/-- The scheduler, if there is one, is held back with the request. -/
def deferScheduler (backoffMs : Option ℚ) : Promise Unit :=
  if call.options.scheduler then Async.ask (Call.defer backoffMs) else pure ()

/-- How long to wait after a transient answer. -/
def backoff (response : Response) (attempt : ℕ) : Promise (Option ℚ) :=
  if call.transient response then do
    let backoffMs ← retryDelayMs platform response attempt
    call.deferScheduler backoffMs
    pure backoffMs
  else pure (some 0)

/-- What is done with a slot, in the inner `try`. -/
def exchange (attempt : ℕ) : Promise (Response × Option ℚ) := do
  let response ← Async.call (.fetch call.signal) id
  call.notifyExpired response
  let backoffMs ← call.backoff platform response attempt
  if call.retry response attempt then do
    drainRejectedResponse
    pure (response, backoffMs)
  else pure (response, backoffMs)

/-- An attempt, with the inner `finally`. -/
def attemptOnce (attempt : ℕ) : Promise (Response × Option ℚ) := do
  let slot ← call.acquireSlot
  let outcome ← Async.settle (call.exchange platform attempt)
  releaseSlot slot
  Async.sync outcome

/-- The attempts from one on, so many of them left. -/
def attemptFrom (attempt : ℕ) : ℕ → Promise Response
  | 0 => throw (.error (call.label ++ " request exhausted its retry attempts."))
  | left + 1 => do
    let (response, backoffMs) ← call.attemptOnce platform attempt
    if call.retry response attempt then do
      Async.call (.delay backoffMs) id
      attemptFrom (attempt + 1) left
    else pure response

/-- The outer `catch`: a timeout is told from an abort of the caller by who aborted. -/
def rethrow (cause : Cause) : Promise Response := do
  let (reason, callerAborted) ← Async.ask Call.signals
  match reason with
  | some reason => throw (if callerAborted then cause else reason)
  | none => throw cause

/-- The function that `createBoundedRpcFetch` makes, called. -/
def fetch : Promise Response := do
  Async.ask (Call.arm call.timeoutMs)
  let outcome ← Async.settle (tryCatch (call.attemptFrom platform 0 call.attempts) rethrow)
  Async.ask Call.disarm
  Async.sync outcome

/-- A call of the function. -/
def program : Async Call Answer Unit := (call.fetch platform).run.forget

/-! ## Slots, by what the function sees -/

/-- The promise it awaits and the slot it has. -/
structure Slots where
  waiting : Option ℕ := none
  held : Option ℕ := none
deriving DecidableEq, Repr

/-- Watches the slots of one call: a slot is asked for when there is none, and released when it is
held. -/
def slots : Monitor Slots Call Answer where
  may
    | s, .acquire _ => s = {}
    | s, .slot waiter => s = { waiting := some waiter }
    | s, .release waiter => s = { held := some waiter }
    | _, _ => True
  next
    | s, .acquire _, (waiter : ℕ) => { s with waiting := some waiter }
    | _, .slot waiter, (x : Except Cause Unit) => match x with
      | .ok () => { held := some waiter }
      | .error _ => {}
    | _, .release _, _ => {}
    | s, _, _ => s

variable {platform call} {s : Slots} {waiter : ℕ}

open Monitor (Keeps Gives)

theorem keeps_drainRejectedResponse : slots.Keeps s drainRejectedResponse := by
  refine Keeps.tryCatch (.call trivial fun _ => rfl) fun _ => ?_
  exact Keeps.tryCatch (.call trivial fun _ => rfl) fun _ => .pure ()

theorem keeps_retryDelayMs {response : Response} {attempt : ℕ} :
    slots.Keeps s (retryDelayMs platform response attempt) := by
  unfold retryDelayMs
  dsimp only
  split
  · exact .pure _
  · refine .ite (.pure _) ?_
    split
    · exact .pure _
    · exact Keeps.bind (.ask trivial fun _ => rfl) fun now => .pure _

theorem keeps_backoff {response : Response} {attempt : ℕ} :
    slots.Keeps s (call.backoff platform response attempt) := by
  refine .ite (keeps_retryDelayMs.bind fun backoffMs => ?_) (.pure _)
  refine Keeps.bind ?_ fun _ => .pure backoffMs
  exact .ite (.ask trivial fun _ => rfl) (.pure ())

/-- What is done with a slot leaves it alone, whatever is thrown. -/
theorem keeps_exchange {attempt : ℕ} : slots.Keeps s (call.exchange platform attempt) := by
  refine Keeps.bind (.call trivial fun _ => rfl) fun response => ?_
  refine Keeps.bind (.ite (.call trivial fun _ => rfl) (.pure ())) fun _ => ?_
  refine keeps_backoff.bind fun backoffMs => ?_
  exact .ite (keeps_drainRejectedResponse.bind fun _ => .pure _) (.pure _)

/-- Waiting for a slot ends with it, or with nothing. -/
theorem gives_acquireSlot :
    slots.Gives (fun slot s => s = { held := slot }) (fun s => s = {}) call.acquireSlot {} := by
  refine .ite (fun _ => ?_) (fun _ => .pure rfl)
  have hask : slots.Gives (fun waiter s => s = { waiting := some waiter }) (fun s => s = {})
      (Async.ask (Call.acquire call.signal) : Promise ℕ) {} := Gives.ask rfl fun _ => rfl
  refine hask.bind fun waiter s hs => ?_
  subst hs
  have hslot : slots.Gives (fun _ s => s = { held := some waiter }) (fun s => s = {})
      (Async.call (Call.slot waiter) id : Promise Unit) { waiting := some waiter } := by
    refine Gives.call rfl ?_ ?_
    · intro x a hx
      cases hx
      rfl
    · intro x e hx
      cases hx
      rfl
  refine hslot.bind fun _ s hs => ?_
  subst hs
  exact .pure rfl

theorem gives_releaseSlot {slot : Option ℕ} :
    slots.Gives (fun _ s => s = {}) (fun s => s = {}) (releaseSlot slot) { held := slot } := by
  cases slot with
  | none => exact .pure rfl
  | some waiter => exact Gives.ask rfl fun _ => rfl

/-- An attempt gives its slot back, by the inner `finally`. -/
theorem keeps_attemptOnce {attempt : ℕ} : slots.Keeps {} (call.attemptOnce platform attempt) := by
  refine gives_acquireSlot.bind fun slot s hs => ?_
  subst hs
  -- the outcome is settled first, so the slot is released on either way
  have hsettle : slots.Gives (fun _ s => s = { held := slot }) (fun s => s = {})
      (Async.settle (call.exchange platform attempt)) { held := slot } :=
    (Gives.settle keeps_exchange).mono (fun r _ hr => match r, hr with
      | .ok _, hr => hr
      | .error _, hr => hr) fun _ hs => hs
  refine hsettle.bind fun outcome s hs => ?_
  subst hs
  exact gives_releaseSlot.bind fun _ s hs => hs ▸ Keeps.sync outcome

theorem keeps_attemptFrom {attempt left : ℕ} :
    slots.Keeps {} (call.attemptFrom platform attempt left) := by
  induction left generalizing attempt with
  | zero => exact .throw _
  | succ left ih =>
    refine keeps_attemptOnce.bind fun ⟨response, backoffMs⟩ => ?_
    exact .ite (Keeps.bind (.call trivial fun _ => rfl) fun _ => ih) (.pure response)

/-- **A call ends without a slot**, whatever it returns or throws. -/
theorem keeps_fetch : slots.Keeps {} (call.fetch platform) := by
  refine Keeps.bind (.ask trivial fun _ => rfl) fun _ => ?_
  refine Keeps.bind (.settle (keeps_attemptFrom.tryCatch fun cause => ?_)) fun outcome => ?_
  · refine Keeps.bind (.ask trivial fun _ => rfl) fun ⟨reason, callerAborted⟩ => ?_
    cases reason with
    | none => exact .throw cause
    | some reason => exact .throw _
  · exact Keeps.bind (.ask trivial fun _ => rfl) fun _ => .sync outcome

theorem obeys_program : slots.Obeys (fun _ s => s = {}) (call.program platform) {} := by
  refine Monitor.Obeys.bind (Monitor.Obeys.mono keeps_fetch ?_)
  intro r s hs
  cases r <;> exact hs

/-! ## Calls over one scheduler -/

variable (limits : RequestLimits) (clock : ℕ → ℚ)

/-- How a scheduler answers. A promise of a slot is settled as the scheduler settled the waiter;
what the platform answers is not restricted. -/
def Answers : (c : Call) → RequestScheduler → Answer c → RequestScheduler → Prop
  | .acquire signal, w, (waiter : ℕ), w' =>
    waiter = w.arrivals.length ∧ w' = w.step limits clock (.acquire signal)
  | .slot waiter, w, (x : Except Cause Unit), w' => w' = w ∧ match x with
    | .ok () => w.Granted waiter
    | .error _ => ∃ m why, Mark.rejected m why ∈ w.history ∧ m.id = waiter
  | .release waiter, w, _, w' => w' = w.step limits clock (.release waiter)
  | .defer delayMs, w, _, w' => w' = w.step limits clock (.defer delayMs)
  | .arm _, w, _, w' => w' = w
  | .disarm, w, _, w' => w' = w
  | .fetch _, w, _, w' => w' = w
  | .onExpired _, w, _, w' => w' = w
  | .now, w, _, w' => w' = w
  | .arrayBuffer, w, _, w' => w' = w
  | .cancel, w, _, w' => w' = w
  | .delay _, w, _, w' => w' = w
  | .signals, w, _, w' => w' = w

/-- Any number of calls over one scheduler, to which anything may happen besides. -/
def machine (platform : Platform) :
    Machine RequestScheduler Call Answer RequestScheduler.Event where
  answers := Answers limits clock
  drifts event w w' := w' = w.step limits clock event
  starts p := ∃ call, p = program platform call

variable {limits clock} {w w' : RequestScheduler}
    {story story' : Story RequestScheduler Call Answer RpcFetch}

/-- The scheduler is the same, or one event later. -/
theorem step_of_answers {c : Call} {x : Answer c} (h : Answers limits clock c w x w') :
    w' = w ∨ ∃ event, w' = w.step limits clock event := by
  cases c with
  | acquire signal => exact .inr ⟨_, h.2⟩
  | slot => exact .inl h.1
  | release => exact .inr ⟨_, h⟩
  | defer => exact .inr ⟨_, h⟩
  | _ => exact .inl h

theorem step_of_tells (h : (machine limits clock platform).Tells (program platform) story story') :
    story'.world = story.world ∨ ∃ event, story'.world = story.world.step limits clock event := by
  cases h with
  | start => exact .inl rfl
  | answer _ hanswer => exact step_of_answers hanswer
  | drift hdrift => exact .inr ⟨_, hdrift⟩

theorem run_of_told (h : (machine limits clock platform).Told (program platform) ⟨{}, []⟩ story) :
    ∃ events, story.world = RequestScheduler.run limits clock events := by
  induction h with
  | refl => exact ⟨[], rfl⟩
  | tail _ htells ih =>
    obtain ⟨events, hworld⟩ := ih
    rcases step_of_tells htells with hsame | ⟨event, hstep⟩
    · exact ⟨events, hsame.trans hworld⟩
    · refine ⟨events ++ [event], ?_⟩
      rw [hstep, hworld, RequestScheduler.run, RequestScheduler.run, List.foldl_append]
      rfl

/-- What the calls were told of their slots is so at the scheduler. -/
structure Linked (story : Story RequestScheduler Call Answer RpcFetch) : Prop where
  granted : ∀ n waiter, story.Made n ⟨.slot waiter, .ok ()⟩ → story.world.Granted waiter
  rejected : ∀ n waiter cause, story.Made n ⟨.slot waiter, .error cause⟩ →
    ∃ m why, Mark.rejected m why ∈ story.world.history ∧ m.id = waiter
  released : ∀ n waiter, story.Made n ⟨.release waiter, ()⟩ → waiter ∈ story.world.released

/-- The state of the monitor, for one waiter. -/
def Slots.Open (s : Slots) (waiter : ℕ) : Prop := s.waiting = some waiter ∨ s.held = some waiter

/-- A call that has a slot was told so. -/
theorem told_of_held {s : Slots} {tr : List (Σ c, Answer c)} {waiter : ℕ}
    (h : (slots.after s tr).held = some waiter) :
    s.held = some waiter ∨ (⟨.slot waiter, .ok ()⟩ : Σ c, Answer c) ∈ tr := by
  induction tr generalizing s with
  | nil => exact .inl h
  | cons entry tr ih =>
    rcases ih h with hheld | htold
    · obtain ⟨c, x⟩ := entry
      cases c with
      | slot waiter' =>
        cases x with
        | ok =>
          cases hheld
          exact .inr List.mem_cons_self
        | error => cases hheld
      | release => cases hheld
      | _ => exact .inl hheld
    · exact .inr (List.mem_cons_of_mem _ htold)

/-- What the monitor has of a waiter stays until its promise is rejected or its slot released. -/
theorem open_next {s : Slots} {c : Call} {x : Answer c} {waiter : ℕ} (hmay : slots.may s c)
    (h : s.Open waiter) : (slots.next s c x).Open waiter ∨
      (∃ cause, (⟨c, x⟩ : Σ c, Answer c) = ⟨.slot waiter, .error cause⟩) ∨
      (⟨c, x⟩ : Σ c, Answer c) = ⟨.release waiter, ()⟩ := by
  cases c with
  | acquire signal =>
    cases (hmay : s = {})
    rcases h with h | h <;> cases h
  | slot waiter' =>
    cases (hmay : s = { waiting := some waiter' })
    rcases h with h | h
    · cases h
      cases x with
      | ok => exact .inl (.inr rfl)
      | error cause => exact .inr (.inl ⟨cause, rfl⟩)
    · cases h
  | release waiter' =>
    cases (hmay : s = { held := some waiter' })
    rcases h with h | h
    · cases h
    · cases h
      exact .inr (.inr rfl)
  | _ => exact .inl h

/-- A call that ends without a slot was refused every slot it asked for, or released it. -/
theorem closed_of_ends {s : Slots} {tr : List (Σ c, Answer c)} {waiter : ℕ}
    (haccepts : slots.Accepts s tr)
    (hend : slots.after s tr = {})
    (h : s.Open waiter ∨ ∃ signal, (⟨.acquire signal, waiter⟩ : Σ c, Answer c) ∈ tr) :
    (∃ cause, (⟨.slot waiter, .error cause⟩ : Σ c, Answer c) ∈ tr) ∨
      (⟨.release waiter, ()⟩ : Σ c, Answer c) ∈ tr := by
  induction tr generalizing s with
  | nil =>
    cases (hend : s = {})
    rcases h with (h | h) | ⟨_, h⟩ <;> cases h
  | cons entry tr ih =>
    obtain ⟨hmay, hrest⟩ := haccepts
    have hlater : (slots.next s entry.1 entry.2).Open waiter ∨
        (∃ signal, (⟨.acquire signal, waiter⟩ : Σ c, Answer c) ∈ tr) →
        (∃ cause, (⟨.slot waiter, .error cause⟩ : Σ c, Answer c) ∈ entry :: tr) ∨
          (⟨.release waiter, ()⟩ : Σ c, Answer c) ∈ entry :: tr := by
      intro h
      rcases ih hrest hend h with ⟨cause, hrejected⟩ | hreleased
      · exact .inl ⟨cause, List.mem_cons_of_mem _ hrejected⟩
      · exact .inr (List.mem_cons_of_mem _ hreleased)
    rcases h with h | ⟨signal, h⟩
    · rcases open_next (x := entry.2) hmay h with h | ⟨cause, h⟩ | h
      · exact hlater (.inl h)
      · exact .inl ⟨cause, h ▸ List.mem_cons_self⟩
      · exact .inr (h ▸ List.mem_cons_self)
    · rcases List.mem_cons.mp h with rfl | h
      · exact hlater (.inl (.inl rfl))
      · exact hlater (.inr ⟨signal, h⟩)

/-- One moment: what was told stays so, and what is told is so. -/
theorem Linked.tells (h : Linked story) (htracked : story.Tracked (program platform))
    (htells : (machine limits clock platform).Tells (program platform) story story') :
    Linked story' := by
  have hextends : RequestScheduler.Extends story.world story'.world := by
    rcases step_of_tells htells with hsame | ⟨event, hstep⟩
    · rw [hsame]
      exact .refl _
    · rw [hstep]
      exact RequestScheduler.extends_step event
  cases htells with
  | start call =>
    refine ⟨fun n waiter hmade => ?_, fun n waiter cause hmade => ?_, fun n waiter hmade => ?_⟩
    · exact h.granted n waiter ((Story.made_start _ _).mp hmade)
    · exact h.rejected n waiter cause ((Story.made_start _ _).mp hmade)
    · exact h.released n waiter ((Story.made_start _ _).mp hmade)
  | drift hdrift =>
    refine ⟨fun n waiter hmade => ?_, fun n waiter cause hmade => ?_, fun n waiter hmade => ?_⟩
    · exact hextends.granted (h.granted n waiter hmade)
    · obtain ⟨m, why, hm, hid⟩ := h.rejected n waiter cause hmade
      exact ⟨m, why, hextends.history hm, hid⟩
    · exact hextends.released (h.released n waiter hmade)
  | @answer w w' cs index call tr c k x hn hanswer =>
    refine ⟨fun n waiter hmade => ?_, fun n waiter cause hmade => ?_, fun n waiter hmade => ?_⟩
    · rcases (Story.made_answer hn n _).mp hmade with hold | ⟨-, hnew⟩
      · exact hextends.granted (h.granted n waiter hold)
      · cases hnew
        exact hextends.granted hanswer.2
    · rcases (Story.made_answer hn n _).mp hmade with hold | ⟨-, hnew⟩
      · obtain ⟨m, why, hm, hid⟩ := h.rejected n waiter cause hold
        exact ⟨m, why, hextends.history hm, hid⟩
      · cases hnew
        obtain ⟨m, why, hm, hid⟩ := hanswer.2
        exact ⟨m, why, hextends.history hm, hid⟩
    · rcases (Story.made_answer hn n _).mp hmade with hold | ⟨-, hnew⟩
      · exact hextends.released (h.released n waiter hold)
      · cases hnew
        -- a slot is released by a call that was told it has one, so there is something to release
        have hcall : (⟨call, tr, .await (.release waiter) k⟩ : Started Call Answer RpcFetch) ∈ cs :=
          List.mem_of_getElem? hn
        obtain ⟨-, hobeys⟩ := (@obeys_program platform call).reaches (htracked _ hcall)
        have hheld : (slots.after {} tr).held = some waiter := congrArg Slots.held hobeys.1
        have htold := (told_of_held hheld).resolve_left (by simp)
        have hgranted : w.Granted waiter := h.granted index waiter ⟨_, hn, htold⟩
        rw [(hanswer : w' = _)]
        exact RequestScheduler.released_release hgranted

theorem tracked_of_told
    (h : (machine limits clock platform).Told (program platform) ⟨{}, []⟩ story) :
    story.Tracked (program platform) :=
  Story.Tracked.told (fun _ he => (List.not_mem_nil he).elim) h

theorem linked_of_told
    (h : (machine limits clock platform).Told (program platform) ⟨{}, []⟩ story) :
    Linked story := by
  induction h with
  | refl =>
    refine ⟨fun n waiter hmade => ?_, fun n waiter cause hmade => ?_, fun n waiter hmade => ?_⟩ <;>
    · obtain ⟨e, he, -⟩ := hmade
      cases he
  | tail htold htells ih => exact ih.tells (tracked_of_told htold) htells

/-- A call that has ended has given back what it was granted. -/
theorem released_of_ended (hclock : Monotone clock)
    (h : (machine limits clock platform).Told (program platform) ⟨{}, []⟩ story)
    {e : Started Call Answer RpcFetch} (he : e ∈ story.calls) (hend : e.rest = .done ())
    {signal waiter : ℕ}
    (hacquire : (⟨.acquire signal, waiter⟩ : Σ c, Answer c) ∈ e.trace)
    (hgranted : story.world.Granted waiter) : waiter ∈ story.world.released := by
  obtain ⟨n, hn⟩ := List.getElem?_of_mem he
  obtain ⟨haccepts, hobeys⟩ := (@obeys_program platform e.label).reaches (tracked_of_told h e he)
  rw [hend] at hobeys
  rcases closed_of_ends haccepts hobeys (.inr ⟨signal, hacquire⟩)
    with ⟨cause, hrejected⟩ | hreleased
  · -- a waiter whose promise was rejected was never granted a slot
    obtain ⟨m, why, hm, hid⟩ := (linked_of_told h).rejected n waiter cause ⟨e, hn, hrejected⟩
    obtain ⟨events, hworld⟩ := run_of_told h
    obtain ⟨w, hw, heq⟩ := hgranted
    have hkept := @RequestScheduler.kept_run limits clock hclock events
    rw [← hworld] at hkept
    exact absurd (heq.trans hid.symm) (hkept.orderly.not_rejected hw hm)
  · exact (linked_of_told h).released n waiter ⟨e, hn, hreleased⟩

/-- **Slots are neither leaked nor oversubscribed.** Whatever happens to a scheduler: the slots in
use are those granted and not released, between none and the limit; slots are granted in arrival
order, an interval apart and not during a cooldown; everyone who asked waits or was settled, once;
and while a slot is free and anyone waits, a timer is pending. And over a scheduler to which
anything happens, every call of the fetch function that has ended has released each slot it was
granted. -/
theorem slots_kept (hclock : Monotone clock) :
    (∀ events : List RequestScheduler.Event,
      let s := RequestScheduler.run limits clock events
      s.active = (startedOf s.history).length - s.released.length ∧
        s.released.Nodup ∧ (∀ waiter ∈ s.released, s.Granted waiter) ∧
        0 ≤ s.active ∧ s.active ≤ limits.limit ∧
        s.history.Pairwise (Mark.Admits SlotWaiter.id limits.minimumStartIntervalMs) ∧
        (s.waiters ++ settled s.history).Perm (RequestScheduler.asked events) ∧
        (s.active < limits.limit → s.waiters ≠ [] → ∃ t ∈ s.timers.pending, s.timer = some t.id ∧
          t.due ≤ max s.nextStartAt s.cooldownUntil)) ∧
    ∀ platform story, (machine limits clock platform).Told (program platform) ⟨{}, []⟩ story →
      (∃ events, story.world = RequestScheduler.run limits clock events) ∧
      ∀ e ∈ story.calls, e.rest = .done () → ∀ signal waiter,
        (⟨.acquire signal, waiter⟩ : Σ c, Answer c) ∈ e.trace → story.world.Granted waiter →
          waiter ∈ story.world.released := by
  constructor
  · intro events s
    have hkept : RequestScheduler.Kept limits clock s := RequestScheduler.kept_run hclock events
    refine ⟨hkept.counted, hkept.distinct, hkept.granted, hkept.active_nonneg, hkept.within,
      hkept.orderly.admits, ?_, hkept.armed⟩
    rw [← @RequestScheduler.arrivals_run limits clock events]
    exact hkept.orderly.accounted
  · intro platform story htold
    refine ⟨run_of_told htold, ?_⟩
    intro e he hend signal waiter hacquire hgranted
    exact released_of_ended hclock htold he hend hacquire hgranted

/-- The only call of a story goes on. -/
theorem told_only {e : Started Call Answer RpcFetch} {call : RpcFetch} {tr : List (Σ c, Answer c)}
    (h : (machine limits clock platform).Told (program platform) ⟨{}, []⟩ ⟨w, [e]⟩) (c : Call)
    (x : Answer c) {k : Answer c → Async Call Answer Unit} (he : e = ⟨call, tr, .await c k⟩)
    (hanswer : Answers limits clock c w x w') :
    (machine limits clock platform).Told (program platform) ⟨{}, []⟩
      ⟨w', [⟨call, tr ++ [⟨c, x⟩], k x⟩]⟩ := by
  subst he
  exact h.tail (.answer (n := 0) rfl hanswer)

/-- A request whose fetch fails gives its slot back. -/
theorem slots_kept_sample :
    ∃ story, (machine ⟨2, 400, by decide, by decide⟩ Nat.cast ⟨fun _ => none, fun _ => none⟩).Told
        (program ⟨fun _ => none, fun _ => none⟩) ⟨{}, []⟩ story ∧
      story.world.Granted 0 ∧ 0 ∈ story.world.released := by
  let limits : RequestLimits := ⟨2, 400, by decide, by decide⟩
  let platform : Platform := ⟨fun _ => none, fun _ => none⟩
  let request : RpcFetch := { options := { scheduler := true }, signal := 7 }
  have hstart : (machine limits Nat.cast platform).Told (program platform) ⟨{}, []⟩
      ⟨{}, [⟨request, [], program platform request⟩]⟩ := .single (.start request)
  have harm := told_only hstart (.arm 15000) () rfl rfl
  have hacquire := told_only harm (.acquire 7) (0 : ℕ) rfl ⟨rfl, rfl⟩
  have hslot := told_only hacquire (.slot 0) (.ok ()) rfl ⟨rfl, by decide +kernel⟩
  have hfetch := told_only hslot (.fetch 7) (.error (.thrown 1)) rfl rfl
  have hrelease := told_only hfetch (.release 0) () rfl rfl
  have hsignals := told_only hrelease .signals (none, false) rfl rfl
  have hdisarm := told_only hsignals .disarm () rfl rfl
  refine ⟨_, hdisarm, by decide +kernel, ?_⟩
  refine ((@slots_kept limits Nat.cast Nat.mono_cast).2 platform _ hdisarm).2 _
    (List.mem_singleton_self _) rfl 7 0 ?_ ?_
  · simp
  · decide +kernel

end RpcFetch

end Web

end DividendX
