import DividendX.Lib.Schedule

/-!
# One process at a time

A process that runs one program after another over a world of its own (`Process`). A crash loses the
program under way and leaves of the world what survives a restart; the world may drift on its own
meanwhile, but nobody else makes calls.

**Contracts.** Since the process is alone, a program may count on everything the drift leaves alone.
A `Contract` names an invariant that calls, drift and restarts keep, and what must hold of the world
when a call is made. A program that `Meets` it makes each call only then, whatever the answers are;
`Sound.runs` turns this into a statement about every sequence of programs, crashes and restarts.
-/

/-- A world, and what is left of the program under way: at rest nothing is. -/
structure Process (σ Call : Type) (Answer : Call → Type) where
  world : σ
  running : Async Call Answer Unit

namespace Machine

variable {σ Call Drift : Type} {Answer : Call → Type}

/-- One moment of a process; `restart` is what a crash leaves of the world. -/
inductive Turn (M : Machine σ Call Answer Drift) (restart : σ → σ) :
    Process σ Call Answer → Event Call Answer Drift → Process σ Call Answer → Prop
  | start {w : σ} {p : Async Call Answer Unit} : M.starts p →
    Turn M restart ⟨w, .done ()⟩ .started ⟨w, p⟩
  | answer {w w' : σ} {c : Call} {k : Answer c → Async Call Answer Unit} {x : Answer c} :
      M.answers c w x w' → Turn M restart ⟨w, .await c k⟩ (.answered c x) ⟨w', k x⟩
  | crash {w : σ} {p : Async Call Answer Unit} :
    Turn M restart ⟨w, p⟩ .crashed ⟨restart w, .done ()⟩
  | drift {w w' : σ} {p : Async Call Answer Unit} {d : Drift} :
      M.drifts d w w' → Turn M restart ⟨w, p⟩ (.drifted d) ⟨w', p⟩

/-- Any number of moments. -/
def Turns (M : Machine σ Call Answer Drift) (restart : σ → σ) :
    Process σ Call Answer → Process σ Call Answer → Prop :=
  Relation.ReflTransGen fun s s' => ∃ e, M.Turn restart s e s'

/-- The same machine with fewer answers. -/
def restrict (M : Machine σ Call Answer Drift) (fair : (c : Call) → σ → Answer c → Prop) :
    Machine σ Call Answer Drift where
  answers c w x w' := fair c w x ∧ M.answers c w x w'
  drifts := M.drifts
  starts := M.starts

end Machine

/-! ## Contracts -/

/-- What programs over a machine that are alone owe, and what they may count on. -/
structure Contract {σ Call Drift : Type} {Answer : Call → Type} (M : Machine σ Call Answer Drift)
    (restart : σ → σ) where
  inv : σ → Prop
  /-- what must hold of the world when a call is made -/
  may : Call → σ → Prop
  /-- what the drift leaves alone -/
  stable : σ → σ → Prop
  refl : ∀ w, stable w w
  trans : ∀ {w w' w''}, stable w w' → stable w' w'' → stable w w''
  answered : ∀ {c w x w'}, inv w → may c w → M.answers c w x w' → inv w'
  drifted : ∀ {d w w'}, inv w → M.drifts d w w' → inv w' ∧ stable w w'
  restarted : ∀ {w}, inv w → inv (restart w)

namespace Contract

variable {σ Call Drift : Type} {Answer : Call → Type} {M : Machine σ Call Answer Drift}
    {restart : σ → σ}
  {α β ε : Type}

/-- A program makes each call only where it may, and ends in its postcondition. -/
def Meets (K : Contract M restart) (post : α → σ → Prop) : Async Call Answer α → σ → Prop
  | .done a, w => ∀ w', K.stable w w' → K.inv w' → post a w'
  | .await c k, w => ∀ w', K.stable w w' → K.inv w' →
      K.may c w' ∧ ∀ x w'', M.answers c w' x w'' → Meets K post (k x) w''

namespace Meets

variable {K : Contract M restart} {post post' : α → σ → Prop} {p : Async Call Answer α} {w w' : σ}

theorem later (h : K.Meets post p w) (hs : K.stable w w') : K.Meets post p w' := by
  cases p with
  | done a => exact fun w'' hs' => h w'' (K.trans hs hs')
  | await c k => exact fun w'' hs' => h w'' (K.trans hs hs')

/-- It is enough to meet the contract from every world the drift may leave. -/
theorem of_later (h : ∀ w', K.stable w w' → K.inv w' → K.Meets post p w') : K.Meets post p w := by
  cases p with
  | done a => exact fun w' hs hi => h w' hs hi w' (K.refl w') hi
  | await c k => exact fun w' hs hi => h w' hs hi w' (K.refl w') hi

theorem mono (h : K.Meets post p w) (hpost : ∀ a w', K.inv w' → post a w' → post' a w') :
    K.Meets post' p w := by
  induction p generalizing w with
  | done a => exact fun w' hs hi => hpost a w' hi (h w' hs hi)
  | await c k ih =>
    intro w' hs hi
    obtain ⟨hmay, hnext⟩ := h w' hs hi
    exact ⟨hmay, fun x w'' hx => ih x (hnext x w'' hx)⟩

theorem bind {f : α → Async Call Answer β} {post : β → σ → Prop}
    (h : K.Meets (fun a => K.Meets post (f a)) p w) : K.Meets post (p.bind f) w := by
  induction p generalizing w with
  | done a => exact of_later h
  | await c k ih =>
    intro w' hs hi
    obtain ⟨hmay, hnext⟩ := h w' hs hi
    exact ⟨hmay, fun x w'' hx => ih x (hnext x w'' hx)⟩

end Meets

/-! Programs that may throw: nothing is asked of the world where they do. -/

/-- A program that meets the contract and whose value, if it does not throw, satisfies `Q`. -/
def Gives (K : Contract M restart) (Q : α → σ → Prop) (p : ExceptT ε (Async Call Answer) α)
    (w : σ) : Prop :=
  K.Meets (fun r w' => ∀ a, r = .ok a → Q a w') p.run w

namespace Gives

variable {K : Contract M restart} {Q Q' : α → σ → Prop} {P : β → σ → Prop} {w w' : σ}
  {p : ExceptT ε (Async Call Answer) α} {f : α → ExceptT ε (Async Call Answer) β}

theorem mono (h : K.Gives Q p w) (hQ : ∀ a w', K.inv w' → Q a w' → Q' a w') : K.Gives Q' p w :=
  Meets.mono h fun _ w' hi hq a ha => hQ a w' hi (hq a ha)

theorem pure {a : α} (h : ∀ w', K.stable w w' → K.inv w' → Q a w') :
    K.Gives Q (Pure.pure a : ExceptT ε (Async Call Answer) α) w := by
  intro w' hs hi b hb
  cases hb
  exact h w' hs hi

theorem throw {e : ε} : K.Gives Q (throw e : ExceptT ε (Async Call Answer) α) w :=
  fun _ _ _ _ hb => by cases hb

/-- Synchronous code. -/
theorem sync {x : Except ε α} (h : ∀ a w', x = .ok a → K.stable w w' → K.inv w' → Q a w') :
    K.Gives Q (Async.sync x) w :=
  fun w' hs hi a ha => h a w' ha hs hi

/-- A call that may be rejected. -/
theorem call {c : Call} {g : Answer c → Except ε α}
    (h : ∀ w', K.stable w w' → K.inv w' → K.may c w' ∧
      ∀ x w'', M.answers c w' x w'' → ∀ a, g x = .ok a → ∀ w₃,
        K.stable w'' w₃ → K.inv w₃ → Q a w₃) :
    K.Gives Q (Async.call c g) w := by
  intro w' hs hi
  obtain ⟨hmay, hnext⟩ := h w' hs hi
  exact ⟨hmay, fun x w'' hx w₃ hs' hi' a ha => hnext x w'' hx a ha w₃ hs' hi'⟩

/-- A call that is not rejected. -/
theorem ask {c : Call} {Q : Answer c → σ → Prop}
    (h : ∀ w', K.stable w w' → K.inv w' → K.may c w' ∧
      ∀ x w'', M.answers c w' x w'' → ∀ w₃, K.stable w'' w₃ → K.inv w₃ → Q x w₃) :
    K.Gives Q (Async.ask c : ExceptT ε (Async Call Answer) (Answer c)) w := by
  intro w' hs hi
  obtain ⟨hmay, hnext⟩ := h w' hs hi
  refine ⟨hmay, fun x w'' hx w₃ hs' hi' a ha => ?_⟩
  cases ha
  exact hnext x w'' hx w₃ hs' hi'

/-- One after the other. -/
theorem bind (h : K.Gives Q p w) (hf : ∀ a w', K.inv w' → Q a w' → K.Gives P (f a) w') :
    K.Gives P (p >>= f) w := by
  change K.Meets _ (Async.bind p.run (ExceptT.bindCont f)) w
  refine Meets.bind (Meets.mono h fun r w' hi hq => ?_)
  cases r with
  | ok a => exact hf a w' hi (hq a rfl)
  | error e => exact fun _ _ _ b hb => by cases hb

theorem ite {c : Prop} [Decidable c] {q : ExceptT ε (Async Call Answer) α}
    (ht : c → K.Gives Q p w) (he : ¬ c → K.Gives Q q w) : K.Gives Q (if c then p else q) w := by
  split
  · exact ht ‹_›
  · exact he ‹_›

theorem forget (h : K.Gives Q p w) : K.Meets (fun _ _ => True) (Async.forget p.run) w :=
  Meets.bind (Meets.mono h fun _ _ _ _ _ _ _ => trivial)

end Gives

/-- A process in good order: the invariant holds and the program under way meets the contract. -/
structure Sound (K : Contract M restart) (s : Process σ Call Answer) : Prop where
  inv : K.inv s.world
  running : K.Meets (fun _ _ => True) s.running s.world

/-- Programs that may be started anywhere. -/
def Guards (K : Contract M restart) : Prop :=
  ∀ p, M.starts p → ∀ w, K.inv w → K.Meets (fun _ _ => True) p w

variable {K : Contract M restart} {s s' : Process σ Call Answer} {e : Event Call Answer Drift}

/-- **One moment** keeps good order. -/
theorem Sound.turn (h : K.Sound s) (hguards : K.Guards) (hturn : M.Turn restart s e s') :
    K.Sound s' := by
  obtain ⟨hinv, hrunning⟩ := h
  cases hturn with
  | start hp => exact ⟨hinv, hguards _ hp _ hinv⟩
  | answer hx =>
    obtain ⟨hmay, hnext⟩ := hrunning _ (K.refl _) hinv
    exact ⟨K.answered hinv hmay hx, hnext _ _ hx⟩
  | crash => exact ⟨K.restarted hinv, fun _ _ _ => trivial⟩
  | drift hd =>
    obtain ⟨hinv', hstable⟩ := K.drifted hinv hd
    exact ⟨hinv', hrunning.later hstable⟩

/-- **Every sequence of programs, crashes and restarts** keeps good order. -/
theorem Sound.turns (h : K.Sound s) (hguards : K.Guards) (hturns : M.Turns restart s s') :
    K.Sound s' := by
  induction hturns with
  | refl => exact h
  | tail _ hturn ih =>
    obtain ⟨e, hturn⟩ := hturn
    exact ih.turn hguards hturn

/-- Every call is made where it may be. -/
theorem Sound.may {c : Call} {x : Answer c} (h : K.Sound s)
    (hturn : M.Turn restart s (.answered c x) s') :
    K.may c s.world := by
  cases hturn with
  | answer hx => exact (h.running _ (K.refl _) h.inv).1

end Contract

/-! ## Schedules -/

namespace Player

variable {σ Call Drift Hint : Type} {Answer : Call → Type} {M : Machine σ Call Answer Drift}

/-- One entry of the schedule of a process. -/
inductive Cue (M : Machine σ Call Answer Drift) (Hint : Type) : Type
  | start (p : Async Call Answer Unit) (h : M.starts p)
  | reply (hint : Hint)
  | crash
  | drift (d : Drift)

variable (player : Player M Hint) (restart : σ → σ)

/-- Carry out one entry. -/
def follow (s : Process σ Call Answer) : Cue M Hint → Option (Process σ Call Answer)
  | .start p _ => match s.running with
    | .done () => some ⟨s.world, p⟩
    | .await _ _ => none
  | .reply hint => match s.running with
    | .done () => none
    | .await c k => (player.answer c hint s.world).map fun r => ⟨r.2, k r.1⟩
  | .crash => some ⟨restart s.world, .done ()⟩
  | .drift d => (player.drift d s.world).map fun w => ⟨w, s.running⟩

/-- Carry out a schedule. -/
def perform (s : Process σ Call Answer) : List (Cue M Hint) → Option (Process σ Call Answer)
  | [] => some s
  | cue :: cues => (player.follow restart s cue).bind fun s' => perform s' cues

variable {player restart}

theorem turn_of_follow {s s' : Process σ Call Answer} {cue : Cue M Hint}
    (h : player.follow restart s cue = some s') : ∃ e, M.Turn restart s e s' := by
  obtain ⟨w, p⟩ := s
  cases cue with
  | start q hq =>
    cases p with
    | done => cases h; exact ⟨_, .start hq⟩
    | await => cases h
  | reply hint =>
    cases p with
    | done => cases h
    | await c k =>
      obtain ⟨⟨x, w'⟩, hanswer, rfl⟩ := Option.map_eq_some_iff.mp h
      exact ⟨_, .answer (player.answers hanswer)⟩
  | crash => cases h; exact ⟨_, .crash⟩
  | drift d =>
    obtain ⟨w', hdrift, rfl⟩ := Option.map_eq_some_iff.mp h
    exact ⟨_, .drift (player.drifts hdrift)⟩

/-- A schedule that is carried out is a run. -/
theorem turns_of_perform {s s' : Process σ Call Answer} {cues : List (Cue M Hint)}
    (h : player.perform restart s cues = some s') : M.Turns restart s s' := by
  induction cues generalizing s with
  | nil =>
    cases h
    exact .refl
  | cons cue cues ih =>
    obtain ⟨t, hfollow, hrest⟩ := Option.bind_eq_some_iff.mp h
    exact .head (turn_of_follow hfollow) (ih hrest)

/-- The player of a machine with fewer answers. -/
def restrict {fair : (c : Call) → σ → Answer c → Prop} (player : Player M Hint)
    (check : (c : Call) → σ → Answer c → Bool)
    (hcheck : ∀ {c w x}, check c w x = true → fair c w x) :
    Player (M.restrict fair) Hint where
  answer c h w := (player.answer c h w).filter fun r => check c w r.1
  drift := player.drift
  answers h := by
    obtain ⟨hanswer, hfair⟩ := Option.filter_eq_some_iff.mp h
    exact ⟨hcheck hfair, player.answers hanswer⟩
  drifts := player.drifts

end Player
