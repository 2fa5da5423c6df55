import Mathlib.Logic.Relation

/-!
# Asynchronous programs over a shared world

An asynchronous program is a tree of awaited calls, each followed by what the program does with
the answer (`Async`). Any number of them run over one world: at every moment one of them may have
its next call answered, a new one may start, one may crash for good, or the world may drift on its
own (`Machine.Step`). Nothing else is known of the schedule.

**Rely and guarantee.** A `Discipline` names an invariant of the world, a preorder `rely` of world
changes, and for every call what must hold of the world when it is made. A program is `Safe` from
a world if it makes each call only where it may, however the others moved the world within `rely`
in between, and ends with its postcondition. Safety composes along `>>=` and `tryCatch`, so it is
proved per function, and `Discipline.sound` turns it into a statement about all interleavings.
-/

/-- Programs that await calls and end with a value. -/
inductive Async (Call : Type) (Answer : Call → Type) (α : Type) : Type
  | done (value : α)
  | await (call : Call) (next : Answer call → Async Call Answer α)

namespace Async

variable {Call : Type} {Answer : Call → Type} {α β ε : Type}

/-- Run one program, then another with its value. -/
protected def bind : Async Call Answer α → (α → Async Call Answer β) → Async Call Answer β
  | done a, f => f a
  | await c k, f => await c fun x => (k x).bind f

instance : Monad (Async Call Answer) where
  pure := done
  bind := Async.bind

/-- The same calls, the value dropped. -/
def forget (p : Async Call Answer α) : Async Call Answer Unit := p.bind fun _ => done ()

/-- Await a call that is not rejected. -/
def ask (c : Call) : ExceptT ε (Async Call Answer) (Answer c) :=
  ExceptT.mk (.await c fun x => .done (.ok x))

/-- Await a call that may be rejected. -/
def call (c : Call) (outcome : Answer c → Except ε α) : ExceptT ε (Async Call Answer) α :=
  ExceptT.mk (.await c fun x => .done (outcome x))

/-- Synchronous code that may throw. -/
def sync (x : Except ε α) : ExceptT ε (Async Call Answer) α := ExceptT.mk (.done x)

/-- A promise with what it was rejected with, as a value. -/
def settle (p : ExceptT ε (Async Call Answer) α) : ExceptT ε (Async Call Answer) (Except ε α) :=
  ExceptT.lift p.run

/-- The calls a program makes on one way to its end, with their answers. -/
inductive Ends : Async Call Answer α → List (Σ c, Answer c) → α → Prop
  | done (a : α) : Ends (done a) [] a
  | await {c : Call} {k : Answer c → Async Call Answer α} {x : Answer c}
      {tr : List (Σ c, Answer c)} {a : α} : Ends (k x) tr a → Ends (await c k) (⟨c, x⟩ :: tr) a

theorem Ends.unbind {p : Async Call Answer α} {f : α → Async Call Answer β}
    {tr : List (Σ c, Answer c)} {b : β} (h : Ends (p.bind f) tr b) :
    ∃ a tr₁ tr₂, Ends p tr₁ a ∧ Ends (f a) tr₂ b ∧ tr = tr₁ ++ tr₂ := by
  induction p generalizing tr with
  | done a => exact ⟨a, [], tr, .done a, h, rfl⟩
  | await c k ih =>
    cases h with
    | await hrest =>
      obtain ⟨a, tr₁, tr₂, h₁, h₂, rfl⟩ := ih _ hrest
      exact ⟨a, _, tr₂, .await h₁, h₂, rfl⟩

/-- A program that may throw ends in its first part, or in its second after the first. -/
theorem Ends.unbindExcept {p : ExceptT ε (Async Call Answer) α}
    {f : α → ExceptT ε (Async Call Answer) β} {tr : List (Σ c, Answer c)} {r : Except ε β}
    (h : Ends (p >>= f).run tr r) :
    (∃ e, r = .error e ∧ Ends p.run tr (.error e)) ∨
      ∃ a tr₁ tr₂, Ends p.run tr₁ (.ok a) ∧ Ends (f a).run tr₂ r ∧ tr = tr₁ ++ tr₂ := by
  obtain ⟨x, tr₁, tr₂, h₁, h₂, rfl⟩ := unbind (f := ExceptT.bindCont f) h
  cases x with
  | ok a => exact .inr ⟨a, tr₁, tr₂, h₁, h₂, rfl⟩
  | error e =>
    cases h₂ with
    | done =>
      rw [List.append_nil]
      exact .inl ⟨e, rfl, h₁⟩

end Async

/-! ## The machine -/

/-- A world with its calls: how a call may be answered, how the world may drift, and which
programs may be started. -/
structure Machine (σ Call : Type) (Answer : Call → Type) (Drift : Type) where
  answers : (c : Call) → σ → Answer c → σ → Prop
  drifts : Drift → σ → σ → Prop
  starts : Async Call Answer Unit → Prop

/-- A world and the programs under way. -/
structure Site (σ Call : Type) (Answer : Call → Type) where
  world : σ
  threads : List (Async Call Answer Unit)

/-- What can happen at a moment. -/
inductive Event (Call : Type) (Answer : Call → Type) (Drift : Type) : Type
  | started
  | crashed
  | answered (c : Call) (x : Answer c)
  | drifted (d : Drift)

namespace Machine

variable {σ Call Drift : Type} {Answer : Call → Type}

/-- One moment of the machine. -/
inductive Step (M : Machine σ Call Answer Drift) :
    Site σ Call Answer → Event Call Answer Drift → Site σ Call Answer → Prop
  | start {w : σ} {ts : List (Async Call Answer Unit)} {p : Async Call Answer Unit} :
      M.starts p → Step M ⟨w, ts⟩ .started ⟨w, ts ++ [p]⟩
  | crash {w : σ} {l r : List (Async Call Answer Unit)} {p : Async Call Answer Unit} :
      Step M ⟨w, l ++ p :: r⟩ .crashed ⟨w, l ++ r⟩
  | answer {w w' : σ} {l r : List (Async Call Answer Unit)} {c : Call}
      {k : Answer c → Async Call Answer Unit} {x : Answer c} :
      M.answers c w x w' → Step M ⟨w, l ++ .await c k :: r⟩ (.answered c x) ⟨w', l ++ k x :: r⟩
  | drift {w w' : σ} {ts : List (Async Call Answer Unit)} {d : Drift} :
      M.drifts d w w' → Step M ⟨w, ts⟩ (.drifted d) ⟨w', ts⟩

/-- Any number of moments. -/
def Steps (M : Machine σ Call Answer Drift) : Site σ Call Answer → Site σ Call Answer → Prop :=
  Relation.ReflTransGen fun s s' => ∃ e, M.Step s e s'

/-- A machine that allows less. -/
theorem Steps.mono {M M' : Machine σ Call Answer Drift} {s s' : Site σ Call Answer}
    (ha : ∀ c w x w', M.answers c w x w' → M'.answers c w x w')
    (hd : ∀ d w w', M.drifts d w w' → M'.drifts d w w')
    (hs : ∀ p, M.starts p → M'.starts p) (h : M.Steps s s') : M'.Steps s s' := by
  induction h with
  | refl => exact .refl
  | tail _ hstep ih =>
    obtain ⟨e, hstep⟩ := hstep
    refine .tail ih ⟨e, ?_⟩
    cases hstep with
    | start hp => exact .start (hs _ hp)
    | crash => exact .crash
    | answer hx => exact .answer (ha _ _ _ _ hx)
    | drift hx => exact .drift (hd _ _ _ hx)

end Machine

/-! ## Rely and guarantee -/

/-- What the programs over a machine may count on, and what they owe. -/
structure Discipline {σ Call Drift : Type} {Answer : Call → Type}
    (M : Machine σ Call Answer Drift) where
  inv : σ → Prop
  rely : σ → σ → Prop
  /-- what must hold of the world when a call is made -/
  may : Call → σ → Prop
  refl : ∀ w, rely w w
  trans : ∀ {w w' w''}, rely w w' → rely w' w'' → rely w w''
  answered : ∀ {c w x w'}, inv w → may c w → M.answers c w x w' → inv w' ∧ rely w w'
  drifted : ∀ {d w w'}, inv w → M.drifts d w w' → inv w' ∧ rely w w'

namespace Discipline

variable {σ Call Drift : Type} {Answer : Call → Type} {M : Machine σ Call Answer Drift}
  {α β ε : Type}

/-- A program makes each call only where it may, and ends in its postcondition. -/
def Safe (D : Discipline M) (post : α → σ → Prop) : Async Call Answer α → σ → Prop
  | .done a, w => ∀ w', D.rely w w' → D.inv w' → post a w'
  | .await c k, w => ∀ w', D.rely w w' → D.inv w' →
      D.may c w' ∧ ∀ x w'', M.answers c w' x w'' → Safe D post (k x) w''

namespace Safe

variable {D : Discipline M} {post post' : α → σ → Prop} {p : Async Call Answer α} {w w' : σ}

/-- Safety survives what the others do. -/
theorem later (h : D.Safe post p w) (hr : D.rely w w') : D.Safe post p w' := by
  cases p with
  | done a => exact fun w'' hr' => h w'' (D.trans hr hr')
  | await c k => exact fun w'' hr' => h w'' (D.trans hr hr')

/-- It is enough to be safe from every world the others may leave. -/
theorem of_later (h : ∀ w', D.rely w w' → D.inv w' → D.Safe post p w') : D.Safe post p w := by
  cases p with
  | done a => exact fun w' hr hi => h w' hr hi w' (D.refl w') hi
  | await c k => exact fun w' hr hi => h w' hr hi w' (D.refl w') hi

/-- What is known at the end may be used at every later world. -/
theorem mono (h : D.Safe post p w)
    (hpost : ∀ a w', D.inv w' → (∀ w'', D.rely w' w'' → D.inv w'' → post a w'') → post' a w') :
    D.Safe post' p w := by
  induction p generalizing w with
  | done a => exact fun w' hr hi => hpost a w' hi fun w'' hr' => h w'' (D.trans hr hr')
  | await c k ih =>
    intro w' hr hi
    obtain ⟨hmay, hnext⟩ := h w' hr hi
    exact ⟨hmay, fun x w'' hx => ih x (hnext x w'' hx)⟩

theorem bind {f : α → Async Call Answer β} {post : β → σ → Prop}
    (h : D.Safe (fun a => D.Safe post (f a)) p w) : D.Safe post (p.bind f) w := by
  induction p generalizing w with
  | done a => exact of_later h
  | await c k ih =>
    intro w' hr hi
    obtain ⟨hmay, hnext⟩ := h w' hr hi
    exact ⟨hmay, fun x w'' hx => ih x (hnext x w'' hx)⟩

/-- At the end the world has moved within `rely`. -/
theorem keep {w₀ : σ} (h : D.Safe post p w) (hr₀ : D.rely w₀ w) :
    D.Safe (fun a w' => D.rely w₀ w' ∧ post a w') p w := by
  induction p generalizing w with
  | done a => exact fun w' hr hi => ⟨D.trans hr₀ hr, h w' hr hi⟩
  | await c k ih =>
    intro w' hr hi
    obtain ⟨hmay, hnext⟩ := h w' hr hi
    refine ⟨hmay, fun x w'' hx => ih x (hnext x w'' hx) ?_⟩
    exact D.trans (D.trans hr₀ hr) (D.answered hi hmay hx).2

end Safe

/-! Programs that may throw. -/

/-- A safe program whose value, if it does not throw, satisfies `Q`. -/
def Gives (D : Discipline M) (Q : α → σ → Prop) (p : ExceptT ε (Async Call Answer) α)
    (w : σ) : Prop :=
  D.Safe (fun r w' => ∀ a, r = .ok a → Q a w') p.run w

namespace Gives

variable {D : Discipline M} {Q Q' : α → σ → Prop} {P : β → σ → Prop} {w w' : σ}
  {p : ExceptT ε (Async Call Answer) α} {f : α → ExceptT ε (Async Call Answer) β}

theorem mono (h : D.Gives Q p w) (hQ : ∀ a w', D.rely w w' → D.inv w' → Q a w' → Q' a w') :
    D.Gives Q' p w := by
  refine Safe.mono (Safe.keep h (D.refl w)) fun r w' hi hlater a ha => ?_
  obtain ⟨hr, hq⟩ := hlater w' (D.refl w') hi
  exact hQ a w' hr hi (hq a ha)

theorem pure {a : α} (h : ∀ w', D.rely w w' → D.inv w' → Q a w') :
    D.Gives Q (Pure.pure a : ExceptT ε (Async Call Answer) α) w := by
  intro w' hr hi b hb
  cases hb
  exact h w' hr hi

theorem throw {e : ε} : D.Gives Q (throw e : ExceptT ε (Async Call Answer) α) w :=
  fun _ _ _ _ hb => by cases hb

/-- Synchronous code. -/
theorem sync {x : Except ε α} (h : ∀ a w', x = .ok a → D.rely w w' → D.inv w' → Q a w') :
    D.Gives Q (Async.sync x) w :=
  fun w' hr hi a ha => h a w' ha hr hi

/-- One after the other. -/
theorem bind (h : D.Gives Q p w)
    (hf : ∀ a w', D.rely w w' → D.inv w' → Q a w' → D.Gives P (f a) w') :
    D.Gives P (p >>= f) w := by
  change D.Safe _ (Async.bind p.run (ExceptT.bindCont f)) w
  refine Safe.bind (Safe.mono (Safe.keep h (D.refl w)) fun r w' hi hlater => ?_)
  obtain ⟨hr, hq⟩ := hlater w' (D.refl w') hi
  cases r with
  | ok a => exact hf a w' hr hi (hq a rfl)
  | error e => exact fun _ _ _ b hb => by cases hb

/-- `try` and `catch`. -/
theorem tryCatch {g : ε → ExceptT ε (Async Call Answer) α} (h : D.Gives Q p w)
    (hg : ∀ e w', D.rely w w' → D.inv w' → D.Gives Q (g e) w') :
    D.Gives Q (MonadExcept.tryCatch p g) w := by
  change D.Safe _ (Async.bind p.run _) w
  refine Safe.bind (Safe.mono (Safe.keep h (D.refl w)) fun r w' hi hlater => ?_)
  cases r with
  | ok a => exact fun w'' hr hi' => (hlater w'' hr hi').2
  | error e => exact hg e w' (hlater w' (D.refl w') hi).1 hi

/-- What was thrown, as a value. -/
theorem lift (h : D.Gives Q p w) :
    D.Gives (fun r w' => ∀ a, r = .ok a → Q a w')
      (ExceptT.lift p.run : ExceptT ε (Async Call Answer) (Except ε α)) w := by
  change D.Safe _ (Async.bind p.run _) w
  refine Safe.bind (Safe.mono h fun r w' hi hlater => ?_)
  intro w'' hr hi' b hb
  cases hb
  exact hlater w'' hr hi'

theorem ite {c : Prop} [Decidable c] {q : ExceptT ε (Async Call Answer) α}
    (ht : c → D.Gives Q p w) (he : ¬ c → D.Gives Q q w) : D.Gives Q (if c then p else q) w := by
  split
  · exact ht ‹_›
  · exact he ‹_›

theorem forget (h : D.Gives Q p w) : D.Safe (fun _ _ => True) (Async.forget p.run) w :=
  Safe.bind (Safe.mono h fun _ _ _ _ _ _ _ => trivial)

end Gives

/-- A site in good order: the invariant holds and every program under way is safe. -/
structure Sound (D : Discipline M) (s : Site σ Call Answer) : Prop where
  inv : D.inv s.world
  threads : ∀ p ∈ s.threads, D.Safe (fun _ _ => True) p s.world

/-- Programs that are safe to start. -/
def Guards (D : Discipline M) : Prop :=
  ∀ p, M.starts p → ∀ w, D.inv w → D.Safe (fun _ _ => True) p w

variable {D : Discipline M} {s s' : Site σ Call Answer} {e : Event Call Answer Drift}

/-- **One moment**: good order is kept and the world moves within `rely`. -/
theorem Sound.step (h : D.Sound s) (hguards : D.Guards) (hstep : M.Step s e s') :
    D.Sound s' ∧ D.rely s.world s'.world := by
  cases hstep with
  | start hp =>
    refine ⟨⟨h.inv, fun q hq => ?_⟩, D.refl _⟩
    rcases List.mem_append.mp hq with hq | hq
    · exact h.threads q hq
    · rw [List.mem_singleton.mp hq]
      exact hguards _ hp _ h.inv
  | crash =>
    refine ⟨⟨h.inv, fun q hq => h.threads q ?_⟩, D.refl _⟩
    rcases List.mem_append.mp hq with hq | hq
    · exact List.mem_append_left _ hq
    · exact List.mem_append_right _ (List.mem_cons_of_mem _ hq)
  | @answer w w' l r c k x hx =>
    obtain ⟨hmay, hnext⟩ := h.threads (.await c k) (List.mem_append_right l List.mem_cons_self)
      w (D.refl w) h.inv
    -- what the other threads rest on is stable under the move of this one
    obtain ⟨hinv, hrely⟩ := D.answered h.inv hmay hx
    refine ⟨⟨hinv, fun q hq => ?_⟩, hrely⟩
    rcases List.mem_append.mp hq with hq | hq
    · exact (h.threads q (List.mem_append_left _ hq)).later hrely
    · rcases List.mem_cons.mp hq with rfl | hq
      · exact hnext x w' hx
      · exact (h.threads q (List.mem_append_right _ (List.mem_cons_of_mem _ hq))).later hrely
  | drift hd =>
    obtain ⟨hinv, hrely⟩ := D.drifted h.inv hd
    exact ⟨⟨hinv, fun q hq => (h.threads q hq).later hrely⟩, hrely⟩

/-- **All interleavings**: good order is kept and the world moves within `rely`. -/
theorem Sound.steps (h : D.Sound s) (hguards : D.Guards) (hsteps : M.Steps s s') :
    D.Sound s' ∧ D.rely s.world s'.world := by
  induction hsteps with
  | refl => exact ⟨h, D.refl _⟩
  | tail _ hstep ih =>
    obtain ⟨e, hstep⟩ := hstep
    obtain ⟨hsound, hrely⟩ := ih.1.step hguards hstep
    exact ⟨hsound, D.trans ih.2 hrely⟩

/-- Every call is made where it may be. -/
theorem Sound.may {c : Call} {x : Answer c} (h : D.Sound s) (hstep : M.Step s (.answered c x) s') :
    D.may c s.world ∧ M.answers c s.world x s'.world := by
  cases hstep with
  | @answer w w' l r _ k _ hx =>
    exact ⟨(h.threads (.await c k) (List.mem_append_right l List.mem_cons_self) w (D.refl w)
      h.inv).1, hx⟩

end Discipline
