import DividendX.Lib.Schedule

/-!
# Monitors and stories

A `Monitor` watches the calls of one program and their answers: it says which call may come next, by
what it has seen so far. A program obeys it (`Monitor.Obeys`) if it only makes such calls, whatever
the answers are; nothing is known of the world here. Like safety, this is proved per function.

A `Story` is a site whose programs keep their place: every call of a method that was started is
there with its label, the calls it has made and their answers. A program that crashed is one that is
never answered again. What a monitor allows holds of every trace of a story (`Story.Tracked`), and a
story is a run of the machine (`Machine.Told.steps`).
-/

namespace Async

variable {Call : Type} {Answer : Call → Type} {α β ε : Type}

/-- The calls made so far, and what is left of the program. -/
inductive Reaches : Async Call Answer α → List (Σ c, Answer c) → Async Call Answer α → Prop
  | start (p : Async Call Answer α) : Reaches p [] p
  | await {c : Call} {k : Answer c → Async Call Answer α} {x : Answer c}
      {tr : List (Σ c, Answer c)} {q : Async Call Answer α} :
      Reaches (k x) tr q → Reaches (.await c k) (⟨c, x⟩ :: tr) q

/-- One more answer reaches one call further. -/
theorem Reaches.snoc {p : Async Call Answer α} {tr : List (Σ c, Answer c)} {c : Call}
    {k : Answer c → Async Call Answer α} (h : Reaches p tr (.await c k)) (x : Answer c) :
    Reaches p (tr ++ [⟨c, x⟩]) (k x) := by
  generalize hq : Async.await c k = q at h
  induction h with
  | start p =>
    subst hq
    exact .await (.start (k x))
  | await _ ih => exact .await (ih hq)

end Async

/-! ## Monitors -/

/-- Watches calls and answers. -/
structure Monitor (S Call : Type) (Answer : Call → Type) where
  /-- the calls that may be made -/
  may : S → Call → Prop
  next : S → (c : Call) → Answer c → S

namespace Monitor

open Async

variable {S Call : Type} {Answer : Call → Type} {α β ε : Type} (m : Monitor S Call Answer)

/-- A program makes only calls that may be made, and ends in its postcondition. -/
def Obeys (post : α → S → Prop) : Async Call Answer α → S → Prop
  | .done a, s => post a s
  | .await c k, s => m.may s c ∧ ∀ x, Obeys post (k x) (m.next s c x)

/-- The state of the monitor after some calls. -/
def after (s : S) (tr : List (Σ c, Answer c)) : S := tr.foldl (fun s e => m.next s e.1 e.2) s

/-- Every call was one that might be made. -/
def Accepts (s : S) : List (Σ c, Answer c) → Prop
  | [] => True
  | e :: tr => m.may s e.1 ∧ Accepts (m.next s e.1 e.2) tr

variable {m} {post post' : α → S → Prop} {p : Async Call Answer α}
    {s : S} {tr : List (Σ c, Answer c)}

namespace Obeys

/-- A weaker end is obeyed too. -/
theorem mono (h : m.Obeys post p s) (hpost : ∀ a s, post a s → post' a s) : m.Obeys post' p s := by
  induction p generalizing s with
  | done a => exact hpost a s h
  | await c k ih => exact ⟨h.1, fun x => ih x (h.2 x)⟩

/-- Obeying goes through a sequence. -/
theorem bind {f : α → Async Call Answer β} {post : β → S → Prop}
    (h : m.Obeys (fun a s' => m.Obeys post (f a) s') p s) : m.Obeys post (p.bind f) s := by
  induction p generalizing s with
  | done a => exact h
  | await c k ih => exact ⟨h.1, fun x => ih x (h.2 x)⟩

/-- What a program returns may be forgotten. -/
theorem forget {r : ExceptT ε (Async Call Answer) α} {Q : Except ε α → S → Prop}
    (h : m.Obeys Q r.run s) : m.Obeys (fun _ _ => True) (Async.forget r.run) s :=
  bind (h.mono fun _ _ _ => trivial)

/-- What holds on the way. -/
theorem reaches {q : Async Call Answer α} (h : m.Obeys post p s) (hr : Reaches p tr q) :
    m.Accepts s tr ∧ m.Obeys post q (m.after s tr) := by
  induction hr generalizing s with
  | start p => exact ⟨trivial, h⟩
  | @await c k x tr q _ ih =>
    obtain ⟨hmay, hnext⟩ := h
    obtain ⟨haccepts, hrest⟩ := ih (hnext x)
    exact ⟨⟨hmay, haccepts⟩, hrest⟩

/-- What holds at the end. -/
theorem ends {a : α} (h : m.Obeys post p s) (he : Ends p tr a) : m.Accepts s tr
    ∧ post a (m.after s tr) := by
  induction he generalizing s with
  | done a => exact ⟨trivial, h⟩
  | @await c k x tr a _ ih =>
    obtain ⟨hmay, hnext⟩ := h
    obtain ⟨haccepts, hpost⟩ := ih (hnext x)
    exact ⟨⟨hmay, haccepts⟩, hpost⟩

end Obeys

/-! Programs that may throw. -/

/-- A program that ends in one of two postconditions. -/
def Gives (m : Monitor S Call Answer) (Q : α → S → Prop) (thrown : S → Prop)
    (p : ExceptT ε (Async Call Answer) α) (s : S) : Prop :=
  m.Obeys (fun r s' => match r with
    | .ok a => Q a s'
    | .error _ => thrown s') p.run s

namespace Gives

variable {Q Q' : α → S → Prop} {thrown thrown' : S → Prop} {P : β → S → Prop}
  {p : ExceptT ε (Async Call Answer) α} {f : α → ExceptT ε (Async Call Answer) β}

theorem mono (h : m.Gives Q thrown p s) (hok : ∀ a s, Q a s → Q' a s)
    (hthrown : ∀ s, thrown s → thrown' s) : m.Gives Q' thrown' p s :=
  Obeys.mono h fun r s hr => match r, hr with
    | .ok a, hr => hok a s hr
    | .error _, hr => hthrown s hr

theorem pure {a : α} (h : Q a s) :
    m.Gives Q thrown (Pure.pure a : ExceptT ε (Async Call Answer) α) s := h

theorem throw {e : ε} (h : thrown s) :
    m.Gives Q thrown (throw e : ExceptT ε (Async Call Answer) α) s := h

/-- Synchronous code. -/
theorem sync {x : Except ε α} (hok : ∀ a, x = .ok a → Q a s) (hthrown : thrown s) :
    m.Gives Q thrown (Async.sync x) s := by
  cases x with
  | ok a => exact hok a rfl
  | error e => exact hthrown

/-- One call: it may be made, and its answer decides how the program ends. -/
theorem call {c : Call} {g : Answer c → Except ε α} (hmay : m.may s c)
    (hok : ∀ x a, g x = .ok a → Q a (m.next s c x))
    (hthrown : ∀ x e, g x = .error e → thrown (m.next s c x)) :
    m.Gives Q thrown (Async.call c g) s := by
  refine ⟨hmay, fun x => ?_⟩
  show match g x with
    | .ok a => Q a (m.next s c x)
    | .error _ => thrown (m.next s c x)
  cases hg : g x with
  | ok a => exact hok x a hg
  | error e => exact hthrown x e hg

theorem ask {c : Call} {Q : Answer c → S → Prop} (hmay : m.may s c)
    (hok : ∀ x, Q x (m.next s c x)) :
    m.Gives Q thrown (Async.ask c : ExceptT ε (Async Call Answer) (Answer c)) s :=
  ⟨hmay, hok⟩

/-- One after the other. -/
theorem bind (h : m.Gives Q thrown p s) (hf : ∀ a s', Q a s' → m.Gives P thrown (f a) s') :
    m.Gives P thrown (p >>= f) s := by
  change m.Obeys _ (Async.bind p.run (ExceptT.bindCont f)) s
  refine Obeys.bind (Obeys.mono h fun r s' hr => ?_)
  cases r with
  | ok a => exact hf a s' hr
  | error e => exact hr

/-- `try` and `catch`. -/
theorem tryCatch {g : ε → ExceptT ε (Async Call Answer) α} (h : m.Gives Q thrown' p s)
    (hg : ∀ e s', thrown' s' → m.Gives Q thrown (g e) s') :
    m.Gives Q thrown (MonadExcept.tryCatch p g) s := by
  change m.Obeys _ (Async.bind p.run _) s
  refine Obeys.bind (Obeys.mono h fun r s' hr => ?_)
  cases r with
  | ok a => exact hr
  | error e => exact hg e s' hr

/-- What was thrown, as a value. -/
theorem settle (h : m.Gives Q thrown' p s) :
    m.Gives (fun r s' => match r with
      | .ok a => Q a s'
      | .error _ => thrown' s') thrown (Async.settle p) s := by
  change m.Obeys _ (Async.bind p.run _) s
  exact Obeys.bind (Obeys.mono h fun r s' hr => hr)

theorem ite {c : Prop} [Decidable c] {q : ExceptT ε (Async Call Answer) α}
    (ht : c → m.Gives Q thrown p s) (he : ¬ c → m.Gives Q thrown q s) :
    m.Gives Q thrown (if c then p else q) s := by
  split
  · exact ht ‹_›
  · exact he ‹_›

end Gives

/-- A program that leaves the monitor in the state it is in. -/
def Keeps (m : Monitor S Call Answer) (s : S) (p : ExceptT ε (Async Call Answer) α) : Prop :=
  m.Gives (fun _ s' => s' = s) (fun s' => s' = s) p s

namespace Keeps

variable {p q : ExceptT ε (Async Call Answer) α} {f : α → ExceptT ε (Async Call Answer) β}

theorem pure (a : α) : m.Keeps s (Pure.pure a : ExceptT ε (Async Call Answer) α) := rfl

theorem throw (e : ε) : m.Keeps s (throw e : ExceptT ε (Async Call Answer) α) := rfl

theorem sync (x : Except ε α) : m.Keeps s (Async.sync x) := Gives.sync (fun _ _ => rfl) rfl

theorem call {c : Call} {g : Answer c → Except ε α} (hmay : m.may s c)
    (hnext : ∀ x, m.next s c x = s) :
    m.Keeps s (Async.call c g) :=
  Gives.call hmay (fun x _ _ => hnext x) fun x _ _ => hnext x

theorem ask {c : Call} (hmay : m.may s c) (hnext : ∀ x, m.next s c x = s) :
    m.Keeps s (Async.ask c : ExceptT ε (Async Call Answer) (Answer c)) :=
  Gives.ask hmay hnext

theorem bind (h : m.Keeps s p) (hf : ∀ a, m.Keeps s (f a)) : m.Keeps s (p >>= f) := by
  refine Gives.bind h fun a s' hs' => ?_
  subst hs'
  exact hf a

theorem tryCatch {g : ε → ExceptT ε (Async Call Answer) α} (h : m.Keeps s p)
    (hg : ∀ e, m.Keeps s (g e)) :
    m.Keeps s (MonadExcept.tryCatch p g) := by
  refine Gives.tryCatch h fun e s' hs' => ?_
  subst hs'
  exact hg e

theorem settle (h : m.Keeps s p) : m.Keeps s (Async.settle p) :=
  (Gives.settle h).mono (fun r _ hr => match r, hr with
    | .ok _, hr => hr
    | .error _, hr => hr) fun _ hs => hs

theorem ite {c : Prop} [Decidable c] (hp : m.Keeps s p) (hq : m.Keeps s q) :
    m.Keeps s (if c then p else q) := Gives.ite (fun _ => hp) fun _ => hq

theorem bindIte {c : Prop} [Decidable c] (hp : m.Keeps s p) (hq : m.Keeps s q)
    (hf : ∀ a, m.Keeps s (f a)) :
    m.Keeps s (if c then p >>= f else q >>= f) := ite (hp.bind hf) (hq.bind hf)

end Keeps

end Monitor

/-! ## Stories -/

/-- A call of a method: its label, what it has done and what is left of it. -/
structure Started (Call : Type) (Answer : Call → Type) (ι : Type) where
  label : ι
  trace : List (Σ c, Answer c)
  rest : Async Call Answer Unit

/-- A world and all that was started over it. -/
structure Story (σ Call : Type) (Answer : Call → Type) (ι : Type) where
  world : σ
  calls : List (Started Call Answer ι)

/-- The site of a story. -/
def Story.site {σ Call ι : Type} {Answer : Call → Type} (s : Story σ Call Answer ι) :
    Site σ Call Answer :=
  ⟨s.world, s.calls.map Started.rest⟩

namespace Machine

variable {σ Call Drift ι : Type} {Answer : Call → Type} (M : Machine σ Call Answer Drift)
  (program : ι → Async Call Answer Unit)

/-- One moment of a story. -/
inductive Tells : Story σ Call Answer ι → Story σ Call Answer ι → Prop
  | start {w : σ} {cs : List (Started Call Answer ι)} (i : ι) :
    Tells ⟨w, cs⟩ ⟨w, cs ++ [⟨i, [], program i⟩]⟩
  | answer {w w' : σ} {cs : List (Started Call Answer ι)} {n : Nat}
    {i : ι} {tr : List (Σ c, Answer c)}
      {c : Call} {k : Answer c → Async Call Answer Unit} {x : Answer c} :
      cs[n]? = some ⟨i, tr, .await c k⟩ → M.answers c w x w' →
      Tells ⟨w, cs⟩ ⟨w', cs.set n ⟨i, tr ++ [⟨c, x⟩], k x⟩⟩
  | drift {w w' : σ} {cs : List (Started Call Answer ι)} {d : Drift} :
      M.drifts d w w' → Tells ⟨w, cs⟩ ⟨w', cs⟩

/-- Any number of moments. -/
def Told : Story σ Call Answer ι → Story σ Call Answer ι → Prop :=
  Relation.ReflTransGen (M.Tells program)

variable {M program} {s s' : Story σ Call Answer ι}

/-- A program that is told takes a step of the machine. -/
theorem Tells.step (hstarts : ∀ i, M.starts (program i)) (h : M.Tells program s s') :
    ∃ e, M.Step s.site e s'.site := by
  cases h with
  | start i =>
    refine ⟨.started, ?_⟩
    simp only [Story.site, List.map_append, List.map_cons, List.map_nil]
    exact .start (hstarts i)
  | @answer _ _ cs n i tr c k x hn hx =>
    refine ⟨.answered c x, ?_⟩
    obtain ⟨hlt, hget⟩ := List.getElem?_eq_some_iff.mp hn
    have hsplit : cs = cs.take n ++ ⟨i, tr, .await c k⟩ :: cs.drop (n + 1) := by
      rw [← hget, ← List.drop_eq_getElem_cons hlt, List.take_append_drop]
    have hsite := congrArg (List.map Started.rest) hsplit
    rw [List.map_append, List.map_cons] at hsite
    simp only [Story.site, hsite, List.set_eq_take_append_cons_drop,
      if_pos hlt, List.map_append, List.map_cons]
    exact .answer hx
  | drift hd => exact ⟨_, .drift hd⟩

/-- A story is a run. -/
theorem Told.steps (hstarts : ∀ i, M.starts (program i)) (h : M.Told program s s') :
    M.Steps s.site s'.site := by
  induction h with
  | refl => exact .refl
  | tail _ hstep ih => exact .tail ih (hstep.step hstarts)

end Machine

namespace Story

variable {σ Call Drift ι S : Type} {Answer : Call → Type} {M : Machine σ Call Answer Drift}
  {program : ι → Async Call Answer Unit} {s s' : Story σ Call Answer ι}

/-- Every call is on its way through the program of its method. -/
def Tracked (program : ι → Async Call Answer Unit) (s : Story σ Call Answer ι) : Prop :=
  ∀ e ∈ s.calls, Async.Reaches (program e.label) e.trace e.rest

/-- A step keeps the site what the programs have told. -/
theorem Tracked.tells (h : s.Tracked program) (hstep : M.Tells program s s') :
    s'.Tracked program := by
  intro e he
  cases hstep with
  | start i =>
    rcases List.mem_append.mp he with he | he
    · exact h e he
    · rw [List.mem_singleton.mp he]
      exact .start _
  | @answer w w' cs n i tr c k x hn hx =>
    rcases List.mem_or_eq_of_mem_set he with he | rfl
    · exact h e he
    · exact (h _ (List.mem_of_getElem? hn)).snoc x
  | drift => exact h e he

/-- So do any number of steps. -/
theorem Tracked.told (h : s.Tracked program) (hsteps : M.Told program s s') :
    s'.Tracked program := by
  induction hsteps with
  | refl => exact h
  | tail _ hstep ih => exact ih.tells hstep

/-- A monitor that the program of a method obeys accepts what its calls have done. -/
theorem Tracked.accepts {m : Monitor S Call Answer} {t : S} {post : Unit → S → Prop}
    (h : s.Tracked program)
    {e : Started Call Answer ι} (he : e ∈ s.calls) (hobeys : m.Obeys post (program e.label) t) :
    m.Accepts t e.trace := (hobeys.reaches (h e he)).1

/-- The call with this number has made a call, with this answer. -/
def Made (s : Story σ Call Answer ι) (n : Nat) (entry : Σ c, Answer c) : Prop :=
  ∃ e, s.calls[n]? = some e ∧ entry ∈ e.trace

/-- An answer is one more thing made, by the call it is given to. -/
theorem made_answer {w w' : σ} {cs : List (Started Call Answer ι)} {n : Nat} {i : ι}
    {tr : List (Σ c, Answer c)} {c : Call} {k : Answer c → Async Call Answer Unit} {x : Answer c}
    (hn : cs[n]? = some ⟨i, tr, .await c k⟩) (m : Nat) (entry : Σ c, Answer c) :
    Made ⟨w', cs.set n ⟨i, tr ++ [⟨c, x⟩], k x⟩⟩ m entry ↔
      Made ⟨w, cs⟩ m entry ∨ (m = n ∧ entry = ⟨c, x⟩) := by
  obtain ⟨hlt, -⟩ := List.getElem?_eq_some_iff.mp hn
  by_cases hm : n = m
  · subst hm
    constructor
    · rintro ⟨e, he, hentry⟩
      rw [List.getElem?_set_self hlt] at he
      cases he
      rcases List.mem_append.mp hentry with hold | hnew
      · exact .inl ⟨_, hn, hold⟩
      · exact .inr ⟨rfl, List.mem_singleton.mp hnew⟩
    · rintro (⟨e, he, hentry⟩ | ⟨-, rfl⟩)
      · rw [hn] at he
        cases he
        exact ⟨_, List.getElem?_set_self hlt, List.mem_append_left _ hentry⟩
      · exact ⟨_, List.getElem?_set_self hlt, List.mem_append_right _ (List.mem_singleton_self _)⟩
  · have hother : (cs.set n ⟨i, tr ++ [⟨c, x⟩], k x⟩)[m]? = cs[m]? := List.getElem?_set_ne hm
    constructor
    · rintro ⟨e, he, hentry⟩
      exact .inl ⟨e, hother ▸ he, hentry⟩
    · rintro (⟨e, he, hentry⟩ | ⟨rfl, -⟩)
      · exact ⟨e, hother.trans he, hentry⟩
      · exact absurd rfl hm

/-- A call that is started has made nothing. -/
theorem made_start {w : σ} {cs : List (Started Call Answer ι)} {i : ι}
    {p : Async Call Answer Unit} (m : Nat)
    (entry : Σ c, Answer c) : Made ⟨w, cs ++ [⟨i, [], p⟩]⟩ m entry ↔ Made ⟨w, cs⟩ m entry := by
  constructor
  · rintro ⟨e, he, hentry⟩
    simp only [List.getElem?_append] at he
    split at he
    · exact ⟨e, he, hentry⟩
    · rw [List.mem_singleton.mp (List.mem_of_getElem? he)] at hentry
      cases hentry
  · rintro ⟨e, he, hentry⟩
    obtain ⟨hlt, -⟩ := List.getElem?_eq_some_iff.mp he
    exact ⟨e, (List.getElem?_append_left hlt).trans he, hentry⟩

/-- **One moment, by what is made**: one call is answered, or nobody makes a call. -/
theorem made_tells (hstep : M.Tells program s s') :
    (∃ n c x, M.answers c s.world x s'.world
      ∧ ∀ m entry, s'.Made m entry ↔ s.Made m entry ∨ (m = n ∧ entry = ⟨c, x⟩))
    ∨ ((s'.world = s.world ∨ ∃ d, M.drifts d s.world s'.world)
      ∧ ∀ m entry, s'.Made m entry ↔ s.Made m entry) := by
  cases hstep with
  | start i => exact .inr ⟨.inl rfl, made_start⟩
  | answer hn hx => exact .inl ⟨_, _, _, hx, made_answer hn⟩
  | drift hd => exact .inr ⟨.inr ⟨_, hd⟩, fun _ _ => Iff.rfl⟩

/-- A call that was started keeps its label. -/
theorem label_tells (hstep : M.Tells program s s') {n : Nat} {i : ι}
    (h : s.calls[n]?.map Started.label = some i) : s'.calls[n]?.map Started.label = some i := by
  obtain ⟨e, he, hlabel⟩ := Option.map_eq_some_iff.mp h
  obtain ⟨hlt, -⟩ := List.getElem?_eq_some_iff.mp he
  cases hstep with
  | start j =>
    rw [List.getElem?_append_left hlt]
    exact h
  | @answer w w' cs m j tr c k x hm hx =>
    by_cases hn : m = n
    · subst hn
      rw [hm] at he
      cases he
      simp only [List.getElem?_set_self hlt]
      exact Option.map_eq_some_iff.mpr ⟨_, rfl, hlabel⟩
    · simp only [List.getElem?_set_ne hn]
      exact h
  | drift => exact h

end Story

/-! ## Schedules -/

/-- One entry of a schedule of a story. -/
inductive Telling (ι Drift Hint : Type) : Type
  | start (i : ι)
  | reply (index : Nat) (hint : Hint)
  | drift (d : Drift)

namespace Player

variable {σ Call Drift Hint ι : Type} {Answer : Call → Type} {M : Machine σ Call Answer Drift}
  (player : Player M Hint) (program : ι → Async Call Answer Unit)

/-- Carry out one entry. -/
def tell (s : Story σ Call Answer ι) : Telling ι Drift Hint → Option (Story σ Call Answer ι)
  | .start i => some ⟨s.world, s.calls ++ [⟨i, [], program i⟩]⟩
  | .reply index hint => match s.calls[index]? with
    | some ⟨i, tr, .await c k⟩ => (player.answer c hint s.world).map fun r =>
      ⟨r.2, s.calls.set index ⟨i, tr ++ [⟨c, r.1⟩], k r.1⟩⟩
    | _ => none
  | .drift d => (player.drift d s.world).map fun w => ⟨w, s.calls⟩

/-- Carry out a schedule. -/
def tellAll (s : Story σ Call Answer ι) : List (Telling ι Drift Hint) →
  Option (Story σ Call Answer ι)
  | [] => some s
  | a :: as => (player.tell program s a).bind fun s' => tellAll s' as

variable {player program}

/-- What the player tells is told. -/
theorem tells_of_tell {s s' : Story σ Call Answer ι} {a : Telling ι Drift Hint}
    (h : player.tell program s a = some s') : M.Tells program s s' := by
  cases a with
  | start i =>
    cases h
    exact .start i
  | reply index hint =>
    simp only [tell] at h
    split at h
    · rename_i hn
      obtain ⟨⟨x, w⟩, hanswer, rfl⟩ := Option.map_eq_some_iff.mp h
      exact .answer hn (player.answers hanswer)
    · cases h
  | drift d =>
    obtain ⟨w, hdrift, rfl⟩ := Option.map_eq_some_iff.mp h
    exact .drift (player.drifts hdrift)

/-- A schedule that plays is a story. -/
theorem told_of_tellAll {s s' : Story σ Call Answer ι} {as : List (Telling ι Drift Hint)}
    (h : player.tellAll program s as = some s') : M.Told program s s' := by
  induction as generalizing s with
  | nil =>
    cases h
    exact .refl
  | cons a as ih =>
    obtain ⟨t, htell, hrest⟩ := Option.bind_eq_some_iff.mp h
    exact .head (tells_of_tell htell) (ih hrest)

end Player

/-- The entry of a schedule, if it starts nothing. -/
def Entry.telling {σ Call Drift Hint : Type} {Answer : Call → Type}
    {M : Machine σ Call Answer Drift}
    (ι : Type) : Entry M Hint → Option (Telling ι Drift Hint)
  | .start _ _ => none
  | .reply index hint => some (.reply index hint)
  | .drift d => some (.drift d)
