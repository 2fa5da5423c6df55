import DividendX.Lib.Async
import Mathlib.Data.Set.BooleanAlgebra
import Mathlib.Data.Set.Disjoint
import Mathlib.Order.CompletePartialOrder

/-!
# Rely and guarantee with tokens

Some facts about a shared world are private to one program: nobody else uses the number it has
drawn. `Ownership` is a discipline (`Discipline`) with tokens. A token is handed out with the answer
to a call and belongs to one program at a time; what a program relies on, and which calls it may
make, depends on the tokens it owns. A program that uses a token up gives it away and relies on it
no longer.

Two programs never own the same token, so what one does with its own is within what all others rely
on (`Sound.step`).
-/

/-- What the programs over a machine may count on, and what they owe, by the tokens they own. -/
structure Ownership {σ Call Drift : Type} {Answer : Call → Type} (M : Machine σ Call Answer Drift)
    (τ : Type) where
  inv : σ → Prop
  /-- the tokens that were handed out -/
  issued : σ → Set τ
  rely : Set τ → σ → σ → Prop
  /-- what must hold of the world when a call is made -/
  may : Set τ → Call → σ → Prop
  /-- the tokens that are left after an answer -/
  after : Set τ → (c : Call) → Answer c → Set τ
  refl : ∀ T w, rely T w w
  trans : ∀ {T w w' w''}, rely T w w' → rely T w' w'' → rely T w w''
  anti : ∀ {T T' w w'}, T ⊆ T' → rely T' w w' → rely T w w'
  answered : ∀ {T c w x w'}, inv w → T ⊆ issued w → may T c w → M.answers c w x w' →
    inv w' ∧ issued w ⊆ issued w' ∧ after T c x ⊆ issued w'
  fresh : ∀ {T c w x w'}, inv w → M.answers c w x w' → ∀ t ∈ after T c x, t ∈ T ∨ t ∉ issued w
  /-- a call is within what the others rely on, and its own program with the tokens it keeps -/
  guarantee : ∀ {T T' c w x w'}, inv w → T ⊆ issued w → may T c w → M.answers c w x w' →
    T' ⊆ issued w → Disjoint T T' ∨ T' ⊆ after T c x → rely T' w w'
  drifted : ∀ {d w w'}, inv w → M.drifts d w w' →
    inv w' ∧ issued w ⊆ issued w' ∧ ∀ T ⊆ issued w, rely T w w'

namespace Ownership

variable {σ Call Drift τ : Type} {Answer : Call → Type} {M : Machine σ Call Answer Drift}
  {α β ε : Type}

/-- A program makes each call only where it may, never gives away the tokens of `R`, and ends in its
postcondition. -/
def Safe (O : Ownership M τ) (R : Set τ) (post : Set τ → α → σ → Prop) :
    Async Call Answer α → Set τ → σ → Prop
  | .done a, T, w => ∀ w', O.rely T w w' → O.inv w' → T ⊆ O.issued w' → post T a w'
  | .await c k, T, w => ∀ w', O.rely T w w' → O.inv w' → T ⊆ O.issued w' →
      O.may T c w' ∧ ∀ x w'', M.answers c w' x w'' →
        R ⊆ O.after T c x ∧ Safe O R post (k x) (O.after T c x) w''

namespace Safe

variable {O : Ownership M τ} {post post' : Set τ → α → σ → Prop} {p : Async Call Answer α}
  {T R R' : Set τ} {w w' : σ}

/-- Safety survives what the others do. -/
theorem later (h : O.Safe R post p T w) (hr : O.rely T w w') : O.Safe R post p T w' := by
  cases p with
  | done a => exact fun w'' hr' => h w'' (O.trans hr hr')
  | await c k => exact fun w'' hr' => h w'' (O.trans hr hr')

/-- It is enough to be safe from every world the others may leave. -/
theorem of_later (h : ∀ w', O.rely T w w' → O.inv w' → T ⊆ O.issued w' → O.Safe R post p T w') :
    O.Safe R post p T w := by
  cases p with
  | done a => exact fun w' hr hi hT => h w' hr hi hT w' (O.refl T w') hi hT
  | await c k => exact fun w' hr hi hT => h w' hr hi hT w' (O.refl T w') hi hT

/-- What is known at the end may be used at every later world. -/
theorem mono (h : O.Safe R post p T w) (hpost : ∀ T' a w', O.inv w' → T' ⊆ O.issued w' →
      (∀ w'', O.rely T' w' w'' → O.inv w'' → T' ⊆ O.issued w'' → post T' a w'') → post' T' a w') :
    O.Safe R post' p T w := by
  induction p generalizing T w with
  | done a =>
    exact fun w' hr hi hT => hpost T a w' hi hT fun w'' hr' => h w'' (O.trans hr hr')
  | await c k ih =>
    intro w' hr hi hT
    obtain ⟨hmay, hnext⟩ := h w' hr hi hT
    refine ⟨hmay, fun x w'' hx => ?_⟩
    obtain ⟨hkept, hrest⟩ := hnext x w'' hx
    exact ⟨hkept, ih x hrest⟩

/-- Fewer tokens need to be kept. -/
theorem weaken (h : O.Safe R post p T w) (hR : R' ⊆ R) : O.Safe R' post p T w := by
  induction p generalizing T w with
  | done a => exact h
  | await c k ih =>
    intro w' hr hi hT
    obtain ⟨hmay, hnext⟩ := h w' hr hi hT
    refine ⟨hmay, fun x w'' hx => ?_⟩
    obtain ⟨hkept, hrest⟩ := hnext x w'' hx
    exact ⟨hR.trans hkept, ih x hrest⟩

theorem bind {f : α → Async Call Answer β} {post : Set τ → β → σ → Prop}
    (h : O.Safe R (fun T' a w' => O.Safe R post (f a) T' w') p T w) :
    O.Safe R post (p.bind f) T w := by
  induction p generalizing T w with
  | done a => exact of_later h
  | await c k ih =>
    intro w' hr hi hT
    obtain ⟨hmay, hnext⟩ := h w' hr hi hT
    refine ⟨hmay, fun x w'' hx => ?_⟩
    obtain ⟨hkept, hrest⟩ := hnext x w'' hx
    exact ⟨hkept, ih x hrest⟩

/-- At the end the tokens of `R` are still there, and the world has moved within what they allow. -/
theorem keep {w₀ : σ} (h : O.Safe R post p T w) (hr₀ : O.rely R w₀ w) (hR : R ⊆ T) :
    O.Safe R (fun T' a w' => R ⊆ T' ∧ O.rely R w₀ w' ∧ post T' a w') p T w := by
  induction p generalizing T w with
  | done a => exact fun w' hr hi hT => ⟨hR, O.trans hr₀ (O.anti hR hr), h w' hr hi hT⟩
  | await c k ih =>
    intro w' hr hi hT
    obtain ⟨hmay, hnext⟩ := h w' hr hi hT
    refine ⟨hmay, fun x w'' hx => ?_⟩
    obtain ⟨hkept, hrest⟩ := hnext x w'' hx
    have hown := O.guarantee hi hT hmay hx (hR.trans hT) (.inr hkept)
    exact ⟨hkept, ih x hrest (O.trans (O.trans hr₀ (O.anti hR hr)) hown) hkept⟩

end Safe

/-! Programs that may throw. -/

/-- A safe program whose value, if it does not throw, satisfies `Q`. -/
def Gives (O : Ownership M τ) (R : Set τ) (Q : Set τ → α → σ → Prop)
    (p : ExceptT ε (Async Call Answer) α) (T : Set τ) (w : σ) : Prop :=
  O.Safe R (fun T' r w' => ∀ a, r = .ok a → Q T' a w') p.run T w

namespace Gives

variable {O : Ownership M τ} {Q Q' : Set τ → α → σ → Prop} {P : Set τ → β → σ → Prop} {w w' : σ}
  {T R R' : Set τ} {p : ExceptT ε (Async Call Answer) α} {f : α → ExceptT ε (Async Call Answer) β}

theorem mono (h : O.Gives R Q p T w) (hR : R ⊆ T)
    (hQ : ∀ T' a w', R ⊆ T' → O.rely R w w' → O.inv w' → Q T' a w' → Q' T' a w') :
    O.Gives R Q' p T w := by
  refine Safe.mono (Safe.keep h (O.refl R w) hR) fun T' r w' hi hT hlater a ha => ?_
  obtain ⟨hkept, hr, hq⟩ := hlater w' (O.refl T' w') hi hT
  exact hQ T' a w' hkept hr hi (hq a ha)

theorem pure {a : α} (h : ∀ w', O.rely T w w' → O.inv w' → Q T a w') :
    O.Gives R Q (Pure.pure a : ExceptT ε (Async Call Answer) α) T w := by
  intro w' hr hi _ b hb
  cases hb
  exact h w' hr hi

theorem throw {e : ε} : O.Gives R Q (throw e : ExceptT ε (Async Call Answer) α) T w :=
  fun _ _ _ _ _ hb => by cases hb

/-- Synchronous code. -/
theorem sync {x : Except ε α} (h : ∀ a w', x = .ok a → O.rely T w w' → O.inv w' → Q T a w') :
    O.Gives R Q (Async.sync x) T w :=
  fun w' hr hi _ a ha => h a w' ha hr hi

/-- A call that leaves the tokens as they are. -/
theorem call {c : Call} {g : Answer c → Except ε α} (hafter : ∀ x, O.after T c x = T) (hR : R ⊆ T)
    (hmay : ∀ w', O.rely T w w' → O.inv w' → O.may T c w')
    (hQ : ∀ w₁ x w₂ a, O.rely T w w₁ → O.inv w₁ → M.answers c w₁ x w₂ → g x = .ok a →
      ∀ w₃, O.rely T w₂ w₃ → O.inv w₃ → Q T a w₃) :
    O.Gives R Q (Async.call c g) T w := by
  intro w₁ hr₁ hi₁ _
  refine ⟨hmay w₁ hr₁ hi₁, fun x w₂ hx => ?_⟩
  rw [hafter]
  exact ⟨hR, fun w₃ hr₃ hi₃ _ a ha => hQ w₁ x w₂ a hr₁ hi₁ hx ha w₃ hr₃ hi₃⟩

/-- A call that is not rejected. -/
theorem ask {c : Call} {Q : Set τ → Answer c → σ → Prop} (hafter : ∀ x, O.after T c x = T)
    (hR : R ⊆ T)
    (hmay : ∀ w', O.rely T w w' → O.inv w' → O.may T c w')
    (hQ : ∀ w₁ x w₂, O.rely T w w₁ → O.inv w₁ → M.answers c w₁ x w₂ →
      ∀ w₃, O.rely T w₂ w₃ → O.inv w₃ → Q T x w₃) :
    O.Gives R Q (Async.ask c : ExceptT ε (Async Call Answer) (Answer c)) T w := by
  refine call (g := .ok) hafter hR hmay fun w₁ x w₂ a hr₁ hi₁ hx ha w₃ hr₃ hi₃ => ?_
  cases ha
  exact hQ w₁ x w₂ hr₁ hi₁ hx w₃ hr₃ hi₃

/-- One after the other. -/
theorem bind (h : O.Gives R' Q p T w) (hR : R ⊆ R') (hR' : R' ⊆ T)
    (hf : ∀ T' a w', R' ⊆ T' → O.rely R' w w' → O.inv w' → Q T' a w' → O.Gives R P (f a) T' w') :
    O.Gives R P (p >>= f) T w := by
  change O.Safe R _ (Async.bind p.run (ExceptT.bindCont f)) T w
  refine Safe.bind (Safe.mono (Safe.weaken (Safe.keep h (O.refl R' w) hR') hR)
    fun T' r w' hi hT hlater => ?_)
  obtain ⟨hkept, hr, hq⟩ := hlater w' (O.refl T' w') hi hT
  cases r with
  | ok a => exact hf T' a w' hkept hr hi (hq a rfl)
  | error e => exact fun _ _ _ _ b hb => by cases hb

/-- `try` and `catch`. -/
theorem tryCatch {g : ε → ExceptT ε (Async Call Answer) α} (h : O.Gives R' Q p T w) (hR : R ⊆ R')
    (hR' : R' ⊆ T)
    (hg : ∀ T' e w', R' ⊆ T' → O.rely R' w w' → O.inv w' → O.Gives R Q (g e) T' w') :
    O.Gives R Q (MonadExcept.tryCatch p g) T w := by
  change O.Safe R _ (Async.bind p.run _) T w
  refine Safe.bind (Safe.mono (Safe.weaken (Safe.keep h (O.refl R' w) hR') hR)
    fun T' r w' hi hT hlater => ?_)
  cases r with
  | ok a => exact fun w'' hr hi' hT' => (hlater w'' hr hi' hT').2.2
  | error e =>
    obtain ⟨hkept, hr, -⟩ := hlater w' (O.refl T' w') hi hT
    exact hg T' e w' hkept hr hi

/-- What was thrown, as a value. -/
theorem settle (h : O.Gives R Q p T w) :
    O.Gives R (fun T' r w' => ∀ a, r = .ok a → Q T' a w') (Async.settle p) T w := by
  change O.Safe R _ (Async.bind p.run _) T w
  refine Safe.bind (Safe.mono h fun T' r w' hi hT hlater => ?_)
  intro w'' hr hi' hT' b hb
  cases hb
  exact hlater w'' hr hi' hT'

theorem ite {c : Prop} [Decidable c] {q : ExceptT ε (Async Call Answer) α}
    (ht : c → O.Gives R Q p T w) (he : ¬ c → O.Gives R Q q T w) :
    O.Gives R Q (if c then p else q) T w := by
  split
  · exact ht ‹_›
  · exact he ‹_›

/-- One of two programs, and what comes after either. -/
theorem bindIte {c : Prop} [Decidable c] {q : ExceptT ε (Async Call Answer) α}
    (h : O.Gives R' Q (if c then p else q) T w) (hR : R ⊆ R') (hR' : R' ⊆ T)
    (hf : ∀ T' a w', R' ⊆ T' → O.rely R' w w' → O.inv w' → Q T' a w' → O.Gives R P (f a) T' w') :
    O.Gives R P (if c then p >>= f else q >>= f) T w := by
  split
  · rename_i hc
    rw [if_pos hc] at h
    exact h.bind hR hR' hf
  · rename_i hc
    rw [if_neg hc] at h
    exact h.bind hR hR' hf

theorem forget (h : O.Gives R Q p T w) : O.Safe R (fun _ _ _ => True) (Async.forget p.run) T w :=
  Safe.bind (Safe.mono h fun _ _ _ _ _ _ _ _ _ _ => trivial)

end Gives

/-! ## All interleavings -/

/-- A site in good order: the invariant holds, every program is safe with the tokens it owns, and no
token is owned twice. -/
structure Sound (O : Ownership M τ) (s : Site σ Call Answer) : Prop where
  inv : O.inv s.world
  threads : ∃ owned : List (Set τ × Async Call Answer Unit), owned.map Prod.snd = s.threads
    ∧ owned.Pairwise (fun a b => Disjoint a.1 b.1)
    ∧ ∀ e ∈ owned, e.1 ⊆ O.issued s.world ∧ O.Safe ∅ (fun _ _ _ => True) e.2 e.1 s.world

/-- Programs that are safe to start. -/
def Guards (O : Ownership M τ) : Prop :=
  ∀ p, M.starts p → ∀ w, O.inv w → O.Safe ∅ (fun _ _ _ => True) p ∅ w

variable {O : Ownership M τ} {s s' : Site σ Call Answer} {e : Event Call Answer Drift}

/-- **One moment**: good order is kept, and the world moves within what is relied on without
tokens. -/
theorem Sound.step (h : O.Sound s) (hguards : O.Guards) (hstep : M.Step s e s') :
    O.Sound s' ∧ O.rely ∅ s.world s'.world := by
  obtain ⟨hinv, owned, hmap, hdisjoint, hsafe⟩ := h
  cases hstep with
  | @start w ts p hp =>
    refine ⟨⟨hinv, owned ++ [(∅, p)], ?_, ?_, ?_⟩, O.refl _ _⟩
    · rw [List.map_append, hmap]
      rfl
    · refine List.pairwise_append.mpr ⟨hdisjoint, List.pairwise_singleton _ _, fun a _ b hb => ?_⟩
      rw [List.mem_singleton.mp hb]
      exact Set.disjoint_empty _
    · intro e he
      rcases List.mem_append.mp he with he | he
      · exact hsafe e he
      · rw [List.mem_singleton.mp he]
        exact ⟨Set.empty_subset _, hguards p hp w hinv⟩
  | @crash w l r p =>
    obtain ⟨l', r', rfl, hl, hr⟩ := List.map_eq_append_iff.mp hmap
    obtain ⟨e, r'', rfl, he, hr⟩ := List.map_eq_cons_iff.mp hr
    refine ⟨⟨hinv, l' ++ r'', ?_, ?_, ?_⟩, O.refl _ _⟩
    · rw [List.map_append, hl, hr]
    · exact hdisjoint.sublist (List.Sublist.append_left (List.sublist_cons_self _ _) _)
    · intro e he
      refine hsafe e ?_
      rcases List.mem_append.mp he with he | he
      · exact List.mem_append_left _ he
      · exact List.mem_append_right _ (List.mem_cons_of_mem _ he)
  | @answer w w' l r c k x hx =>
    obtain ⟨l', r', rfl, hl, hr⟩ := List.map_eq_append_iff.mp hmap
    obtain ⟨⟨T, p⟩, r'', rfl, rfl, hrest⟩ := List.map_eq_cons_iff.mp hr
    obtain ⟨hpl, hpr, hcross⟩ := List.pairwise_append.mp hdisjoint
    obtain ⟨hhead, hpr⟩ := List.pairwise_cons.mp hpr
    obtain ⟨hT, hthread⟩ := hsafe (T, .await c k) (List.mem_append_right l' List.mem_cons_self)
    obtain ⟨hmay, hnext⟩ := hthread w (O.refl T w) hinv hT
    obtain ⟨hinv', hissued, hafter⟩ := O.answered hinv hT hmay hx
    -- the tokens of another program are not among those of this one, before and after
    have hother : ∀ e : Set τ × Async Call Answer Unit, e.1 ⊆ O.issued w → Disjoint T e.1 →
        O.Safe ∅ (fun _ _ _ => True) e.2 e.1 w →
        Disjoint (O.after T c x) e.1 ∧ e.1 ⊆ O.issued w'
          ∧ O.Safe ∅ (fun _ _ _ => True) e.2 e.1 w' := by
      intro e heT hdis hesafe
      refine ⟨?_, heT.trans hissued, hesafe.later (O.guarantee hinv hT hmay hx heT (.inl hdis))⟩
      rw [Set.disjoint_left]
      intro t ht hte
      rcases O.fresh hinv hx t ht with hold | hnew
      · exact Set.disjoint_left.mp hdis hold hte
      · exact hnew (heT hte)
    have hleft : ∀ e ∈ l', Disjoint T e.1 := fun e he =>
      (hcross e he (T, .await c k) List.mem_cons_self).symm
    have hsafel := fun e he => hsafe e (List.mem_append_left _ he)
    have hsafer := fun e he => hsafe e (List.mem_append_right l' (List.mem_cons_of_mem _ he))
    refine ⟨⟨hinv', l' ++ (O.after T c x, k x) :: r'', ?_, ?_, ?_⟩,
      O.guarantee hinv hT hmay hx (Set.empty_subset _) (.inl (Set.disjoint_empty _))⟩
    · rw [List.map_append, List.map_cons, hl, hrest]
    · refine List.pairwise_append.mpr
        ⟨hpl, List.pairwise_cons.mpr ⟨fun b hb => ?_, hpr⟩, fun a ha b hb => ?_⟩
      · exact (hother b (hsafer b hb).1 (hhead b hb) (hsafer b hb).2).1
      · rcases List.mem_cons.mp hb with rfl | hb
        · exact (hother a (hsafel a ha).1 (hleft a ha) (hsafel a ha).2).1.symm
        · exact hcross a ha b (List.mem_cons_of_mem _ hb)
    · intro e he
      rcases List.mem_append.mp he with he | he
      · exact (hother e (hsafel e he).1 (hleft e he) (hsafel e he).2).2
      · rcases List.mem_cons.mp he with rfl | he
        · exact ⟨hafter, (hnext x w' hx).2⟩
        · exact (hother e (hsafer e he).1 (hhead e he) (hsafer e he).2).2
  | @drift w w' ts d hd =>
    obtain ⟨hinv', hissued, hrely⟩ := O.drifted hinv hd
    refine ⟨⟨hinv', owned, hmap, hdisjoint, fun e he => ?_⟩, hrely ∅ (Set.empty_subset _)⟩
    obtain ⟨hT, hthread⟩ := hsafe e he
    exact ⟨hT.trans hissued, hthread.later (hrely e.1 hT)⟩

/-- **All interleavings.** -/
theorem Sound.steps (h : O.Sound s) (hguards : O.Guards) (hsteps : M.Steps s s') :
    O.Sound s' ∧ O.rely ∅ s.world s'.world := by
  induction hsteps with
  | refl => exact ⟨h, O.refl _ _⟩
  | tail _ hstep ih =>
    obtain ⟨e, hstep⟩ := hstep
    obtain ⟨hsound, hrely⟩ := ih.1.step hguards hstep
    exact ⟨hsound, O.trans ih.2 hrely⟩

/-- Every call under way may be made, with the tokens of its program. -/
theorem Sound.awaits {c : Call} {k : Answer c → Async Call Answer Unit} (h : O.Sound s)
    (hp : .await c k ∈ s.threads) : ∃ T ⊆ O.issued s.world, O.may T c s.world := by
  obtain ⟨hinv, owned, hmap, -, hsafe⟩ := h
  rw [← hmap, List.mem_map] at hp
  obtain ⟨⟨T, p⟩, hmem, rfl⟩ := hp
  obtain ⟨hT, hthread⟩ := hsafe _ hmem
  exact ⟨T, hT, (hthread s.world (O.refl T s.world) hinv hT).1⟩

end Ownership
