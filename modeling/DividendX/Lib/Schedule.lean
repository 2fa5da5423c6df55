import DividendX.Lib.Async

/-!
# Schedules

A run of a machine written down as a list of actions: which program starts or crashes, whose call is
answered and how, how the world drifts. A machine whose answers can be computed from a hint
(`Player`) plays a schedule by evaluation, and a schedule that plays to its end is a run
(`steps_of_play`).
-/

variable {σ Call Drift Hint : Type} {Answer : Call → Type}

/-- Computes the answers and the drift of a machine. -/
structure Player (M : Machine σ Call Answer Drift) (Hint : Type) where
  answer : (c : Call) → Hint → σ → Option (Answer c × σ)
  drift : Drift → σ → Option σ
  answers : ∀ {c h w x w'}, answer c h w = some (x, w') → M.answers c w x w'
  drifts : ∀ {d w w'}, drift d w = some w' → M.drifts d w w'

/-- One entry of a schedule; programs are numbered in the order they were started. -/
inductive Entry (M : Machine σ Call Answer Drift) (Hint : Type) : Type
  | start (p : Async Call Answer Unit) (h : M.starts p)
  | reply (index : Nat) (hint : Hint)
  | drift (d : Drift)

namespace Player

variable {M : Machine σ Call Answer Drift} (player : Player M Hint)

/-- Answer the call of one of the programs. -/
def reply (hint : Hint) (w : σ) :
    Nat → List (Async Call Answer Unit) → Option (σ × List (Async Call Answer Unit))
  | _, [] => none
  | 0, .done _ :: _ => none
  | 0, .await c k :: ts => (player.answer c hint w).map fun r => (r.2, k r.1 :: ts)
  | n + 1, t :: ts => (reply hint w n ts).map fun r => (r.1, t :: r.2)

/-- Carry out one action. -/
def act (s : Site σ Call Answer) : Entry M Hint → Option (Site σ Call Answer)
  | .start p _ => some ⟨s.world, s.threads ++ [p]⟩
  | .reply index hint => (player.reply hint s.world index s.threads).map fun r => ⟨r.1, r.2⟩
  | .drift d => (player.drift d s.world).map fun w => ⟨w, s.threads⟩

/-- Carry out a schedule. -/
def play (s : Site σ Call Answer) : List (Entry M Hint) → Option (Site σ Call Answer)
  | [] => some s
  | a :: as => (player.act s a).bind fun s' => play s' as

variable {player}

theorem reply_eq_some {hint : Hint} {w w' : σ} {n : Nat} {ts ts' : List (Async Call Answer Unit)}
    (h : player.reply hint w n ts = some (w', ts')) :
    ∃ l c k r x, ts = l ++ .await c k :: r ∧ M.answers c w x w' ∧ ts' = l ++ k x :: r := by
  induction ts generalizing n ts' with
  | nil => cases n <;> cases h
  | cons t ts ih =>
    cases n with
    | zero =>
      cases t with
      | done a => cases h
      | await c k =>
        obtain ⟨⟨x, v⟩, hanswer, heq⟩ := Option.map_eq_some_iff.mp h
        cases heq
        exact ⟨[], c, k, ts, x, rfl, player.answers hanswer, rfl⟩
    | succ n =>
      rw [reply, Option.map_eq_some_iff] at h
      obtain ⟨⟨v, us⟩, hrest, heq⟩ := h
      cases heq
      obtain ⟨l, c, k, r, x, rfl, hx, rfl⟩ := ih hrest
      exact ⟨t :: l, c, k, r, x, rfl, hx, rfl⟩

theorem step_of_act {s s' : Site σ Call Answer} {a : Entry M Hint} (h : player.act s a = some s') :
    ∃ e, M.Step s e s' := by
  cases a with
  | start p hp =>
    cases h
    exact ⟨_, .start hp⟩
  | reply index hint =>
    obtain ⟨⟨w, ts⟩, hreply, rfl⟩ := Option.map_eq_some_iff.mp h
    obtain ⟨l, c, k, r, x, hts, hx, rfl⟩ := reply_eq_some hreply
    obtain ⟨w₀, ts₀⟩ := s
    cases hts
    exact ⟨_, .answer hx⟩
  | drift d =>
    obtain ⟨w, hdrift, rfl⟩ := Option.map_eq_some_iff.mp h
    exact ⟨_, .drift (player.drifts hdrift)⟩

/-- A schedule that plays is a run. -/
theorem steps_of_play {s s' : Site σ Call Answer} {as : List (Entry M Hint)}
    (h : player.play s as = some s') : M.Steps s s' := by
  induction as generalizing s with
  | nil =>
    cases h
    exact .refl
  | cons a as ih =>
    obtain ⟨t, hact, hrest⟩ := Option.bind_eq_some_iff.mp h
    exact .head (step_of_act hact) (ih hrest)

end Player
