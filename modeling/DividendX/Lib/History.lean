import DividendX.Lib.CasStore

/-!
# A register and its history

The register of `CasStore`, kept as the list of all writes that ever took effect. Its value is the
value of the last one and its version is their number, so a version names the history up to it.

**What a writer knew.** A write is based on the version it expects, hence on one beginning of the
history (`Basis`). Whatever is allowed after that beginning stays allowed however long the write is
in flight; when it takes effect, the beginning is the whole history. So a register on which only
allowed writes are asked for has a `Legal` history: every write in it was allowed after those before
it.
-/

/-- A write that took effect. -/
structure Write (χ V : Type) where
  change : χ
  value : V

/-- The writes that took effect, oldest first, and those whose callers were left without an
answer. -/
structure History (χ V : Type) where
  log : List (Write χ V)
  inflight : List (Put χ V)

namespace History

variable {χ V ε : Type}

/-- The value after some writes. -/
def content (initial : V) (log : List (Write χ V)) : V :=
  (log.getLast?.map Write.value).getD initial

/-- What a reader sees: the value and the version, if there is one. -/
def cell (s : History χ V) : Option (Versioned V) :=
  s.log.getLast?.map fun w => ⟨w.value, s.log.length⟩

/-- The number of writes before the version a write expects. -/
def version : Option Nat → Nat
  | none => 0
  | some n => n

/-- The register after a write. -/
def append (s : History χ V) (p : Put χ V) : History χ V :=
  { s with log := s.log ++ [⟨p.change, p.value⟩] }

/-- A write is asked for: it takes effect, or it is refused, or the call fails and nobody knows. -/
inductive Puts (s : History χ V) (p : Put χ V) : Except ε Bool → History χ V → Prop
  | saved : version p.expected = s.log.length → Puts s p (.ok true) (s.append p)
  | refused : Puts s p (.ok false) s
  | lost (e : ε) : Puts s p (.error e) { s with inflight := p :: s.inflight }

/-- A write in flight takes effect late. -/
inductive Lands (s : History χ V) : Put χ V → History χ V → Prop
  | late {p : Put χ V} : p ∈ s.inflight → version p.expected = s.log.length → Lands s p (s.append p)

@[simp] theorem log_append (s : History χ V) (p : Put χ V) :
    (s.append p).log = s.log ++ [⟨p.change, p.value⟩] := rfl

@[simp] theorem content_append (initial : V) (log : List (Write χ V)) (w : Write χ V) :
    content initial (log ++ [w]) = w.value := by
  simp [content]

@[simp] theorem content_nil (initial : V) : content initial ([] : List (Write χ V)) = initial := rfl

/-- The cell shows the last write. -/
theorem content_cell (initial : V) (s : History χ V) :
    CasStore.content initial s.cell = content initial s.log := by
  rw [CasStore.content, cell, content]
  cases s.log.getLast? <;> rfl

/-- And counts the writes. -/
theorem version_cell (s : History χ V) : version (CasStore.etag s.cell) = s.log.length := by
  rw [CasStore.etag, cell]
  cases hlast : s.log.getLast? with
  | none => rw [List.getLast?_eq_none_iff.mp hlast]; rfl
  | some w => rfl

/-! ## Allowed writes -/

section Rules

variable (Allowed : List (Write χ V) → Write χ V → Prop)

/-- A write that is allowed after the history up to the version it expects. -/
def Basis (log : List (Write χ V)) (p : Put χ V) : Prop :=
  version p.expected ≤ log.length ∧ Allowed (log.take (version p.expected)) ⟨p.change, p.value⟩

/-- Every write was allowed after those before it. -/
inductive Legal : List (Write χ V) → Prop
  | nil : Legal []
  | snoc {log : List (Write χ V)} {w : Write χ V} : Legal log → Allowed log w → Legal (log ++ [w])

variable {Allowed} {Allowed' : List (Write χ V) → Write χ V → Prop} {log log' : List (Write χ V)}
  {p : Put χ V} {s s' : History χ V} {x : Except ε Bool}

/-- A basis stays one after more writes. -/
theorem Basis.later (h : Basis Allowed log p) (hl : log <+: log') : Basis Allowed log' p := by
  obtain ⟨more, rfl⟩ := hl
  obtain ⟨hle, hallowed⟩ := h
  refine ⟨by rw [List.length_append]; omega, ?_⟩
  rw [List.take_append_of_le_length hle]
  exact hallowed

/-- More may be allowed. -/
theorem Legal.mono (h : Legal Allowed log) (hmono : ∀ pre w, Allowed pre w → Allowed' pre w) :
    Legal Allowed' log := by
  induction h with
  | nil => exact .nil
  | snoc _ hallowed ih => exact .snoc ih (hmono _ _ hallowed)

/-- The last write was allowed after those before it. -/
theorem Legal.of_append {w : Write χ V} (h : Legal Allowed (log ++ [w])) :
    Legal Allowed log ∧ Allowed log w := by
  generalize heq : log ++ [w] = all at h
  cases h with
  | nil => simp at heq
  | snoc hlegal hallowed =>
    obtain ⟨rfl, hw⟩ := List.append_inj' heq rfl
    cases hw
    exact ⟨hlegal, hallowed⟩

/-- A beginning of a legal history is legal. -/
theorem Legal.of_prefix (h : Legal Allowed log') (hl : log <+: log') : Legal Allowed log := by
  induction h with
  | nil =>
    rw [List.prefix_nil.mp hl]
    exact .nil
  | snoc hlegal hallowed ih =>
    rcases List.prefix_concat_iff.mp hl with rfl | hl
    · exact .snoc hlegal hallowed
    · exact ih hl

/-- **Read, change, write**: what is allowed after the history that was read may be asked for at any
later time. -/
theorem basis_of_read {change : χ} {value : V} (hl : s.log <+: log)
    (hallowed : Allowed s.log ⟨change, value⟩) :
    Basis Allowed log ⟨change, CasStore.etag s.cell, value⟩ := by
  have hbasis : Basis Allowed s.log ⟨change, CasStore.etag s.cell, value⟩ := by
    refine ⟨Nat.le_of_eq (version_cell s), ?_⟩
    rw [version_cell, List.take_length]
    exact hallowed
  exact hbasis.later hl

/-- A write that can take effect is allowed now. -/
theorem Basis.allowed (h : Basis Allowed log p) (heq : version p.expected = log.length) :
    Allowed log ⟨p.change, p.value⟩ := by
  have hallowed := h.2
  rw [heq, List.take_length] at hallowed
  exact hallowed

/-- The history after an answer: the same, or longer by a write that was allowed. -/
theorem Puts.log_eq (hp : Puts s p x s') (h : Basis Allowed s.log p) :
    s'.log = s.log
      ∨ (s'.log = s.log ++ [⟨p.change, p.value⟩] ∧ Allowed s.log ⟨p.change, p.value⟩) := by
  cases hp with
  | saved heq => exact .inr ⟨rfl, h.allowed heq⟩
  | refused => exact .inl rfl
  | lost e => exact .inl rfl

/-- What is under way keeps its basis. -/
theorem Puts.inflight (hp : Puts s p x s') (hall : ∀ q ∈ s.inflight, Basis Allowed s.log q)
    (h : Basis Allowed s.log p) : ∀ q ∈ s'.inflight, Basis Allowed s'.log q := by
  cases hp with
  | saved heq => exact fun q hq => (hall q hq).later (List.prefix_append _ _)
  | refused => exact hall
  | lost e =>
    intro q hq
    rcases List.mem_cons.mp hq with rfl | hq
    · exact h
    · exact hall q hq

/-- A late write is appended if it lands at all. -/
theorem Lands.log_eq (hp : Lands s p s') (hall : ∀ q ∈ s.inflight, Basis Allowed s.log q) :
    s'.log = s.log ++ [⟨p.change, p.value⟩] ∧ Allowed s.log ⟨p.change, p.value⟩ := by
  cases hp with
  | late hmem heq => exact ⟨rfl, (hall p hmem).allowed heq⟩

/-- And the others keep their bases. -/
theorem Lands.inflight (hp : Lands s p s') (hall : ∀ q ∈ s.inflight, Basis Allowed s.log q) :
    ∀ q ∈ s'.inflight, Basis Allowed s'.log q := by
  cases hp with
  | late hmem heq => exact fun q hq => (hall q hq).later (List.prefix_append _ _)

/-- A register in order. -/
structure Orderly (Allowed : List (Write χ V) → Write χ V → Prop) (s : History χ V) : Prop where
  legal : Legal Allowed s.log
  inflight : ∀ p ∈ s.inflight, Basis Allowed s.log p

/-- **A `put`** keeps the history orderly, and only appends. -/
theorem Orderly.puts (h : Orderly Allowed s) (hbasis : Basis Allowed s.log p) (hp : Puts s p x s') :
    Orderly Allowed s' ∧ s.log <+: s'.log := by
  refine ⟨⟨?_, hp.inflight h.inflight hbasis⟩, ?_⟩
  · rcases hp.log_eq hbasis with heq | ⟨heq, hallowed⟩
    · rw [heq]
      exact h.legal
    · rw [heq]
      exact .snoc h.legal hallowed
  · rcases hp.log_eq hbasis with heq | ⟨heq, -⟩
    · exact heq.symm ▸ List.prefix_refl _
    · exact heq.symm ▸ List.prefix_append _ _

/-- **A late write** too. -/
theorem Orderly.lands (h : Orderly Allowed s) (hp : Lands s p s') :
    Orderly Allowed s' ∧ s.log <+: s'.log := by
  obtain ⟨heq, hallowed⟩ := hp.log_eq h.inflight
  refine ⟨⟨?_, hp.inflight h.inflight⟩, ?_⟩
  · rw [heq]
    exact .snoc h.legal hallowed
  · rw [heq]
    exact List.prefix_append _ _

end Rules

end History
