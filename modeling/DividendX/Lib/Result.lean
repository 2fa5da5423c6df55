import Mathlib.Algebra.Group.Nat.Defs
import Mathlib.Tactic.Common

/-!
# Fallible code and checked machine words

Two things every handler of a fail-fast program is made of.

* **Checks in sequence.** `require p e` stops with `e` unless `p` holds, `okOr` turns a
  missing value into an error. The inversion lemmas read a whole `do` block backwards: a run
  that ended well passed every check (`bind_eq_ok`), a run that stopped did so at one check
  after passing all earlier ones (`bind_eq_error`).
* **Checked words.** `checkedAdd` and `checkedSub` on `UInt8` and `UInt64` give no value
  instead of wrapping; each has one lemma that says so through `toNat`, so that later proofs
  are linear arithmetic over naturals.
-/

namespace Result

variable {ε α β : Type}

/-! ## Checks -/

/-- Go on when `p` holds, stop with `e` otherwise. -/
def require (p : Prop) [Decidable p] (e : ε) : Except ε Unit :=
  if p then .ok () else .error e

/-- The value, or the error `e` when there is none. -/
def okOr (o : Option α) (e : ε) : Except ε α :=
  match o with
  | some a => .ok a
  | none => .error e

/-- Make a check only when `p` holds. -/
def checkWhen (p : Prop) [Decidable p] (check : Except ε Unit) : Except ε Unit :=
  if p then check else .ok ()

@[simp] theorem require_eq_ok {p : Prop} [Decidable p] {e : ε} {u : Unit} :
    require p e = .ok u ↔ p := by
  rw [require]
  split <;> simp_all

@[simp] theorem require_eq_error {p : Prop} [Decidable p] {e e' : ε} :
    require p e = .error e' ↔ ¬ p ∧ e = e' := by
  rw [require]
  split <;> simp_all

@[simp] theorem checkWhen_eq_ok {p : Prop} [Decidable p] {check : Except ε Unit} {u : Unit} :
    checkWhen p check = .ok u ↔ (p → check = .ok ()) := by
  rw [checkWhen]
  split <;> simp_all

@[simp] theorem okOr_eq_ok {o : Option α} {e : ε} {a : α} : okOr o e = .ok a ↔ o = some a := by
  cases o <;> simp [okOr]

@[simp] theorem okOr_eq_error {o : Option α} {e e' : ε} :
    okOr o e = .error e' ↔ o = none ∧ e = e' := by
  cases o <;> simp [okOr]

/-! ## Sequencing -/

theorem bind_eq_ok {x : Except ε α} {f : α → Except ε β} {b : β} :
    (x >>= f) = .ok b ↔ ∃ a, x = .ok a ∧ f a = .ok b := by
  cases x <;> simp [bind, Except.bind]

theorem bind_eq_error {x : Except ε α} {f : α → Except ε β} {e : ε} :
    (x >>= f) = .error e ↔ x = .error e ∨ ∃ a, x = .ok a ∧ f a = .error e := by
  cases x <;> simp [bind, Except.bind]

@[simp] theorem pure_eq_ok {a b : α} : (pure a : Except ε α) = .ok b ↔ a = b := by
  simp [pure, Except.pure]

@[simp] theorem pure_ne_error {a : α} {e : ε} : ¬ (pure a : Except ε α) = .error e := by
  simp [pure, Except.pure]

theorem toOption_eq_some {x : Except ε α} {a : α} : x.toOption = some a ↔ x = .ok a := by
  cases x <;> simp [Except.toOption]

/-- A fold stops at one of its turns. -/
theorem foldlM_eq_error {f : β → α → Except ε β} {l : List α} {b : β} {e : ε}
    (h : l.foldlM f b = .error e) : ∃ b' a, f b' a = .error e := by
  induction l generalizing b with
  | nil => exact absurd h pure_ne_error
  | cons a l ih =>
    rw [List.foldlM_cons, bind_eq_error] at h
    rcases h with hfirst | ⟨b', -, hrest⟩
    · exact ⟨b, a, hfirst⟩
    · exact ih hrest

/-- A fold that ends well passed at every element. -/
theorem foldlM_ok_of_mem {f : β → α → Except ε β} {l : List α} {b c : β} {a : α}
    (h : l.foldlM f b = .ok c) (ha : a ∈ l) : ∃ b' c', f b' a = .ok c' := by
  induction l generalizing b with
  | nil => exact absurd ha List.not_mem_nil
  | cons x l ih =>
    rw [List.foldlM_cons, bind_eq_ok] at h
    obtain ⟨b₁, hfirst, hrest⟩ := h
    rcases List.mem_cons.mp ha with rfl | hmem
    · exact ⟨b, b₁, hfirst⟩
    · exact ih hrest hmem

/-- **The rule of a loop.** What holds before the first turn and is kept by a turn that ends well,
said of the elements met so far, holds of the whole list after a loop that ends well. -/
theorem foldlM_prefix {f : β → α → Except ε β} {l : List α} {b c : β} {P : List α → β → Prop}
    (hfirst : P [] b) (hturn : ∀ met a b b', P met b → f b a = .ok b' → P (met ++ [a]) b')
    (h : l.foldlM f b = .ok c) : P l c := by
  have hrest : ∀ met b, P met b → l.foldlM f b = .ok c → P (met ++ l) c := by
    clear h hfirst
    induction l with
    | nil =>
      intro met b hmet h
      obtain rfl := pure_eq_ok.mp h
      rwa [List.append_nil]
    | cons a l ih =>
      intro met b hmet h
      rw [List.foldlM_cons, bind_eq_ok] at h
      obtain ⟨b', hturned, hlater⟩ := h
      have hall := ih (met ++ [a]) b' (hturn met a b b' hmet hturned) hlater
      rwa [List.append_assoc] at hall
  exact hrest [] b hfirst h

/-- A loop of checks passes when every turn does. -/
theorem forM_eq_ok {f : α → Except ε Unit} {l : List α} {u : Unit} :
    l.forM f = .ok u ↔ ∀ a ∈ l, f a = .ok () := by
  induction l with
  | nil => exact iff_of_true rfl fun a ha => absurd ha List.not_mem_nil
  | cons a l ih =>
    change (f a >>= fun _ => l.forM f) = .ok u ↔ _
    rw [bind_eq_ok, List.forall_mem_cons]
    simp only [ih]
    exact ⟨fun ⟨_, hfirst, hrest⟩ => ⟨hfirst, hrest⟩, fun ⟨hfirst, hrest⟩ => ⟨_, hfirst, hrest⟩⟩

/-- The value a check hands on carries nothing. -/
theorem exists_unit {p : Unit → Prop} : (∃ u, p u) ↔ p () :=
  ⟨fun ⟨_, h⟩ => h, fun h => ⟨(), h⟩⟩

/-- Either a result or an error. -/
theorem ok_or_error (x : Except ε α) : (∃ a, x = .ok a) ∨ ∃ e, x = .error e := by
  cases x with
  | ok a => exact .inl ⟨a, rfl⟩
  | error e => exact .inr ⟨e, rfl⟩

/-- A computation that never stops with an error ends well. -/
theorem exists_ok_of_no_error {x : Except ε α} (h : ∀ e, x ≠ .error e) : ∃ a, x = .ok a := by
  rcases ok_or_error x with hok | ⟨e, he⟩
  · exact hok
  · exact absurd he (h e)

end Result

/-! ## Checked machine words -/

namespace Checked

/-- `u64::checked_add`. -/
def addU64 (a b : UInt64) : Option UInt64 :=
  if a.toNat + b.toNat < 2 ^ 64 then some (a + b) else none

/-- `u64::checked_sub`. -/
def subU64 (a b : UInt64) : Option UInt64 :=
  if b.toNat ≤ a.toNat then some (a - b) else none

/-- `u8::checked_add`. -/
def addU8 (a b : UInt8) : Option UInt8 :=
  if a.toNat + b.toNat < 2 ^ 8 then some (a + b) else none

/-- `u8::checked_sub`. -/
def subU8 (a b : UInt8) : Option UInt8 :=
  if b.toNat ≤ a.toNat then some (a - b) else none

theorem toNat_add_of_lt {a b : UInt64} (h : a.toNat + b.toNat < 2 ^ 64) :
    (a + b).toNat = a.toNat + b.toNat := by
  rw [UInt64.toNat_add]
  exact Nat.mod_eq_of_lt h

theorem toNat_sub_of_le {a b : UInt64} (h : b.toNat ≤ a.toNat) :
    (a - b).toNat = a.toNat - b.toNat :=
  UInt64.toNat_sub_of_le _ _ (UInt64.le_iff_toNat_le.mpr h)

theorem toNat_addU8_of_lt {a b : UInt8} (h : a.toNat + b.toNat < 2 ^ 8) :
    (a + b).toNat = a.toNat + b.toNat := by
  rw [UInt8.toNat_add]
  exact Nat.mod_eq_of_lt h

theorem toNat_subU8_of_le {a b : UInt8} (h : b.toNat ≤ a.toNat) :
    (a - b).toNat = a.toNat - b.toNat :=
  UInt8.toNat_sub_of_le _ _ (UInt8.le_iff_toNat_le.mpr h)

theorem addU64_eq_some {a b c : UInt64} :
    addU64 a b = some c ↔ c.toNat = a.toNat + b.toNat := by
  rw [addU64]
  have hc := c.toNat_lt
  split
  · rename_i h
    rw [Option.some.injEq, ← UInt64.toNat_inj, toNat_add_of_lt h, eq_comm]
  · simp only [reduceCtorEq, false_iff]
    omega

theorem addU64_eq_none {a b : UInt64} : addU64 a b = none ↔ 2 ^ 64 ≤ a.toNat + b.toNat := by
  rw [addU64]
  split <;> simp_all

theorem subU64_eq_some {a b c : UInt64} :
    subU64 a b = some c ↔ a.toNat = c.toNat + b.toNat := by
  rw [subU64]
  split
  · rename_i h
    rw [Option.some.injEq, ← UInt64.toNat_inj, toNat_sub_of_le h]
    omega
  · simp only [reduceCtorEq, false_iff]
    omega

theorem addU8_eq_some {a b c : UInt8} :
    addU8 a b = some c ↔ c.toNat = a.toNat + b.toNat := by
  rw [addU8]
  have hc := c.toNat_lt
  split
  · rename_i h
    rw [Option.some.injEq, ← UInt8.toNat_inj, toNat_addU8_of_lt h, eq_comm]
  · simp only [reduceCtorEq, false_iff]
    omega

theorem subU8_eq_some {a b c : UInt8} :
    subU8 a b = some c ↔ a.toNat = c.toNat + b.toNat := by
  rw [subU8]
  split
  · rename_i h
    rw [Option.some.injEq, ← UInt8.toNat_inj, toNat_subU8_of_le h]
    omega
  · simp only [reduceCtorEq, false_iff]
    omega

end Checked
