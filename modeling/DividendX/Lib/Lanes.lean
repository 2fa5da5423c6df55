import Mathlib.Data.Nat.Bitwise
import Mathlib.Tactic.Ring

/-!
# Words in lanes

Many 32-bit words in one natural number, each in a lane of 64 bits. Bitwise operations act on all
lanes at once; sums, shifts and rotations do after the upper half of every lane is cleared. The
kernel computes with large numbers fast, so what is computed for one word can be computed for a
thousand in the same time.
-/

namespace Lanes

/-- Numbers below `2 ^ 64`, one to a lane, the first one lowest. -/
def pack : List Nat → Nat
  | [] => 0
  | w :: ws => 2 ^ 64 * pack ws + w

/-- A one in each of `n` lanes. -/
def ones : Nat → Nat
  | 0 => 0
  | n + 1 => 2 ^ 64 * ones n + 1

/-- The lower half of each of `n` lanes. -/
def low (n : Nat) : Nat := 0xffffffff * ones n

/-- The numbers in `n` lanes. -/
def unpack : Nat → Nat → List Nat
  | 0, _ => []
  | n + 1, x => x % 2 ^ 64 :: unpack n (x / 2 ^ 64)

/-! ## Two lanes -/

/-- The lowest lane is met by itself. -/
theorem and_lane {a b : Nat} (ha : a < 2 ^ 64) (hb : b < 2 ^ 64) (x y : Nat) :
    (2 ^ 64 * x + a) &&& (2 ^ 64 * y + b) = 2 ^ 64 * (x &&& y) + (a &&& b) := by
  apply Nat.eq_of_testBit_eq
  intro i
  rw [Nat.testBit_and, Nat.testBit_two_pow_mul_add _ ha, Nat.testBit_two_pow_mul_add _ hb,
    Nat.testBit_two_pow_mul_add _ (Nat.and_lt_two_pow a hb)]
  split <;> simp

/-- And added by itself. -/
theorem xor_lane {a b : Nat} (ha : a < 2 ^ 64) (hb : b < 2 ^ 64) (x y : Nat) :
    (2 ^ 64 * x + a) ^^^ (2 ^ 64 * y + b) = 2 ^ 64 * (x ^^^ y) + (a ^^^ b) := by
  apply Nat.eq_of_testBit_eq
  intro i
  rw [Nat.testBit_xor, Nat.testBit_two_pow_mul_add _ ha, Nat.testBit_two_pow_mul_add _ hb,
    Nat.testBit_two_pow_mul_add _ (Nat.xor_lt_two_pow ha hb)]
  split <;> simp

/-- What a shift brings in from the next lane is cleared with the upper half. -/
theorem shift_lane {a b n : Nat} (ha : a < 2 ^ 64) (hb : b < 2 ^ 32) (hn : n ≤ 32) (x y : Nat) :
    ((2 ^ 64 * x + a) >>> n) &&& (2 ^ 64 * y + b) =
      2 ^ 64 * ((x >>> n) &&& y) + ((a >>> n) &&& b) := by
  have hb' : b < 2 ^ 64 := Nat.lt_of_lt_of_le hb (Nat.pow_le_pow_right (by omega) (by omega))
  apply Nat.eq_of_testBit_eq
  intro i
  rw [Nat.testBit_and, Nat.testBit_shiftRight, Nat.testBit_two_pow_mul_add _ ha,
    Nat.testBit_two_pow_mul_add _ hb', Nat.testBit_two_pow_mul_add _ (Nat.and_lt_two_pow _ hb')]
  by_cases hlow : i < 32
  · -- the bit comes from the same lane
    have h₁ : n + i < 64 := by omega
    have h₂ : i < 64 := by omega
    simp [h₁, h₂]
  · by_cases hlane : i < 64
    · -- the upper half
      have hbit : b.testBit i = false :=
        Nat.testBit_lt_two_pow (Nat.lt_of_lt_of_le hb (Nat.pow_le_pow_right (by omega) (by omega)))
      simp [hlane, hbit]
    · have h₁ : ¬ n + i < 64 := by omega
      have h₂ : n + i - 64 = n + (i - 64) := by omega
      simp [hlane, h₁, h₂]

/-! ## All lanes -/

variable {α : Type} {f g : α → Nat}

theorem pack_const (l : List α) (k : Nat) : pack (l.map fun _ => k) = k * ones l.length := by
  induction l with
  | nil => simp [pack, ones]
  | cons a l ih =>
    simp only [List.map_cons, pack, List.length_cons, ones, ih]
    ring

/-- Packed lanes add. -/
theorem pack_add (l : List α) :
    pack (l.map fun a => f a + g a) = pack (l.map f) + pack (l.map g) := by
  induction l with
  | nil => rfl
  | cons a l ih =>
    simp only [List.map_cons, pack, ih]
    ring

theorem pack_mul (l : List α) (k : Nat) :
    pack (l.map fun a => f a * k) = pack (l.map f) * k := by
  induction l with
  | nil => simp [pack]
  | cons a l ih =>
    simp only [List.map_cons, pack, ih]
    ring

theorem pack_and (hf : ∀ a, f a < 2 ^ 64) (hg : ∀ a, g a < 2 ^ 64) (l : List α) :
    pack (l.map fun a => f a &&& g a) = pack (l.map f) &&& pack (l.map g) := by
  induction l with
  | nil => simp [pack]
  | cons a l ih => simp only [List.map_cons, pack, and_lane (hf a) (hg a), ih]

theorem pack_xor (hf : ∀ a, f a < 2 ^ 64) (hg : ∀ a, g a < 2 ^ 64) (l : List α) :
    pack (l.map fun a => f a ^^^ g a) = pack (l.map f) ^^^ pack (l.map g) := by
  induction l with
  | nil => simp [pack]
  | cons a l ih => simp only [List.map_cons, pack, xor_lane (hf a) (hg a), ih]

/-- A shift within the lanes. -/
theorem pack_shift (hf : ∀ a, f a < 2 ^ 64) {n : Nat} (hn : n ≤ 32) (l : List α) :
    pack (l.map fun a => (f a >>> n) &&& 0xffffffff) = (pack (l.map f) >>> n) &&& low l.length := by
  induction l with
  | nil => simp [pack, low, ones]
  | cons a l ih =>
    have hlow : low (a :: l).length = 2 ^ 64 * low l.length + 0xffffffff := by
      simp only [low, List.length_cons, ones]
      ring
    simp only [List.map_cons, pack]
    rw [hlow, shift_lane (hf a) (by decide) hn, ih]

/-- What was packed comes out. -/
theorem unpack_pack (hf : ∀ a, f a < 2 ^ 64) (l : List α) :
    unpack l.length (pack (l.map f)) = l.map f := by
  induction l with
  | nil => rfl
  | cons a l ih =>
    have hmod : (2 ^ 64 * pack (l.map f) + f a) % 2 ^ 64 = f a := by
      rw [Nat.mul_add_mod, Nat.mod_eq_of_lt (hf a)]
    have hdiv : (2 ^ 64 * pack (l.map f) + f a) / 2 ^ 64 = pack (l.map f) := by
      rw [Nat.mul_add_div (by decide), Nat.div_eq_of_lt (hf a), Nat.add_zero]
    simp only [List.map_cons, List.length_cons, unpack, pack, hmod, hdiv, ih]

/-! ## Distinct numbers -/

/-- The numbers differ modulo `m` from each other and from those seen, which are kept as bits. -/
def distinct (m : Nat) : Nat → List Nat → Bool
  | _, [] => true
  | seen, x :: xs => !seen.testBit (x % m) && distinct m (seen ||| 2 ^ (x % m)) xs

/-- The test finds no value twice, by a bit for each. -/
theorem nodup_of_distinct {m seen : Nat} {xs : List Nat} (h : distinct m seen xs = true) :
    xs.Nodup ∧ ∀ x ∈ xs, seen.testBit (x % m) = false := by
  induction xs generalizing seen with
  | nil => simp
  | cons x xs ih =>
    simp only [distinct, Bool.and_eq_true, Bool.not_eq_true'] at h
    obtain ⟨hnodup, hunseen⟩ := ih h.2
    have hbits : ∀ y ∈ xs, seen.testBit (y % m) = false ∧ y % m ≠ x % m := by
      intro y hy
      have hbit := hunseen y hy
      rw [Nat.testBit_or, Nat.testBit_two_pow, Bool.or_eq_false_iff,
        decide_eq_false_iff_not] at hbit
      exact ⟨hbit.1, fun heq => hbit.2 heq.symm⟩
    refine ⟨List.nodup_cons.mpr ⟨fun hx => (hbits x hx).2 rfl, hnodup⟩, fun y hy => ?_⟩
    rcases List.mem_cons.mp hy with rfl | hy
    · exact h.1
    · exact (hbits y hy).1

end Lanes
