import Mathlib.Data.Nat.Digits.Lemmas
import Mathlib.Tactic.NormNum

/-!
# Little-endian byte strings

Two encodings of naturals as bytes, least significant byte first.

* `toBytes` is the **minimal** encoding of a big integer: no leading zero byte, except that zero
  itself is the one byte `0`. `ofBytes` reads any byte string back, and the two lemmas
  everything else rests on are the round trip `ofBytes_toBytes` and the size law
  `length_toBytes_le_iff`: a number fits in `k` bytes iff it is below `256 ^ k`.
* `fixed w` is the **fixed-width** encoding of a machine word of `w` bytes.

`toBytes` recurses on fuel, so that it evaluates in the kernel; `bytesAux_eq_digits` is the link
to Mathlib's digits, from which the laws are taken.
-/

namespace LittleEndian

/-- The number a byte string stands for. -/
def ofBytes : List UInt8 → Nat
  | [] => 0
  | b :: bs => b.toNat + 256 * ofBytes bs

/-- At most `fuel` base-256 digits of `n`, none of them a leading zero. -/
def bytesAux : Nat → Nat → List UInt8
  | 0, _ => []
  | fuel + 1, n => if n = 0 then [] else UInt8.ofNat n :: bytesAux fuel (n / 256)

/-- The minimal encoding; zero is one zero byte. -/
def toBytes (n : Nat) : List UInt8 :=
  if n = 0 then [0] else bytesAux (n.log2 + 1) n

/-- The encoding of `n` in exactly `w` bytes, higher bytes cut off. -/
def fixed : Nat → Nat → List UInt8
  | 0, _ => []
  | w + 1, n => UInt8.ofNat n :: fixed w (n / 256)

@[simp] theorem length_fixed (w n : Nat) : (fixed w n).length = w := by
  induction w generalizing n with
  | zero => rfl
  | succ w ih => simp [fixed, ih]

/-! ## The minimal encoding through Mathlib's digits -/

theorem ofBytes_eq_ofDigits (bs : List UInt8) :
    ofBytes bs = Nat.ofDigits 256 (bs.map UInt8.toNat) := by
  induction bs with
  | nil => rfl
  | cons b bs ih => simp [ofBytes, Nat.ofDigits_cons, ih]

theorem bytesAux_eq_digits {fuel n : Nat} (h : n < 256 ^ fuel) :
    bytesAux fuel n = (Nat.digits 256 n).map UInt8.ofNat := by
  induction fuel generalizing n with
  | zero =>
    obtain rfl : n = 0 := by simpa using h
    rfl
  | succ fuel ih =>
    rw [bytesAux]
    split
    · rename_i hn
      simp [hn]
    · rename_i hn
      have hdiv : n / 256 < 256 ^ fuel := by
        rw [pow_succ] at h
        omega
      rw [Nat.digits_def' (by norm_num) (Nat.pos_of_ne_zero hn), List.map_cons, ih hdiv]
      -- the head digit is reduced modulo 256 on both sides
      congr 1
      exact UInt8.toNat_inj.mp (by simp [UInt8.toNat_ofNat'])

theorem fuel_suffices (n : Nat) : n < 256 ^ (n.log2 + 1) :=
  calc n < 2 ^ (n.log2 + 1) := Nat.lt_log2_self
    _ ≤ 256 ^ (n.log2 + 1) := Nat.pow_le_pow_left (by norm_num) _

theorem toBytes_of_pos {n : Nat} (h : n ≠ 0) :
    toBytes n = (Nat.digits 256 n).map UInt8.ofNat := by
  rw [toBytes, if_neg h, bytesAux_eq_digits (fuel_suffices n)]

/-- Reading the minimal encoding gives the number back. -/
@[simp] theorem ofBytes_toBytes (n : Nat) : ofBytes (toBytes n) = n := by
  by_cases h : n = 0
  · subst h
    rfl
  · rw [ofBytes_eq_ofDigits, toBytes_of_pos h, List.map_map]
    have hdig : (Nat.digits 256 n).map (UInt8.toNat ∘ UInt8.ofNat) = Nat.digits 256 n := by
      refine (List.map_congr_left fun d hd => ?_).trans (List.map_id _)
      have hlt : d < 256 := Nat.digits_lt_base (by norm_num) hd
      exact UInt8.toNat_ofNat_of_lt (by simpa [UInt8.size] using hlt)
    rw [hdig, Nat.ofDigits_digits]

/-- **Size law**: the minimal encoding has at most `k` bytes iff the number is below `256 ^ k`. -/
theorem length_toBytes_le_iff {n k : Nat} (hk : 0 < k) :
    (toBytes n).length ≤ k ↔ n < 256 ^ k := by
  by_cases h : n = 0
  · subst h
    simp only [toBytes, if_true, List.length_singleton]
    exact iff_of_true hk (by positivity)
  · rw [toBytes_of_pos h, List.length_map]
    exact Nat.digits_length_le_iff (by norm_num) n

theorem toBytes_ne_nil (n : Nat) : toBytes n ≠ [] := by
  by_cases h : n = 0
  · simp [toBytes, h]
  · rw [toBytes_of_pos h]
    simpa using Nat.digits_ne_nil_iff_ne_zero.mpr h

/-! ## The fixed-width encoding -/

theorem ofBytes_fixed (w n : Nat) : ofBytes (fixed w n) = n % 256 ^ w := by
  induction w generalizing n with
  | zero => simp [fixed, ofBytes, Nat.mod_one]
  | succ w ih =>
    rw [fixed, ofBytes, ih, UInt8.toNat_ofNat', pow_succ' 256 w, Nat.mod_mul]

/-- Words of the width are told apart. -/
theorem fixed_injective {w n m : Nat} (hn : n < 256 ^ w) (hm : m < 256 ^ w)
    (h : fixed w n = fixed w m) : n = m := by
  have hmod := congrArg ofBytes h
  rwa [ofBytes_fixed, ofBytes_fixed, Nat.mod_eq_of_lt hn, Nat.mod_eq_of_lt hm] at hmod

/-! ## Length prefixes -/

/-- A byte string behind its length. -/
def delimited (w : Nat) (bytes : List UInt8) : List UInt8 := fixed w bytes.length ++ bytes

/-- **Where a delimited part ends is in the part itself.** -/
theorem delimited_append_injective {w : Nat} {part part' rest rest' : List UInt8}
    (h : part.length < 256 ^ w)
    (h' : part'.length < 256 ^ w) (heq : delimited w part ++ rest = delimited w part' ++ rest') :
    part = part' ∧ rest = rest' := by
  rw [delimited, delimited, List.append_assoc, List.append_assoc] at heq
  obtain ⟨hlength, htail⟩ := List.append_inj heq (by rw [length_fixed, length_fixed])
  exact List.append_inj htail (fixed_injective h h' hlength)

end LittleEndian
