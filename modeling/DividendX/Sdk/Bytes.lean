import DividendX.Sdk.Arithmetic

/-!
# The client's byte strings

`bytes.ts` of the transaction SDK: words of fixed width, the concatenation of parts and big integers
as little-endian bytes. A JavaScript number that a check lets pass is an integer.
-/

namespace DividendX

open LittleEndian

namespace Sdk

/-- `u16Le`. -/
def u16Le (value : Int) : Thrown (List UInt8) := do
  invariant (0 ≤ value ∧ value ≤ 0xffff) .invalidAmount "value must be a u16"
  return fixed 2 value.toNat

/-- `u32Le`. -/
def u32Le (value : Int) : Thrown (List UInt8) := do
  invariant (0 ≤ value ∧ value ≤ 0xffff_ffff) .invalidAmount "value must be a u32"
  return fixed 4 value.toNat

/-- `concatBytes`. -/
def concatBytes (parts : List (List UInt8)) : List UInt8 := parts.flatten

/-- `bytesToBigIntLe`, from the highest byte down. -/
def bytesToBigIntLe (bytes : List UInt8) : Nat :=
  bytes.reverse.foldl (fun value byte => (value <<< 8) ||| byte.toNat) 0

/-! ## What they say -/

theorem u16Le_eq_ok {value : Int} {bytes : List UInt8} :
    u16Le value = .ok bytes ↔ (0 ≤ value ∧ value ≤ 0xffff) ∧ fixed 2 value.toNat = bytes := by
  simp only [u16Le, Result.bind_eq_ok, Result.exists_unit, invariant_eq_ok, Result.pure_eq_ok]

theorem u32Le_eq_ok {value : Int} {bytes : List UInt8} :
    u32Le value = .ok bytes ↔ (0 ≤ value ∧ value ≤ 0xffff_ffff) ∧ fixed 4 value.toNat = bytes := by
  simp only [u32Le, Result.bind_eq_ok, Result.exists_unit, invariant_eq_ok, Result.pure_eq_ok]

/-- Both sides read bytes alike. -/
theorem bytesToBigIntLe_eq (bytes : List UInt8) : bytesToBigIntLe bytes = ofBytes bytes := by
  rw [bytesToBigIntLe, List.foldl_reverse]
  induction bytes with
  | nil => rfl
  | cons byte bytes ih =>
    rw [List.foldr_cons, ih, ofBytes, Nat.shiftLeft_eq, Nat.mul_comm _ (2 ^ 8),
      ← Nat.two_pow_add_eq_or_of_lt byte.toNat_lt, Nat.add_comm]

end Sdk

end DividendX
