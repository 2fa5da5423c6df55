import DividendX.Bootstrap.Transactions
import DividendX.Lib.LittleEndian
import DividendX.Lib.Radix
import DividendX.Lib.Result
import DividendX.Lib.Utf16
import Mathlib.Data.List.GetD

/-!
# Base58

The encoder of signatures, which `packages/hosted-devnet/src/chain.ts` and the bootstrap each have a
copy of, and `base58Bytes` of `packages/hosted-gateway/src/server.mjs`. The encoder carries over a
list of digits in place and prints leading zeros apart; the decoder goes through one big integer.
Both convert a numeral with its leading zeros to another radix.
-/

namespace DividendX

open LittleEndian

namespace Devnet

/-- `BASE58`. -/
def BASE58 : List Char := "123456789ABCDEFGHJKLMNPQRSTUVWXYZabcdefghijkmnopqrstuvwxyz".toList

/-- `base58Encode`. -/
def base58Encode (input : List UInt8) : String :=
  if input = [] then ""
  else
    let digits := input.foldl (fun digits byte => Bootstrap.addByte digits byte.toNat) [0]
    let leading := (input.dropLast.takeWhile (· = 0)).length
    String.ofList (List.replicate leading '1' ++ digits.reverse.map (BASE58.getD · '1'))

end Devnet

namespace Gateway

/-- `BASE58_ALPHABET`. -/
def BASE58_ALPHABET : List Char :=
  "123456789ABCDEFGHJKLMNPQRSTUVWXYZabcdefghijkmnopqrstuvwxyz".toList

/-- `number * 58n + BigInt(digit)`, for the place of a character in the alphabet. -/
def addCharacter (number : Nat) (character : Char) : Except String Nat := do
  let digit ← Result.okOr (BASE58_ALPHABET.idxOf? character) "invalid genesis hash"
  return number * 58 + digit

/-- `base58Bytes`. A surrogate on its own is in no alphabet, and nor is what it reads as here. -/
def base58Bytes (value : List UInt16) : Except String (List UInt8) := do
  Result.require (32 ≤ value.length ∧ value.length ≤ 44) "invalid genesis hash"
  let number ← (Utf16.scalars value).foldlM addCharacter 0
  let leading := (value.takeWhile (· = 0x31)).length
  let bytes : List UInt8 := List.replicate leading 0 ++ (bytesAux (number.log2 + 1) number).reverse
  Result.require (bytes.length = 32) "invalid genesis hash"
  return bytes

/-! ## The encoder -/

/-- The character of a digit. -/
def character (digit : Nat) : Char := Bootstrap.BASE58.getD digit '1'

theorem character_zero : character 0 = '1' := by decide

/-- What is carried spills into its digits. -/
theorem spill_eq {bound carry : Nat} (h : carry ≤ bound) :
    Bootstrap.spill bound carry = Nat.digits 58 carry := by
  induction bound generalizing carry with
  | zero =>
    obtain rfl := Nat.le_zero.mp h
    rfl
  | succ bound ih =>
    rw [Bootstrap.spill]
    split
    · rename_i hzero
      rw [hzero, Nat.digits_zero]
    · rename_i hpos
      rw [Nat.digits_def' (by decide) (Nat.pos_of_ne_zero hpos), ih (by omega)]

/-- The carry loop is multiplication by 256 and addition. -/
theorem addByte_digits (n carry : Nat) :
    Bootstrap.addByte (Nat.digits 58 n) carry = Nat.digits 58 (n * 256 + carry) := by
  induction n using Nat.strong_induction_on generalizing carry with
  | _ n ih =>
    rcases Nat.eq_zero_or_pos n with rfl | hn
    · rw [Nat.digits_zero, Bootstrap.addByte, spill_eq (Nat.le_refl carry),
        Nat.zero_mul, Nat.zero_add]
    · have hdigit : (carry + n % 58 * 256) % 58 = (n * 256 + carry) % 58 := by omega
      have hrest : n / 58 * 256 + (carry + n % 58 * 256) / 58 = (n * 256 + carry) / 58 := by omega
      have hdigits : Nat.digits 58 (n * 256 + carry) = (n * 256 + carry) % 58 :: Nat.digits 58
          ((n * 256 + carry) / 58) :=
        Nat.digits_def' (by decide) (by omega)
      rw [Nat.digits_def' (by decide) hn, Bootstrap.addByte,
        ih (n / 58) (Nat.div_lt_self hn (by decide)), hdigit, hrest, hdigits]

/-- The digits before the first carry that is not zero: one zero. -/
def digitsFrom (n : Nat) : List Nat := if n = 0 then [0] else Nat.digits 58 n

/-- One more byte, in base 58. -/
theorem addByte_digitsFrom (n carry : Nat) :
    Bootstrap.addByte (digitsFrom n) carry = digitsFrom (n * 256 + carry) := by
  by_cases hn : n = 0
  · subst hn
    by_cases hcarry : carry = 0
    · subst hcarry
      rfl
    · have hdigits : Nat.digits 58 carry = carry % 58 :: Nat.digits 58 (carry / 58) :=
        Nat.digits_def' (by decide) (Nat.pos_of_ne_zero hcarry)
      rw [digitsFrom, if_pos rfl, digitsFrom, Nat.zero_mul, Nat.zero_add,
        if_neg hcarry, Bootstrap.addByte,
        Bootstrap.addByte, spill_eq (Nat.le_refl _), Nat.zero_mul, Nat.add_zero, hdigits]
  · rw [digitsFrom, if_neg hn, digitsFrom, if_neg (by omega), addByte_digits]

/-- All bytes, in base 58. -/
theorem foldl_addByte (input : List UInt8) (n : Nat) :
    input.foldl (fun digits byte => Bootstrap.addByte digits byte.toNat) (digitsFrom n)
      = digitsFrom ((input.map UInt8.toNat).foldl (fun n d => n * 256 + d) n) := by
  induction input generalizing n with
  | nil => rfl
  | cons byte input ih =>
    rw [List.foldl_cons, addByte_digitsFrom, ih, List.map_cons, List.foldl_cons]

theorem toNat_eq_zero (byte : UInt8) : byte.toNat = 0 ↔ byte = 0 := UInt8.toNat_inj (b := 0)

/-- Only zeros make zero. -/
theorem number_eq_zero (input : List UInt8) :
    Radix.number 256 (input.map UInt8.toNat) = 0 ↔ ∀ byte ∈ input, byte = 0 := by
  rw [Radix.number_eq_zero_iff (by decide), List.forall_mem_map]
  exact forall₂_congr fun byte _ => toNat_eq_zero byte

/-- The zeros in front are counted as bytes. -/
theorem zeros_map (input : List UInt8) :
    Radix.zeros (input.map UInt8.toNat) = (input.takeWhile (· = 0)).length := by
  have hzero : ((fun d : Nat => decide (d = 0)) ∘ UInt8.toNat) = fun byte : UInt8 =>
      decide (byte = 0) := by
    funext byte
    simp only [Function.comp_apply, toNat_eq_zero]
  rw [Radix.zeros, List.takeWhile_map, List.length_map, hzero]

/-- The zeros before the last byte are all the leading ones, or all bytes are zeros. -/
theorem takeWhile_dropLast {input : List UInt8} (h : ∃ byte ∈ input, byte ≠ 0) :
    input.dropLast.takeWhile (· = 0) = input.takeWhile (· = 0) := by
  obtain ⟨byte, hmem, hne⟩ := h
  have hnil : input ≠ [] := List.ne_nil_of_mem hmem
  have hsplit := List.dropLast_append_getLast hnil
  generalize input.dropLast = init at hsplit
  generalize input.getLast hnil = last at hsplit
  subst hsplit
  rw [List.takeWhile_append]
  split
  · rename_i hall
    have hzeros := List.takeWhile_prefix (l := init) (fun byte : UInt8 => decide (byte = 0))
    have hinit := hzeros.eq_of_length hall
    -- every byte before the last is zero, so the last one is not
    have hlast : last ≠ 0 := by
      rintro rfl
      refine hne ?_
      rcases List.mem_append.mp hmem with hbyte | hbyte
      · rw [← hinit] at hbyte
        simpa using List.mem_takeWhile_imp hbyte
      · exact List.mem_singleton.mp hbyte
    simp only [hinit, List.takeWhile_cons, decide_eq_true_eq, if_neg hlast, List.append_nil]
  · rfl

/-- **The encoder** converts a numeral of bytes to one of base 58. -/
theorem base58Encode_eq (input : List UInt8) :
    Bootstrap.base58Encode input
      = String.ofList ((Radix.convert 256 58 (input.map UInt8.toNat)).map character) := by
  by_cases hnil : input = []
  · subst hnil
    rfl
  rw [Bootstrap.base58Encode, if_neg hnil]
  have hdigits := foldl_addByte input 0
  rw [← Radix.number_eq_foldl] at hdigits
  change List.foldl _ [0] _ = _ at hdigits
  rw [hdigits, Radix.convert, Radix.numeral, List.map_append, List.map_reverse,
    List.map_replicate, zeros_map, character_zero]
  by_cases hzero : Radix.number 256 (input.map UInt8.toNat) = 0
  · -- the single digit zero is the last of as many zeros as there are bytes
    have hall := (number_eq_zero input).mp hzero
    have hinit : input.dropLast.takeWhile (· = 0) = input.dropLast :=
      List.takeWhile_eq_self_iff.mpr fun byte hbyte =>
        decide_eq_true (hall byte (List.mem_of_mem_dropLast hbyte))
    have hinput : input.takeWhile (· = 0) = input :=
      List.takeWhile_eq_self_iff.mpr fun byte hbyte => decide_eq_true (hall byte hbyte)
    have hlength : input.length = input.length - 1 + 1 := by
      have hpos := List.length_pos_iff.mpr hnil
      omega
    have hone : (digitsFrom 0).reverse.map character = ['1'] := by decide
    change String.ofList (_ ++ (digitsFrom _).reverse.map character) = _
    rw [hzero, hone, hinit, hinput, List.length_dropLast, Nat.digits_zero,
      List.map_nil, List.reverse_nil, List.append_nil, ← List.replicate_succ', ← hlength]
  · have hsome : ∃ byte ∈ input, byte ≠ 0 := by
      by_contra hnone
      push Not at hnone
      exact hzero ((number_eq_zero input).mpr hnone)
    change String.ofList (_ ++ (digitsFrom _).reverse.map character) = _
    rw [takeWhile_dropLast hsome, digitsFrom, if_neg hzero, List.map_reverse]

/-- The two copies are one function. -/
theorem base58Encode_copy : Devnet.base58Encode = Bootstrap.base58Encode := rfl

/-! ## The decoder -/

/-- The code unit of a digit. -/
def unit (digit : Nat) : UInt16 := .ofNat (character digit).toNat

theorem ofChar_character : ∀ digit < 58, Utf16.ofChar (character digit) = [unit digit] := by decide

theorem unit_eq_one : ∀ digit < 58, unit digit = 0x31 ↔ digit = 0 := by decide

theorem character_ne_replacement : ∀ digit < 58, character digit ≠ '\ufffd' := by decide

/-- A digit is found again by its character. -/
theorem idxOf_character : ∀ digit < 58,
    BASE58_ALPHABET.idxOf? (character digit) = some digit := by decide

/-- A character has one place in the alphabet. -/
theorem idxOf_eq_some {c : Char} {digit : Nat} :
    BASE58_ALPHABET.idxOf? c = some digit ↔ digit < 58 ∧ character digit = c := by
  constructor
  · intro h
    obtain ⟨hlt, hget, -⟩ := List.idxOf?_eq_some_iff.mp h
    have hdigit : digit < 58 := hlt
    refine ⟨hdigit, ?_⟩
    rw [← hget]
    exact List.getD_eq_getElem _ _ hlt
  · rintro ⟨hdigit, rfl⟩
    exact idxOf_character digit hdigit

/-- The loop reads a numeral of base 58. -/
theorem foldlM_addCharacter {chars : List Char} {n m : Nat} :
    chars.foldlM addCharacter n = .ok m
      ↔ ∃ digits : List Nat, (∀ d ∈ digits, d < 58) ∧ chars = digits.map character
        ∧ digits.foldl (fun n d => n * 58 + d) n = m := by
  induction chars generalizing n with
  | nil =>
    rw [List.foldlM_nil, Result.pure_eq_ok]
    constructor
    · rintro rfl
      exact ⟨[], by simp, rfl, rfl⟩
    · rintro ⟨digits, -, hchars, hfold⟩
      obtain rfl := List.map_eq_nil_iff.mp hchars.symm
      exact hfold
  | cons c chars ih =>
    simp only [List.foldlM_cons, addCharacter, Result.bind_eq_ok, Result.okOr_eq_ok, idxOf_eq_some,
      Result.pure_eq_ok, ih]
    constructor
    · rintro ⟨_, ⟨digit, ⟨hdigit, rfl⟩, rfl⟩, digits, hdigits, rfl, hfold⟩
      exact ⟨digit :: digits, List.forall_mem_cons.mpr ⟨hdigit, hdigits⟩, rfl, hfold⟩
    · rintro ⟨digits, hdigits, hchars, hfold⟩
      obtain ⟨digit, rest, rfl, rfl, rfl⟩ := List.map_eq_cons_iff.mp hchars.symm
      obtain ⟨hdigit, hrest⟩ := List.forall_mem_cons.mp hdigits
      exact ⟨n * 58 + digit, ⟨digit, ⟨hdigit, rfl⟩, rfl⟩, rest, hrest, rfl, hfold⟩

theorem ofChars_character {digits : List Nat} (h : ∀ d ∈ digits, d < 58) :
    Utf16.ofChars (digits.map character) = digits.map unit := by
  induction digits with
  | nil => rfl
  | cons digit digits ih =>
    obtain ⟨hdigit, hdigits⟩ := List.forall_mem_cons.mp h
    change Utf16.ofChar (character digit) ++ Utf16.ofChars (digits.map character) = _
    rw [ofChar_character digit hdigit, ih hdigits]
    rfl

/-- A text read as characters of the alphabet is the text of these characters. -/
theorem scalars_eq_iff {value : List UInt16} {digits : List Nat} (h : ∀ d ∈ digits, d < 58) :
    Utf16.scalars value = digits.map character ↔ value = digits.map unit := by
  constructor
  · intro hscalars
    have hplain : '\ufffd' ∉ Utf16.scalars value := by
      rw [hscalars, List.mem_map]
      rintro ⟨d, hd, hreplacement⟩
      exact character_ne_replacement d (h d hd) hreplacement
    rw [← Utf16.toWellFormed_of_not_mem hplain, Utf16.toWellFormed, hscalars, ofChars_character h]
  · rintro rfl
    rw [← ofChars_character h, Utf16.scalars_ofChars]

/-- The ones in front of a text are the zeros in front of its digits. -/
theorem zeros_units {digits : List Nat} (h : ∀ d ∈ digits, d < 58) :
    ((digits.map unit).takeWhile (· = 0x31)).length = Radix.zeros digits :=
  Radix.length_takeWhile_map fun d hd => unit_eq_one d (h d hd)

theorem toNat_injective {bytes bytes' : List UInt8}
    (h : bytes.map UInt8.toNat = bytes'.map UInt8.toNat) :
    bytes = bytes' := List.map_injective_iff.mpr (fun _ _ => UInt8.toNat_inj.mp) h

/-- The bytes the loops leave are the numeral of base 256. -/
theorem map_bytes (k n : Nat) :
    (List.replicate k 0 ++ (bytesAux (n.log2 + 1) n).reverse).map UInt8.toNat
      = Radix.numeral 256 k n := by
  have hdigits : (Nat.digits 256 n).map (UInt8.toNat ∘ UInt8.ofNat) = Nat.digits 256 n := by
    refine (List.map_congr_left fun d hd => ?_).trans (List.map_id _)
    exact UInt8.toNat_ofNat_of_lt (Nat.digits_lt_base (by decide) hd)
  rw [Radix.numeral, List.map_append, List.map_replicate, List.map_reverse,
    bytesAux_eq_digits (fuel_suffices n), List.map_map, hdigits]
  rfl

/-- **What the decoder accepts**: texts of the window's lengths over the alphabet that say 32
bytes. -/
theorem base58Bytes_eq_ok {value : List UInt16} {bytes : List UInt8} :
    base58Bytes value = .ok bytes
      ↔ (32 ≤ value.length ∧ value.length ≤ 44) ∧ bytes.length = 32
        ∧ ∃ digits : List Nat, (∀ d ∈ digits, d < 58) ∧ value = digits.map unit
          ∧ bytes.map UInt8.toNat = Radix.convert 58 256 digits := by
  simp only [base58Bytes, Result.bind_eq_ok, Result.require_eq_ok,
    Result.pure_eq_ok, foldlM_addCharacter, ← Radix.number_eq_foldl]
  constructor
  · rintro ⟨-, hwindow, _, ⟨digits, hdigits, hscalars, rfl⟩, -, hlength, rfl⟩
    obtain rfl := (scalars_eq_iff hdigits).mp hscalars
    refine ⟨hwindow, hlength, digits, hdigits, rfl, ?_⟩
    rw [map_bytes, zeros_units hdigits]
    rfl
  · rintro ⟨hwindow, hlength, digits, hdigits, rfl, hbytes⟩
    have hwritten := map_bytes (Radix.zeros digits) (Radix.number 58 digits)
    have heq := toNat_injective (hwritten.trans hbytes.symm)
    refine ⟨(), hwindow, _, ⟨digits, hdigits, (scalars_eq_iff hdigits).mpr rfl, rfl⟩, (), ?_, ?_⟩
    · rw [zeros_units hdigits, heq]
      exact hlength
    · rw [zeros_units hdigits, heq]

/-! ## Round trips -/

theorem toNat_lt (bytes : List UInt8) : ∀ d ∈ bytes.map UInt8.toNat, d < 256 :=
  List.forall_mem_map.mpr fun byte _ => byte.toNat_lt

theorem convert_lt {base target : Nat} (h : 1 < target) (digits : List Nat) :
    ∀ d ∈ Radix.convert base target digits, d < target :=
  fun _ => Radix.lt_of_mem_numeral h

/-- The text of an encoding. -/
theorem ofString_base58Encode (input : List UInt8) :
    Utf16.ofString (Bootstrap.base58Encode input)
      = (Radix.convert 256 58 (input.map UInt8.toNat)).map unit := by
  rw [base58Encode_eq, Utf16.ofString, String.toList_ofList,
    ofChars_character (convert_lt (by decide) _)]

/-- 32 bytes and less have at most twelve characters more. -/
theorem pow_window : ∀ m ≤ 32, 256 ^ m ≤ 58 ^ (m + 12) := by decide

/-- A number of at most 32 places of base 256 has as many of base 58, and at most twelve more. -/
theorem length_digits_window {n m : Nat} (hm : m ≤ 32) (h : (Nat.digits 256 n).length = m) :
    m ≤ (Nat.digits 58 n).length ∧ (Nat.digits 58 n).length ≤ m + 12 := by
  constructor
  · rcases m with - | m
    · exact Nat.zero_le _
    · refine (Nat.lt_digits_length_iff (by decide) n).mpr ?_
      calc 58 ^ m ≤ 256 ^ m := Nat.pow_le_pow_left (by decide) m
        _ ≤ n := (Nat.lt_digits_length_iff (by decide) n).mp (by omega)
  · refine (Nat.digits_length_le_iff (by decide) n).mpr ?_
    calc n < 256 ^ m := (Nat.digits_length_le_iff (by decide) n).mp h.le
      _ ≤ 58 ^ (m + 12) := pow_window m hm

/-- **32 bytes print within the window.** -/
theorem length_convert_window {input : List UInt8} (h : input.length = 32) :
    32 ≤ (Radix.convert 256 58 (input.map UInt8.toNat)).length
      ∧ (Radix.convert 256 58 (input.map UInt8.toNat)).length ≤ 44 := by
  have hplaces := congrArg List.length (Radix.numeral_number (by decide) (toNat_lt input))
  rw [Radix.length_numeral, List.length_map, h] at hplaces
  obtain ⟨hlow, hhigh⟩ :=
    length_digits_window (by omega) rfl (n := Radix.number 256 (input.map UInt8.toNat))
  rw [Radix.convert, Radix.length_numeral]
  omega

/-- What 32 bytes print as is read as these bytes. -/
theorem base58Bytes_base58Encode {b : List UInt8} (h : b.length = 32) :
    base58Bytes (Utf16.ofString (Bootstrap.base58Encode b)) = .ok b := by
  rw [ofString_base58Encode, base58Bytes_eq_ok, List.length_map]
  refine ⟨length_convert_window h, h, _, convert_lt (by decide) _, rfl, ?_⟩
  rw [Radix.convert_convert _ (by decide) (toNat_lt b)]

/-- What is read prints as it was. -/
theorem base58Encode_base58Bytes {s : List UInt16} {b : List UInt8} (h : base58Bytes s = .ok b) :
    Utf16.ofString (Bootstrap.base58Encode b) = s := by
  obtain ⟨-, -, digits, hdigits, rfl, hbytes⟩ := base58Bytes_eq_ok.mp h
  rw [ofString_base58Encode, hbytes, Radix.convert_convert _ (by decide) hdigits]

theorem character_eq_one : ∀ digit < 58, character digit = '1' ↔ digit = 0 := by decide

/-- As many ones as zero bytes. -/
theorem leading_base58Encode (b : List UInt8) :
    ((Bootstrap.base58Encode b).toList.takeWhile (· = '1')).length
      = (b.takeWhile (· = 0)).length := by
  rw [base58Encode_eq, String.toList_ofList, ← zeros_map b,
    ← Radix.zeros_convert 256 58 (b.map UInt8.toNat)]
  exact Radix.length_takeWhile_map fun d hd => character_eq_one d (convert_lt (by decide) _ d hd)

/-- Different digits are written differently. -/
theorem map_character_injective {digits digits' : List Nat} (h : ∀ d ∈ digits, d < 58)
    (h' : ∀ d ∈ digits', d < 58)
    (heq : digits.map character = digits'.map character) : digits = digits' := by
  have hback : ∀ {digits : List Nat}, (∀ d ∈ digits, d < 58) →
      (digits.map character).map BASE58_ALPHABET.idxOf? = digits.map some := by
    intro digits h
    rw [List.map_map]
    exact List.map_congr_left fun d hd => idxOf_character d (h d hd)
  refine List.map_injective_iff.mpr (Option.some_injective Nat) ?_
  rw [← hback h, ← hback h', heq]

/-- **No two arrays of bytes print the same.** -/
theorem base58Encode_injective {b b' : List UInt8}
    (h : Bootstrap.base58Encode b = Bootstrap.base58Encode b') :
    b = b' := by
  rw [base58Encode_eq, base58Encode_eq, String.ofList_inj] at h
  have hdigits := map_character_injective (convert_lt (by decide) _) (convert_lt (by decide) _) h
  exact toNat_injective (Radix.convert_injective (by decide) (toNat_lt b) (toNat_lt b') hdigits)

/-- An encoder that agrees with `base58Bytes`. -/
structure Agrees (encode : List UInt8 → String) : Prop where
  /-- 32 bytes are read back. -/
  decoded : ∀ b : List UInt8, b.length = 32 → base58Bytes (Utf16.ofString (encode b)) = .ok b
  /-- An accepted text is printed back. -/
  printed : ∀ (s : List UInt16) (b : List UInt8), base58Bytes s = .ok b →
    Utf16.ofString (encode b) = s
  /-- Leading zero bytes are leading ones. -/
  leading : ∀ b : List UInt8, ((encode b).toList.takeWhile (· = '1')).length
    = (b.takeWhile (· = 0)).length
  /-- Different arrays of one length print differently. -/
  injective : ∀ b b' : List UInt8, b.length = b'.length → encode b = encode b' → b = b'

/-- **Both copies of the encoder agree with the decoder.** -/
theorem base58_agrees : Agrees Devnet.base58Encode ∧ Agrees Bootstrap.base58Encode := by
  have hagrees : Agrees Bootstrap.base58Encode :=
    { decoded := fun _ => base58Bytes_base58Encode
      printed := fun _ _ => base58Encode_base58Bytes
      leading := leading_base58Encode
      injective := fun _ _ _ => base58Encode_injective }
  exact ⟨base58Encode_copy ▸ hagrees, hagrees⟩

/-- The window is reached at its lower end, by zeros alone. -/
example : base58Bytes (Utf16.ofString "11111111111111111111111111111111")
    = .ok (List.replicate 32 0) := by
  decide +kernel

end Gateway

end DividendX
