import DividendX.Lib.Lanes
import DividendX.Lib.Sha256

/-!
# SHA-256 in lanes

The compression of one block for many messages at once: a **column** holds the same word of every
message, and a round on columns is a round on every message. `Sha256.column_block` is the
connection; through it the kernel evaluates the digests of a whole list of short messages in one run
of 64 rounds.
-/

namespace Sha256

open Lanes

variable {α : Type}

/-- One word for every element of a list. -/
def column (l : List α) (f : α → UInt32) : Nat := pack (l.map fun a => (f a).toNat)

/-- Sums of words in `n` lanes. -/
def laneAdd (n x y : Nat) : Nat := (x + y) &&& low n

/-- Words in `n` lanes shifted right. -/
def laneShr (n x r : Nat) : Nat := (x >>> r) &&& low n

/-- Words in `n` lanes rotated right: a word beside itself, shifted. -/
def laneRotr (n x r : Nat) : Nat := ((x * 0x100000001) >>> r) &&& low n

/-! ## Columns -/

theorem toNat_add (x y : UInt32) : (x + y).toNat = ((x.toNat + y.toNat) >>> 0) &&& 0xffffffff := by
  rw [UInt32.toNat_add, Nat.shiftRight_zero]
  exact (Nat.and_two_pow_sub_one_eq_mod _ 32).symm

theorem toNat_shr {r : UInt32} (h : r.toNat < 32) (x : UInt32) :
    (x >>> r).toNat = (x.toNat >>> r.toNat) &&& 0xffffffff := by
  have hlt : x.toNat >>> r.toNat < 2 ^ 32 := by
    apply Nat.lt_of_le_of_lt (Nat.shiftRight_le _ _) x.toNat_lt
  rw [UInt32.toNat_shiftRight, Nat.mod_eq_of_lt h]
  exact (Nat.and_two_pow_sub_one_of_lt_two_pow hlt).symm

theorem toNat_rotr {r : UInt32} (hpos : 0 < r.toNat) (h : r.toNat < 32) (x : UInt32) :
    (rotr x r).toNat = ((x.toNat * 0x100000001) >>> r.toNat) &&& 0xffffffff := by
  have hx : x.toNat < 2 ^ 32 := x.toNat_lt
  have hleft : (32 - r).toNat = 32 - r.toNat :=
    UInt32.toNat_sub_of_le _ _ (UInt32.le_iff_toNat_le.mpr (Nat.le_of_lt h))
  have htwice : x.toNat * 0x100000001 = 2 ^ 32 * x.toNat + x.toNat := by ring
  have hmask : ∀ y, y &&& 0xffffffff = y % 2 ^ 32 := fun y => Nat.and_two_pow_sub_one_eq_mod y 32
  rw [rotr]
  rw [UInt32.toNat_or, UInt32.toNat_shiftRight, UInt32.toNat_shiftLeft, hleft, htwice, hmask,
    Nat.mod_eq_of_lt h, Nat.mod_eq_of_lt (by omega : 32 - r.toNat < 32)]
  apply Nat.eq_of_testBit_eq
  intro i
  simp only [Nat.testBit_or, Nat.testBit_shiftRight, Nat.testBit_mod_two_pow, Nat.testBit_shiftLeft,
    Nat.testBit_two_pow_mul_add _ hx]
  -- bits of the word below bit 32, bits of its copy from there on
  by_cases hi : i < 32
  · by_cases hlow : r.toNat + i < 32
    · have hnot : ¬ i ≥ 32 - r.toNat := by omega
      simp [hi, hlow, hnot]
    · have hge : i ≥ 32 - r.toNat := by omega
      have heq : r.toNat + i - 32 = i - (32 - r.toNat) := by omega
      have hzero : x.toNat.testBit (r.toNat + i) = false :=
        Nat.testBit_lt_two_pow (Nat.lt_of_lt_of_le hx (Nat.pow_le_pow_right (by omega) (by omega)))
      simp [hi, hlow, hge, heq, hzero]
  · have hzero : x.toNat.testBit (r.toNat + i) = false :=
      Nat.testBit_lt_two_pow (Nat.lt_of_lt_of_le hx (Nat.pow_le_pow_right (by omega) (by omega)))
    simp [hi, hzero]

section Columns

variable (l : List α) (f g : α → UInt32)

theorem toNat_lt_lane (x : UInt32) : x.toNat < 2 ^ 64 :=
  Nat.lt_of_lt_of_le x.toNat_lt (by decide)

/-- A constant fills every lane. -/
theorem column_const (k : UInt32) : column l (fun _ => k) = k.toNat * ones l.length :=
  pack_const l k.toNat

/-- Lanes add. -/
theorem column_add :
    column l (fun a => f a + g a) = laneAdd l.length (column l f) (column l g) := by
  have hsum : ∀ a, (f a).toNat + (g a).toNat < 2 ^ 64 := fun a => by
    have hf := (f a).toNat_lt
    have hg := (g a).toNat_lt
    omega
  simp only [column, laneAdd]
  simp only [toNat_add]
  rw [pack_shift hsum (by omega), pack_add, Nat.shiftRight_zero]

/-- Lanes shift to the right. -/
theorem column_shr {r : UInt32} {k : Nat} (hr : r.toNat = k) (h : k < 32 := by omega) :
    column l (fun a => f a >>> r) = laneShr l.length (column l f) k := by
  subst hr
  rw [column, laneShr]
  simp only [toNat_shr h]
  exact pack_shift (fun a => toNat_lt_lane (f a)) (Nat.le_of_lt h) l

/-- Lanes rotate. -/
theorem column_rotr {r : UInt32} {k : Nat} (hr : r.toNat = k) (hpos : 0 < k := by omega)
    (h : k < 32 := by omega) :
    column l (fun a => rotr (f a) r) = laneRotr l.length (column l f) k := by
  subst hr
  have htwice : ∀ a, (f a).toNat * 0x100000001 < 2 ^ 64 := fun a => by
    have hf := (f a).toNat_lt
    omega
  simp only [column, laneRotr]
  simp only [toNat_rotr hpos h]
  rw [pack_shift htwice (Nat.le_of_lt h), pack_mul]

/-- Lanes are met bit by bit. -/
theorem column_and : column l (fun a => f a &&& g a) = column l f &&& column l g := by
  rw [column]
  simp only [UInt32.toNat_and]
  exact pack_and (fun a => toNat_lt_lane (f a)) (fun a => toNat_lt_lane (g a)) l

/-- Lanes are added bit by bit. -/
theorem column_xor : column l (fun a => f a ^^^ g a) = column l f ^^^ column l g := by
  rw [column]
  simp only [UInt32.toNat_xor]
  exact pack_xor (fun a => toNat_lt_lane (f a)) (fun a => toNat_lt_lane (g a)) l

/-- Lanes are negated. -/
theorem column_not : column l (fun a => ~~~(f a)) = column l f ^^^ low l.length := by
  have hnot : ∀ x : UInt32, ~~~x = x ^^^ 0xffffffff := fun x => by
    apply UInt32.toBitVec_inj.mp
    change ~~~x.toBitVec = x.toBitVec ^^^ BitVec.allOnes 32
    rw [BitVec.xor_allOnes]
  simp only [hnot]
  rw [column_xor l f fun _ => 0xffffffff, column_const]
  rfl

end Columns

/-! ## Rounds -/

/-- The eight working words of every message, in columns. -/
structure Columns where
  a : Nat
  b : Nat
  c : Nat
  d : Nat
  e : Nat
  f : Nat
  g : Nat
  h : Nat

/-- One round in `n` lanes. -/
def laneRound (n : Nat) (s : Columns) (kw : Nat) : Columns :=
  let s1 := laneRotr n s.e 6 ^^^ laneRotr n s.e 11 ^^^ laneRotr n s.e 25
  let ch := (s.e &&& s.f) ^^^ ((s.e ^^^ low n) &&& s.g)
  let t1 := laneAdd n (laneAdd n (laneAdd n s.h s1) ch) kw
  let s0 := laneRotr n s.a 2 ^^^ laneRotr n s.a 13 ^^^ laneRotr n s.a 22
  let maj := (s.a &&& s.b) ^^^ (s.a &&& s.c) ^^^ (s.b &&& s.c)
  ⟨laneAdd n t1 (laneAdd n s0 maj), s.a, s.b, s.c, laneAdd n s.d t1, s.e, s.f, s.g⟩

/-- Rounds in `n` lanes, with the message schedule kept in a sliding window. -/
def laneRounds (n : Nat) : List UInt32 → Columns → List Nat → Columns
  | [], s, _ => s
  | k :: ks, s, window =>
    let w0 := window.getD 0 0
    let w1 := window.getD 1 0
    let w14 := window.getD 14 0
    let s0 := laneRotr n w1 7 ^^^ laneRotr n w1 18 ^^^ laneShr n w1 3
    let s1 := laneRotr n w14 17 ^^^ laneRotr n w14 19 ^^^ laneShr n w14 10
    laneRounds n ks (laneRound n s (laneAdd n (k.toNat * ones n) w0))
      (window.tail ++ [laneAdd n (laneAdd n (laneAdd n w0 s0) (window.getD 9 0)) s1])

/-- The columns of a state for every element of a list. -/
def columns (l : List α) (s : α → State) : Columns :=
  ⟨column l fun a => (s a).a, column l fun a => (s a).b, column l fun a => (s a).c,
    column l fun a => (s a).d, column l fun a => (s a).e, column l fun a => (s a).f,
    column l fun a => (s a).g, column l fun a => (s a).h⟩

/-- **A round on columns is a round on every message.** -/
theorem columns_round (l : List α) (s : α → State) (kw : α → UInt32) :
    columns l (fun a => round (s a) (kw a)) = laneRound l.length (columns l s) (column l kw) := by
  simp only [columns, round, laneRound, column_add, column_xor, column_and, column_not]
  simp only [column_rotr l _ (r := 6) (k := 6) rfl, column_rotr l _ (r := 11) (k := 11) rfl,
    column_rotr l _ (r := 25) (k := 25) rfl, column_rotr l _ (r := 2) (k := 2) rfl,
    column_rotr l _ (r := 13) (k := 13) rfl, column_rotr l _ (r := 22) (k := 22) rfl]

/-- Rounds on columns are rounds on every message. -/
theorem columns_rounds (l : List α) (ks : List UInt32) (s : α → State)
    (window : List (α → UInt32)) :
    columns l (fun a => (List.zipWith (· + ·) ks
        (schedule ks.length (window.map fun w => w a))).foldl round (s a))
      = laneRounds l.length ks (columns l s) (window.map (column l)) := by
  have hzero : column l (fun _ => 0) = 0 := by
    rw [column_const]
    exact Nat.zero_mul _
  induction ks generalizing s window with
  | nil => rfl
  | cons k ks ih =>
    -- reading the window
    have hword : ∀ i a, (window.map fun w => w a).getD i 0 = window.getD i (fun _ => 0) a := by
      intro i a
      simp only [List.getD_eq_getElem?_getD, List.getElem?_map]
      cases window[i]? <;> rfl
    have hcolumn : ∀ i, (window.map (column l)).getD i 0 = column l (window.getD i fun _ => 0) := by
      intro i
      simp only [List.getD_eq_getElem?_getD, List.getElem?_map]
      cases window[i]? with
      | none => exact hzero.symm
      | some w => rfl
    -- the word that slides in
    let next : α → UInt32 := fun a =>
      window.getD 0 (fun _ => 0) a
        + (rotr (window.getD 1 (fun _ => 0) a) 7 ^^^ rotr (window.getD 1 (fun _ => 0) a) 18
          ^^^ (window.getD 1 (fun _ => 0) a >>> 3))
        + window.getD 9 (fun _ => 0) a
        + (rotr (window.getD 14 (fun _ => 0) a) 17 ^^^ rotr (window.getD 14 (fun _ => 0) a) 19
          ^^^ (window.getD 14 (fun _ => 0) a >>> 10))
    have hrest := ih (fun a => round (s a) (k + window.getD 0 (fun _ => 0) a))
      (window.tail ++ [next])
    rw [columns_round, column_add, column_const] at hrest
    simp only [List.length_cons, schedule, List.zipWith_cons_cons,
      List.foldl_cons, hword, laneRounds, hcolumn]
    simp only [List.map_append, List.map_tail, List.map_cons, List.map_nil, next, column_add,
      column_xor, column_rotr l _ (r := 7) (k := 7) rfl, column_rotr l _ (r := 18) (k := 18) rfl,
      column_shr l _ (r := 3) (k := 3) rfl, column_rotr l _ (r := 17) (k := 17) rfl,
      column_rotr l _ (r := 19) (k := 19) rfl, column_shr l _ (r := 10) (k := 10) rfl] at hrest
    exact hrest

/-- The initial hash value in `n` lanes. -/
def laneInitial (n : Nat) : Columns :=
  ⟨0x6a09e667 * ones n, 0xbb67ae85 * ones n, 0x3c6ef372 * ones n, 0xa54ff53a * ones n,
    0x510e527f * ones n, 0x9b05688c * ones n, 0x1f83d9ab * ones n, 0x5be0cd19 * ones n⟩

/-- The first word of the digest, in `n` lanes, for messages of one block. -/
def laneDigest (n : Nat) (window : List Nat) : Nat :=
  laneAdd n (laneInitial n).a (laneRounds n roundConstants (laneInitial n) window).a

/-- All lanes start from the initial hash. -/
theorem columns_initial (l : List α) : columns l (fun _ => initial) = laneInitial l.length := by
  simp only [columns, initial, column_const]
  rfl

/-- **The first words of the digests** of many messages of one block. -/
theorem column_block (l : List α) (window : List (α → UInt32)) :
    column l (fun a => (block initial (window.map fun w => w a)).a)
      = laneDigest l.length (window.map (column l)) := by
  have hrounds := columns_rounds l roundConstants (fun _ => initial) window
  rw [columns_initial] at hrounds
  have hlast := congrArg Columns.a hrounds
  have hfirst := congrArg Columns.a (columns_initial l)
  simp only [block, column_add, laneDigest]
  rw [← hlast, ← hfirst]
  rfl

/-! ## Messages of one block -/

/-- The bytes of a text of ASCII characters. -/
theorem bytes_of_ascii {s : String} (h : ∀ c ∈ s.toList, c.toNat < 128) :
    s.toUTF8.toList = s.toList.map fun c => c.val.toUInt8 := by
  have hbytes : ∀ b : ByteArray, b.toList = b.data.toList := by
    intro b
    have hloop : ∀ i r, ByteArray.toList.loop b i r = r.reverse ++ b.data.toList.drop i := by
      intro i r
      fun_induction ByteArray.toList.loop b i r with
      | case1 i r hlt ih =>
        have hi : i < b.data.toList.length := by simpa using hlt
        rw [ih, List.drop_eq_getElem_cons hi]
        simp [ByteArray.get!, hlt]
      | case2 i r hge =>
        have hi : b.data.toList.length ≤ i := by simpa using hge
        simp [List.drop_eq_nil_of_le hi]
    exact (hloop 0 []).trans (by simp)
  have hencode : ∀ cs : List Char, (∀ c ∈ cs, c.toNat < 128) →
      cs.flatMap String.utf8EncodeChar = cs.map fun c => c.val.toUInt8 := by
    intro cs
    induction cs with
    | nil => simp
    | cons c cs ih =>
      intro hcs
      have hsize : c.utf8Size = 1 := by
        rw [Char.utf8Size_eq_one_iff, UInt32.le_iff_toNat_le]
        exact Nat.le_of_lt_succ (hcs c List.mem_cons_self)
      rw [List.flatMap_cons, String.utf8EncodeChar_eq_singleton hsize, List.map_cons,
        ih fun d hd => hcs d (List.mem_cons_of_mem c hd)]
      rfl
  have hutf8 : s.toUTF8 = (s.toList.flatMap String.utf8EncodeChar).toByteArray :=
    String.utf8Encode_toList.symm
  rw [hbytes, hutf8, List.toList_data_toByteArray, hencode _ h]

/-- A big-endian word. -/
def bigEndian (a b c d : UInt8) : UInt32 :=
  a.toUInt32 <<< 24 ||| b.toUInt32 <<< 16 ||| c.toUInt32 <<< 8 ||| d.toUInt32

theorem toNat_bigEndian (a b c d : UInt8) :
    (bigEndian a b c d).toNat = ((a.toNat * 256 + b.toNat) * 256 + c.toNat) * 256 + d.toNat := by
  have ha := a.toNat_lt
  have hb := b.toNat_lt
  have hc := c.toNat_lt
  have hd := d.toNat_lt
  have hshift : ∀ (x : UInt8) (r : UInt32) (k : Nat), r.toNat = k → k ≤ 24 →
      (x.toUInt32 <<< r).toNat = 2 ^ k * x.toNat := by
    rintro x r k rfl hk
    have hx := x.toNat_lt
    have hpow : 2 ^ r.toNat ≤ 2 ^ 24 := Nat.pow_le_pow_right (by omega) hk
    have hlt : x.toNat * 2 ^ r.toNat < 2 ^ 32 :=
      Nat.lt_of_lt_of_le (Nat.mul_lt_mul_of_lt_of_le hx hpow (by decide)) (by decide)
    rw [UInt32.toNat_shiftLeft, UInt8.toNat_toUInt32, Nat.mod_eq_of_lt (by omega : r.toNat < 32),
      Nat.shiftLeft_eq, Nat.mod_eq_of_lt hlt, Nat.mul_comm]
  -- byte by byte, the lower part fits below the upper one
  have h₁ : 2 ^ 24 * a.toNat ||| 2 ^ 16 * b.toNat = 2 ^ 16 * (2 ^ 8 * a.toNat + b.toNat) := by
    rw [← Nat.two_pow_add_eq_or_of_lt (by omega : 2 ^ 16 * b.toNat < 2 ^ 24)]
    omega
  have h₂ : 2 ^ 16 * (2 ^ 8 * a.toNat + b.toNat) ||| 2 ^ 8 * c.toNat
      = 2 ^ 8 * (2 ^ 8 * (2 ^ 8 * a.toNat + b.toNat) + c.toNat) := by
    rw [← Nat.two_pow_add_eq_or_of_lt (by omega : 2 ^ 8 * c.toNat < 2 ^ 16)]
    omega
  rw [bigEndian]
  rw [UInt32.toNat_or, UInt32.toNat_or, UInt32.toNat_or, hshift a 24 24 rfl (by omega),
    hshift b 16 16 rfl (by omega), hshift c 8 8 rfl (by omega), UInt8.toNat_toUInt32, h₁, h₂,
    ← Nat.two_pow_add_eq_or_of_lt (by omega : d.toNat < 2 ^ 8)]
  omega

theorem wordBytes_injective {x y : UInt32} (h : wordBytes x = wordBytes y) : x = y := by
  have hx := x.toNat_lt
  have hy := y.toNat_lt
  simp only [wordBytes, List.cons.injEq, ← UInt8.toNat_inj, UInt32.toNat_toUInt8,
    UInt32.toNat_shiftRight, Nat.shiftRight_eq_div_pow, and_true] at h
  apply UInt32.toNat_inj.mp
  simp at h
  omega

/-- Two messages of one block with the same digest have the same first word. -/
theorem first_word_of_hash {bytes bytes' : List UInt8} (h : hash bytes = hash bytes')
    (hlen : (words (pad bytes)).length = 16) (hlen' : (words (pad bytes')).length = 16) :
    (block initial (words (pad bytes))).a = (block initial (words (pad bytes'))).a := by
  have hhash : ∀ b, (words (pad b)).length = 16 →
      (hash b).toList.take 4 = wordBytes (block initial (words (pad b))).a := by
    intro b hb
    have htake : (words (pad b)).take 16 = words (pad b) := List.take_of_length_le (Nat.le_of_eq hb)
    simp only [hash, hb, List.Vector.toList_mk]
    simp only [Nat.reduceDiv, blocks, htake]
    rfl
  apply wordBytes_injective
  rw [← hhash _ hlen, ← hhash _ hlen', h]

end Sha256
