import Mathlib.Algebra.Order.Floor.Semifield
import Mathlib.Data.Rat.Floor
import Mathlib.Tactic.FieldSimp
import DividendX.Math

/-!
# The running product

The fraction a finalization carries from event to event, as two naturals and the number of events
they come from. A qualified event multiplies the denominator by less than `2 ^ 116`, so after at
most 64 events neither part leaves the 1024 bytes of the account, and no step of the arithmetic
fails.
-/

namespace DividendX

open LittleEndian Binary64

/-- A product over at most `c` qualified factors, each at most one. -/
structure RetentionBound (n d c : Nat) : Prop where
  pos : 1 ≤ n
  le : n ≤ d
  bound : d ≤ (2 ^ 116 - 1) ^ c

namespace RetentionBound

variable {n d c : Nat} {m0 m1 : UInt64}

theorem start : RetentionBound 1 1 0 := ⟨le_rfl, le_rfl, le_rfl⟩

/-- An event that does not count leaves the product alone. -/
theorem skip (h : RetentionBound n d c) : RetentionBound n d (c + 1) := by
  refine ⟨h.pos, h.le, h.bound.trans ?_⟩
  exact Nat.pow_le_pow_right (by norm_num) (Nat.le_succ c)

/-- An event that counts. -/
theorem step (h : RetentionBound n d c) (hq : Qualified m0 m1) :
    RetentionBound (n * numeratorFactor m0 m1) (d * denominatorFactor m0 m1) (c + 1) := by
  refine ⟨Nat.mul_pos h.pos (numeratorFactor_pos m0 m1),
    Nat.mul_le_mul h.le (numeratorFactor_le hq), ?_⟩
  have hfactor : denominatorFactor m0 m1 ≤ 2 ^ 116 - 1 :=
    Nat.le_sub_one_of_lt (denominatorFactor_lt hq)
  rw [pow_succ]
  exact Nat.mul_le_mul h.bound hfactor

theorem denominator_pos (h : RetentionBound n d c) : 0 < d := h.pos.trans h.le

/-- After at most 64 events the denominator has at most 7424 bits. -/
theorem lt (h : RetentionBound n d c) (hc : c ≤ 64) : d < 2 ^ 7424 :=
  calc d ≤ (2 ^ 116 - 1) ^ c := h.bound
    _ ≤ (2 ^ 116 - 1) ^ 64 := Nat.pow_le_pow_right (by norm_num) hc
    _ < (2 ^ 116) ^ 64 := Nat.pow_lt_pow_left (by norm_num) (by norm_num)
    _ = 2 ^ 7424 := by rw [← pow_mul]

theorem two_pow_le {a b : Nat} (h : a ≤ b) : 2 ^ a ≤ 2 ^ b := Nat.pow_le_pow_right Nat.two_pos h

theorem mul_lt_two_pow {a b x y : Nat} (hx : x ≤ 2 ^ a) (hy : y < 2 ^ b) : x * y < 2 ^ (a + b) := by
  rw [pow_add]
  exact Nat.mul_lt_mul_of_le_of_lt hx hy (Nat.two_pow_pos a)

theorem bytes_eq : (256 : Nat) ^ 1024 = 2 ^ 8192 := by
  rw [show (256 : Nat) = 2 ^ 8 by norm_num, ← pow_mul]

theorem fits (h : RetentionBound n d c) (hc : c ≤ 64) : d < 256 ^ 1024 :=
  calc d < 2 ^ 7424 := h.lt hc
    _ ≤ 2 ^ 8192 := two_pow_le (by norm_num)
    _ = 256 ^ 1024 := bytes_eq.symm

theorem length_le (h : RetentionBound n d c) (hc : c ≤ 64) :
    (toBytes n).length ≤ 1024 ∧ (toBytes d).length ≤ 1024 := by
  rw [length_toBytes_le_iff (by norm_num), length_toBytes_le_iff (by norm_num)]
  exact ⟨h.le.trans_lt (h.fits hc), h.fits hc⟩

/-- **The product step never fails** within 64 events. -/
theorem multiplyRatio_toBytes (h : RetentionBound n d c) (hc : c < 64) (hq : Qualified m0 m1) :
    multiplyRatio (toBytes n) (toBytes d) m0 m1 =
      .ok (toBytes (n * numeratorFactor m0 m1), toBytes (d * denominatorFactor m0 m1)) := by
  have h' := h.step hq
  obtain ⟨hn, hd⟩ := h.length_le hc.le
  rw [multiplyRatio_eq_ok]
  simp only [ofBytes_toBytes]
  exact ⟨hn, hd, hq, Nat.ne_of_gt h.pos, h.denominator_pos.ne', h'.le.trans_lt (h'.fits hc),
    h'.fits hc, trivial, trivial⟩

/-- The stored fraction is multiplied by exactly the ratio of the multipliers. -/
theorem ratio_step (n d : Nat) (hq : Qualified m0 m1) :
    ((n * numeratorFactor m0 m1 : Nat) : ℚ) / (d * denominatorFactor m0 m1 : Nat) =
      (n : ℚ) / d * (value m0 / value m1) := by
  rw [← factor_ratio hq]
  push_cast
  exact mul_div_mul_comm _ _ _ _

/-- **The split never fails** within 64 events, whatever the quantity. -/
theorem exists_splitPools (h : RetentionBound n d c) (hc : c ≤ 64) (q : UInt64) :
    ∃ pt dr, splitPools q (toBytes n) (toBytes d) = .ok (pt, dr) := by
  obtain ⟨hn, hd⟩ := h.length_le hc
  have hle := @dividend_le q.toNat n d
  have hq := q.toNat_lt
  obtain ⟨dr, hdr⟩ : ∃ dr : UInt64, dr.toNat = q.toNat * (d - n) / d :=
    ⟨UInt64.ofNat _, UInt64.toNat_ofNat_of_lt (hle.trans_lt hq)⟩
  obtain ⟨pt, hpt⟩ : ∃ pt : UInt64, pt.toNat = q.toNat - dr.toNat :=
    ⟨UInt64.ofNat _, UInt64.toNat_ofNat_of_lt ((Nat.sub_le _ _).trans_lt hq)⟩
  have hbig : q.toNat * (d - n) < 256 ^ 1024 :=
    calc q.toNat * (d - n) < 2 ^ (64 + 7424) :=
          mul_lt_two_pow hq.le ((Nat.sub_le d n).trans_lt (h.lt hc))
      _ ≤ 2 ^ 8192 := two_pow_le (by norm_num)
      _ = 256 ^ 1024 := bytes_eq.symm
  refine ⟨pt, dr, splitPools_eq_ok.mpr ?_⟩
  simp only [ofBytes_toBytes]
  exact ⟨hn, hd, ⟨Nat.ne_of_gt h.pos, h.denominator_pos.ne', h.le⟩, hbig, hdr, by omega⟩

end RetentionBound

/-- The share a fraction loses, in whole units. -/
theorem floor_lost_share (q : Nat) {n d : Nat} (hd : d ≠ 0) (hle : n ≤ d) :
    ⌊(q : ℚ) * (1 - (n : ℚ) / d)⌋₊ = q * (d - n) / d := by
  have hd' : (d : ℚ) ≠ 0 := by exact_mod_cast hd
  have hshare : (q : ℚ) * (1 - (n : ℚ) / d) = ((q * (d - n) : Nat) : ℚ) / (d : Nat) := by
    rw [Nat.cast_mul, Nat.cast_sub hle]
    field_simp
  rw [hshare, Nat.floor_div_eq_div]

/-- **The pools are the exact specification**: the dividend pool is the floor of the lost share, the
principal pool the rest, and it is never empty for a positive quantity. -/
theorem splitPools_floor {q pt dr : UInt64} {n d : List UInt8}
    (h : splitPools q n d = .ok (pt, dr)) :
    dr.toNat = ⌊(q.toNat : ℚ) * (1 - (ofBytes n : ℚ) / ofBytes d)⌋₊ ∧
      q.toNat = pt.toNat + dr.toNat ∧ (0 < q → 0 < pt) := by
  obtain ⟨-, -, ⟨hn, hd, hle⟩, -, hdr, hsum⟩ := splitPools_eq_ok.mp h
  refine ⟨?_, hsum, fun hq => ?_⟩
  · rw [floor_lost_share _ hd hle]
    exact hdr
  · -- the floor loses at least the share of a positive numerator
    rw [UInt64.lt_iff_toNat_lt] at hq ⊢
    have hlt : dr.toNat < q.toNat := by
      rw [hdr]
      refine Nat.div_lt_of_lt_mul ?_
      rw [Nat.mul_comm (ofBytes d)]
      exact Nat.mul_lt_mul_of_pos_left (by omega) hq
    change 0 < pt.toNat
    omega

/-! ## A list of events -/

/-- What is left of a unit after a list of events. -/
def retention (events : List (UInt64 × UInt64)) : ℚ :=
  (events.map fun e => value e.1 / value e.2).prod

/-- `multiply_ratio` over a list of events, from one. -/
def retainedRatio (events : List (UInt64 × UInt64)) : Outcome (List UInt8 × List UInt8) :=
  events.foldlM (fun ratio e => multiplyRatio ratio.1 ratio.2 e.1 e.2) ([1], [1])

/-- `split_pools` after `multiply_ratio` over a list of events. -/
def retainedPools (events : List (UInt64 × UInt64)) (quantity : UInt64) :
    Outcome (UInt64 × UInt64) := do
  let ratio ← retainedRatio events
  splitPools quantity ratio.1 ratio.2

/-- The product over a list goes through exactly when every pair is qualified, and then stands for
the retention of the list. -/
theorem foldlM_multiplyRatio {events : List (UInt64 × UInt64)} {n d c : Nat}
    (h : RetentionBound n d c) (hc : c + events.length ≤ 64) :
    ((∃ ratio, events.foldlM (fun ratio e => multiplyRatio ratio.1 ratio.2 e.1 e.2)
        (toBytes n, toBytes d) = .ok ratio) → ∀ e ∈ events, Qualified e.1 e.2) ∧
    ((∀ e ∈ events, Qualified e.1 e.2) → ∃ n' d', RetentionBound n' d' (c + events.length) ∧
      events.foldlM (fun ratio e => multiplyRatio ratio.1 ratio.2 e.1 e.2)
        (toBytes n, toBytes d) = .ok (toBytes n', toBytes d') ∧
      (n' : ℚ) / d' = (n : ℚ) / d * retention events) := by
  induction events generalizing n d c with
  | nil =>
    refine ⟨fun _ e he => absurd he List.not_mem_nil, fun _ => ⟨n, d, h, rfl, ?_⟩⟩
    rw [retention, List.map_nil, List.prod_nil, mul_one]
  | cons e events ih =>
    rw [List.length_cons] at hc
    rw [List.foldlM_cons, List.length_cons]
    constructor
    · rintro ⟨ratio, hratio⟩
      obtain ⟨⟨n₁, d₁⟩, hstep, hrest⟩ := Result.bind_eq_ok.mp hratio
      have hq := (multiplyRatio_eq_ok.mp hstep).2.2.1
      rw [h.multiplyRatio_toBytes (by omega) hq] at hstep
      cases hstep
      have htail := (ih (h.step hq) (by omega)).1 ⟨ratio, hrest⟩
      exact List.forall_mem_cons.mpr ⟨hq, htail⟩
    · intro hall
      obtain ⟨hq, htail⟩ := List.forall_mem_cons.mp hall
      obtain ⟨n', d', hbound, hrest, hvalue⟩ := (ih (h.step hq) (by omega)).2 htail
      refine ⟨n', d', ?_, ?_, ?_⟩
      · rwa [Nat.add_assoc, Nat.add_comm 1] at hbound
      · rw [h.multiplyRatio_toBytes (by omega) hq]
        exact hrest
      · rw [hvalue, RetentionBound.ratio_step n d hq, retention, retention, List.map_cons,
          List.prod_cons, mul_assoc]

/-- Within 64 qualified events the pools exist. -/
theorem exists_retainedPools {events : List (UInt64 × UInt64)} (hlen : events.length ≤ 64)
    (hall : ∀ e ∈ events, Qualified e.1 e.2) (q : UInt64) :
    ∃ pt dr, retainedPools events q = .ok (pt, dr) := by
  obtain ⟨n, d, hbound, hok, -⟩ :=
    (@foldlM_multiplyRatio events 1 1 0 RetentionBound.start (by omega)).2 hall
  obtain ⟨pt, dr, hsplit⟩ := hbound.exists_splitPools (by omega) q
  exact ⟨pt, dr, Result.bind_eq_ok.mpr ⟨_, hok, hsplit⟩⟩

/-- Accepted pools come from qualified pairs, and the dividend pool is the floor of what the list
loses. -/
theorem retainedPools_floor {events : List (UInt64 × UInt64)} (hlen : events.length ≤ 64)
    {q pt dr : UInt64} (h : retainedPools events q = .ok (pt, dr)) :
    (∀ e ∈ events, Qualified e.1 e.2) ∧
      dr.toNat = ⌊(q.toNat : ℚ) * (1 - retention events)⌋₊ ∧ q.toNat = pt.toNat + dr.toNat := by
  obtain ⟨hqualified, hratio⟩ :=
    @foldlM_multiplyRatio events 1 1 0 RetentionBound.start (by omega)
  obtain ⟨ratio, hok, hsplit⟩ := Result.bind_eq_ok.mp h
  have hall := hqualified ⟨ratio, hok⟩
  obtain ⟨n, d, -, hok', hvalue⟩ := hratio hall
  obtain rfl : (toBytes n, toBytes d) = ratio := Except.ok.inj (hok'.symm.trans hok)
  obtain ⟨hdr, hsum, -⟩ := splitPools_floor hsplit
  rw [ofBytes_toBytes, ofBytes_toBytes, hvalue, Nat.cast_one, div_one, one_mul] at hdr
  exact ⟨hall, hdr, hsum⟩

/-- **The pools of a list**: within 64 events the only thing that can be refused is a pair that is
not qualified, and two words are the pools exactly when they are the floor and the rest. -/
theorem retainedPools_eq_ok {events : List (UInt64 × UInt64)} (hlen : events.length ≤ 64)
    {q pt dr : UInt64} :
    retainedPools events q = .ok (pt, dr) ↔ (∀ e ∈ events, Qualified e.1 e.2) ∧
      dr.toNat = ⌊(q.toNat : ℚ) * (1 - retention events)⌋₊ ∧ q.toNat = pt.toNat + dr.toNat := by
  refine ⟨retainedPools_floor hlen, ?_⟩
  rintro ⟨hall, hdr, hsum⟩
  obtain ⟨pt', dr', hok⟩ := exists_retainedPools hlen hall q
  obtain ⟨-, hdr', hsum'⟩ := retainedPools_floor hlen hok
  obtain rfl : dr' = dr := UInt64.toNat_inj.mp (hdr'.trans hdr.symm)
  obtain rfl : pt' = pt := UInt64.toNat_inj.mp (by omega)
  exact hok

end DividendX
