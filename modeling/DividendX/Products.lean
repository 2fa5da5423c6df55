import DividendX.Sdk.Bytes

/-!
# The product step, exactly

One turn of the accumulator as a statement about the exact values of the two multipliers: what
`multiply_ratio` stores is the fraction times `m0 / m1`, and it stops only where a product would not
fit in `MAX_BIGINT_BYTES`.
-/

namespace DividendX

open LittleEndian Binary64

theorem boundedBytes_eq_error {n : Nat} {e : ProgramError} :
    boundedBytes n = .error e ↔ 256 ^ 1024 ≤ n ∧ e = .custom .arithmeticBoundExceeded := by
  constructor
  · intro h
    have hbig : 256 ^ 1024 ≤ n := by
      by_contra hsmall
      rw [boundedBytes_eq_ok.mpr ⟨not_le.mp hsmall, rfl⟩] at h
      cases h
    simp only [boundedBytes, Result.bind_eq_error, Result.require_eq_error,
      Result.pure_ne_error, and_false, exists_false, or_false] at h
    exact ⟨hbig, h.2.symm⟩
  · rintro ⟨hbig, rfl⟩
    rcases Result.ok_or_error (boundedBytes n) with ⟨bytes, hok⟩ | ⟨e, herror⟩
    · exact absurd (boundedBytes_eq_ok.mp hok).1 (not_lt.mpr hbig)
    · have h := herror
      simp only [boundedBytes, Result.bind_eq_error, Result.require_eq_error,
        Result.pure_ne_error, and_false, exists_false, or_false] at h
      rw [herror, h.2]

/-- The step as the two products that it stores. -/
theorem multiplyRatio_eq {n d : List UInt8} {m0 m1 : UInt64} (hn : n.length ≤ 1024)
    (hd : d.length ≤ 1024)
    (hq : Qualified m0 m1) (hn0 : ofBytes n ≠ 0) (hd0 : ofBytes d ≠ 0) :
    multiplyRatio n d m0 m1 = boundedBytes (ofBytes n * numeratorFactor m0 m1) >>= fun n' =>
      boundedBytes (ofBytes d * denominatorFactor m0 m1) >>= fun d' => pure (n', d') := by
  obtain ⟨f, hf⟩ := exists_decodeMultiplier.mpr hq.1
  obtain ⟨g, hg⟩ := exists_decodeMultiplier.mpr hq.2.1
  obtain ⟨hnum, hden⟩ := scaled_eq hf hg (ofBytes n) (ofBytes d)
  have hpass : ∀ {p : Prop} [Decidable p] {e : DividendXError}, p → ensure p e = .ok () :=
    fun h => Result.require_eq_ok.mpr h
  have hqualified : requireQualifiedFactor m0 m1 = .ok () := requireQualifiedFactor_eq_ok.mpr hq
  simp only [multiplyRatio]
  rw [hpass (by exact hn), hpass (by exact hd), hqualified, hf, hg, hpass hn0, hpass hd0]
  simp only [hnum, hden, bind, Except.bind]

/-- What `multiply_ratio` returns on inputs it may be given: the exact products, or that one of them
does not fit. -/
theorem multiplyRatio_cases {n d : List UInt8} {m0 m1 : UInt64} (hn : n.length ≤ 1024)
    (hd : d.length ≤ 1024)
    (hq : Qualified m0 m1) (hn0 : ofBytes n ≠ 0) (hd0 : ofBytes d ≠ 0) :
    multiplyRatio n d m0 m1 = .ok (toBytes (ofBytes n * numeratorFactor m0 m1),
        toBytes (ofBytes d * denominatorFactor m0 m1)) ∨
      multiplyRatio n d m0 m1 = .error (.custom .arithmeticBoundExceeded) ∧
        (1024 < (toBytes (ofBytes n * numeratorFactor m0 m1)).length ∨
          1024 < (toBytes (ofBytes d * denominatorFactor m0 m1)).length) := by
  have hfits : ∀ k : Nat, k < 256 ^ 1024 → boundedBytes k = .ok (toBytes k) :=
    fun k hk => boundedBytes_eq_ok.mpr ⟨hk, rfl⟩
  have hlarge : ∀ k : Nat, ¬ k < 256 ^ 1024 →
      boundedBytes k = .error (.custom .arithmeticBoundExceeded) ∧ 1024 < (toBytes k).length := by
    intro k hk
    refine ⟨boundedBytes_eq_error.mpr ⟨not_lt.mp hk, rfl⟩, ?_⟩
    rw [← not_le, length_toBytes_le_iff (by norm_num)]
    exact hk
  rw [multiplyRatio_eq hn hd hq hn0 hd0]
  by_cases hnum : ofBytes n * numeratorFactor m0 m1 < 256 ^ 1024
  · rw [hfits _ hnum]
    by_cases hden : ofBytes d * denominatorFactor m0 m1 < 256 ^ 1024
    · rw [hfits _ hden]
      exact .inl rfl
    · obtain ⟨herror, hlength⟩ := hlarge _ hden
      rw [herror]
      exact .inr ⟨rfl, .inr hlength⟩
  · obtain ⟨herror, hlength⟩ := hlarge _ hnum
    rw [herror]
    exact .inr ⟨rfl, .inl hlength⟩

/-- The two products stand in the ratio of the values. -/
theorem products_exact {m0 m1 : UInt64} (hq : Qualified m0 m1) (n d : Nat) :
    ((n * numeratorFactor m0 m1 : Nat) : ℚ) * d * value m1
      = n * value m0 * (d * denominatorFactor m0 m1 : Nat) := by
  have hden : (denominatorFactor m0 m1 : ℚ) ≠ 0 := by
    exact_mod_cast (denominatorFactor_pos m0 m1).ne'
  have hratio := (div_eq_div_iff hden hq.2.1.positiveNormal.value_pos.ne').mp (factor_ratio hq)
  push_cast
  linear_combination (n : ℚ) * d * hratio

/-- **The product step is value-exact.** On patterns that `require_qualified_factor` accepts and
fractions of nonempty bounded bytes, the step returns a fraction whose ratio to the given one is
that of the exact values of the multipliers, stored so that either side reads back the products it
computed; or it reports that the bound is exceeded, and then an exact product needs more bytes. The
order of accepted patterns is that of their values, so a fraction of at most one stays one. -/
theorem multiplyRatio_exact {n d : List UInt8} {m0 m1 : UInt64} (hn : n ≠ [] ∧ n.length ≤ 1024)
    (hd : d ≠ [] ∧ d.length ≤ 1024) (hn0 : ofBytes n ≠ 0) (hd0 : ofBytes d ≠ 0)
    (hq : requireQualifiedFactor m0 m1 = .ok ()) :
    (∀ a b : UInt64, (∃ f, decodeMultiplier a = .ok f) → (∃ g, decodeMultiplier b = .ok g) →
      (a ≤ b ↔ value a ≤ value b))
    ∧ ((∃ n' d', multiplyRatio n d m0 m1 = .ok (n', d')
        ∧ (ofBytes n' : ℚ) * ofBytes d * value m1 = ofBytes n * value m0 * ofBytes d'
        ∧ (ofBytes n ≤ ofBytes d → ofBytes n' ≤ ofBytes d')
        ∧ Sdk.bytesToBigIntLe n' = ofBytes n * numeratorFactor m0 m1
        ∧ Sdk.bytesToBigIntLe d' = ofBytes d * denominatorFactor m0 m1
        ∧ Sdk.bigintToMinimalLe (Sdk.bytesToBigIntLe n') = .ok n'
        ∧ Sdk.bigintToMinimalLe (Sdk.bytesToBigIntLe d') = .ok d')
      ∨ multiplyRatio n d m0 m1 = .error (.custom .arithmeticBoundExceeded)
        ∧ (1024 < (toBytes (ofBytes n * numeratorFactor m0 m1)).length
          ∨ 1024 < (toBytes (ofBytes d * denominatorFactor m0 m1)).length)) := by
  have hqualified := requireQualifiedFactor_eq_ok.mp hq
  refine ⟨fun a b ha hb => ?_, ?_⟩
  · exact (exists_decodeMultiplier.mp ha).positiveNormal.le_iff_value_le
      (exists_decodeMultiplier.mp hb).positiveNormal
  · refine (multiplyRatio_cases hn.2 hd.2 hqualified hn0 hd0).imp_left fun hok => ⟨_, _, hok, ?_⟩
    simp only [Sdk.bytesToBigIntLe_eq, ofBytes_toBytes, Sdk.bigintToMinimalLe_natCast, and_true]
    exact ⟨products_exact hqualified _ _,
      fun hle => Nat.mul_le_mul hle (numeratorFactor_le hqualified)⟩

/-- The step from `1 / 1` by a doubling. -/
theorem multiplyRatio_exact_sample :
    multiplyRatio [1] [1] 0x3ff0000000000000 0x4000000000000000 = .ok
      (toBytes (2 ^ 52), toBytes (2 ^ 53))
    ∧ value 0x3ff0000000000000 ≤ value 0x4000000000000000 := by
  have hqualified : requireQualifiedFactor 0x3ff0000000000000 0x4000000000000000 = .ok () := by
    decide +kernel
  obtain ⟨horder, -⟩ :=
    multiplyRatio_exact (n := [1]) (d := [1]) (by decide) (by decide)
      (by decide) (by decide) hqualified
  exact ⟨by decide +kernel, (horder _ _ ⟨_, rfl⟩ ⟨_, rfl⟩).mp (by decide)⟩

end DividendX
