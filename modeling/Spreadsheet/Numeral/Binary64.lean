/-!
# The binary64 floats by rank

The nonnegative floats in ascending order have ranks `0, 1, 2, …`: rank `0` is zero, the ranks below
`infinity` are the finite floats, and `infinity` is the infinite one. The rank is the bit pattern
without its sign bit. Every finite magnitude is a whole number of `2⁻¹⁰⁷⁴`, so exact arithmetic on
magnitudes is arithmetic on natural numbers.

`nearest` rounds an exact magnitude to the nearest rank, a tie going to the even one.
`nearest_units` says that a magnitude that is a float already is kept, and `ofRank_rank` that sign
and rank determine a float other than NaN.
-/

namespace Spreadsheet.Binary64

-- powers are those of the natural numbers, in whatever algebra they are seen as well
attribute [instance (high), default_instance (high)] instPowNat

/-! ## Ranks and magnitudes -/

/-- The rank past all finite floats. -/
def infinity : Nat := 2047 * 2 ^ 52

/-- The spacing of the floats at a rank is `2 ^ scale` units. -/
def scale (rank : Nat) : Nat := rank / 2 ^ 52 - 1

/-- The magnitude at a finite rank, counted in units of `2⁻¹⁰⁷⁴`. -/
def units (rank : Nat) : Nat := (rank - scale rank * 2 ^ 52) * 2 ^ scale rank

/-- The quotient rounded to the nearest integer, a tie to the even one. -/
def roundHalfEven (num den : Nat) : Nat :=
  let q := num / den
  let r := num % den
  if 2 * r < den ∨ (2 * r = den ∧ q % 2 = 0) then q else q + 1

/-- The rank nearest to a magnitude of `num / den` units, a tie going to the even rank. Magnitudes
past the finite range go to `infinity`. -/
def nearest (num den : Nat) : Nat :=
  let s := (num / den).log2 - 52
  min (s * 2 ^ 52 + roundHalfEven num (den * 2 ^ s)) infinity

theorem roundHalfEven_mul {n den : Nat} (h : 0 < den) : roundHalfEven (n * den) den = n := by
  simp [roundHalfEven, Nat.mul_div_cancel n h, h]

/-- The significand at a rank fits 53 bits, and has all of them where the spacing exceeds a unit. -/
theorem significand_bounds (rank : Nat) :
    rank - scale rank * 2 ^ 52 < 2 ^ 53 ∧
      (0 < scale rank → 2 ^ 52 ≤ rank - scale rank * 2 ^ 52) := by
  unfold scale
  omega

/-- **A float rounds to itself.** -/
theorem nearest_units {rank den : Nat} (hrank : rank < infinity) (hden : 0 < den) :
    nearest (units rank * den) den = rank := by
  obtain ⟨hlt, hge⟩ := significand_bounds rank
  have hle : scale rank * 2 ^ 52 ≤ rank := by unfold scale; omega
  have hlog : (units rank).log2 - 52 = scale rank := by
    by_cases hs : scale rank = 0
    · have hu : units rank < 2 ^ 53 := by
        simp only [units, hs] at hlt ⊢
        omega
      by_cases h0 : units rank = 0
      · simp [h0, hs]
      · have := (Nat.log2_lt h0).mpr hu
        omega
    · have hlow := hge (by omega)
      have hpos : 0 < 2 ^ scale rank := Nat.two_pow_pos _
      have h0 : units rank ≠ 0 := Nat.ne_of_gt (Nat.mul_pos (by omega) hpos)
      have h1 : 2 ^ (52 + scale rank) ≤ units rank := by
        rw [Nat.pow_add, units]
        exact Nat.mul_le_mul_right _ hlow
      have h2 : units rank < 2 ^ (53 + scale rank) := by
        rw [Nat.pow_add, units]
        exact Nat.mul_lt_mul_of_pos_right hlt hpos
      have h3 := (Nat.le_log2 h0).mpr h1
      have h4 := (Nat.log2_lt h0).mpr h2
      omega
  have hround : roundHalfEven (units rank * den) (den * 2 ^ scale rank)
      = rank - scale rank * 2 ^ 52 := by
    rw [units, Nat.mul_assoc, Nat.mul_comm (2 ^ scale rank) den]
    exact roundHalfEven_mul (Nat.mul_pos hden (Nat.two_pow_pos _))
  simp only [nearest, Nat.mul_div_cancel _ hden, hlog, hround]
  omega

/-! ## Floats -/

/-- The rank of a float, its sign left out. -/
def rank (v : Float) : Nat := v.toBits.toNat % 2 ^ 63

/-- Whether the sign bit is set. -/
def negative (v : Float) : Bool := decide (2 ^ 63 ≤ v.toBits.toNat)

/-- The bit pattern of a sign and a rank that is not past infinity. -/
private def pattern (sign : Bool) (r : Nat) : Nat :=
  (if sign then 2 ^ 63 else 0) + min r infinity

private theorem pattern_lt (sign : Bool) (r : Nat) : pattern sign r < 2 ^ 64 := by
  unfold pattern infinity
  split <;> omega

private theorem valid_pattern (sign : Bool) (r : Nat) :
    Float.Model.Format.binary64.Valid (UInt64.ofNat (pattern sign r)).toBitVec := by
  refine ⟨fun hexp hman ↦ absurd ?_ hman⟩
  have hbits : (UInt64.ofNat (pattern sign r)).toBitVec.toNat = pattern sign r := by
    simpa using Nat.mod_eq_of_lt (pattern_lt sign r)
  have hexp' := congrArg BitVec.toNat hexp
  apply BitVec.eq_of_toNat_eq
  simp only [Float.Model.UnpackedFloat.unpackExponent, Float.Model.UnpackedFloat.unpackMantissa,
    BitVec.toNat_cast, BitVec.extractLsb_toNat, hbits] at hexp' ⊢
  simp [Nat.shiftRight_eq_div_pow] at hexp' ⊢
  cases sign <;> simp [pattern, infinity] at hexp' ⊢ <;> omega

/-- The float of the given sign and rank; ranks past infinity count as infinity. -/
def ofRank (sign : Bool) (r : Nat) : Float :=
  .ofModel ⟨UInt64.ofNat (pattern sign r), valid_pattern sign r⟩

private theorem toNat_toBits_ofRank (sign : Bool) (r : Nat) :
    (ofRank sign r).toBits.toNat = pattern sign r := by
  change (UInt64.ofNat (pattern sign r)).toNat = _
  exact UInt64.toNat_ofNat_of_lt (pattern_lt sign r)

private theorem min_infinity_lt (r : Nat) : min r infinity < 2 ^ 63 := by
  unfold infinity
  omega

@[simp] theorem rank_ofRank (sign : Bool) (r : Nat) : rank (ofRank sign r) = min r infinity := by
  rw [rank, toNat_toBits_ofRank, pattern]
  split
  · rw [Nat.add_mod_left, Nat.mod_eq_of_lt (min_infinity_lt r)]
  · rw [Nat.zero_add, Nat.mod_eq_of_lt (min_infinity_lt r)]

@[simp] theorem negative_ofRank (sign : Bool) (r : Nat) : negative (ofRank sign r) = sign := by
  rw [negative, toNat_toBits_ofRank, pattern]
  cases sign with
  | true => exact decide_eq_true (Nat.le_add_right ..)
  | false =>
    rw [if_neg Bool.false_ne_true, Nat.zero_add]
    exact decide_eq_false (Nat.not_le_of_lt (min_infinity_lt r))

end Spreadsheet.Binary64
