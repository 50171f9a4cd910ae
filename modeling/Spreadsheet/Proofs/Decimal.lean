import Spreadsheet.Numeral.Shortest

/-!
# Decimal fractions and floats

A decimal fraction names the float that is nearest to it. How the fraction is written makes no
difference: zeros at the end of the digits may move into the exponent, whatever the size of
the exponent (`Decimal.rank_scale`). So the shortest decimal fraction of a float names that
float, and so does its text.

## The caps

The power of ten in `Decimal.rank` is capped on both sides. Past the caps a magnitude is
so great that it rounds to `infinity`, or so small that it rounds to zero, and one more
factor of ten changes neither.
-/

namespace Spreadsheet

/-! ## Rounding -/

namespace Binary64

variable {k num den : Nat}

theorem roundHalfEven_mul_left (hk : 0 < k) :
    roundHalfEven (k * num) (k * den) = roundHalfEven num den := by
  have hlt : 2 * (k * (num % den)) < k * den ↔ 2 * (num % den) < den := by
    rw [Nat.mul_left_comm, Nat.mul_lt_mul_left hk]
  have heq : 2 * (k * (num % den)) = k * den ↔ 2 * (num % den) = den := by
    rw [Nat.mul_left_comm, Nat.mul_right_inj (Nat.ne_of_gt hk)]
  simp only [roundHalfEven, Nat.mul_div_mul_left _ _ hk, Nat.mul_mod_mul_left, hlt, heq]

theorem nearest_mul_left (hk : 0 < k) : nearest (k * num) (k * den) = nearest num den := by
  simp only [nearest, Nat.mul_div_mul_left _ _ hk, Nat.mul_assoc, roundHalfEven_mul_left hk]

theorem nearest_mul_ten (d u k : Nat) :
    nearest (d * 10 * u) (10 ^ (k + 1)) = nearest (d * u) (10 ^ k) := by
  rw [Nat.pow_succ, Nat.mul_comm d, Nat.mul_assoc, Nat.mul_comm _ 10]
  exact nearest_mul_left (by decide)

theorem nearest_eq_zero (hden : 0 < den) (h : 2 * num ≤ den) : nearest num den = 0 := by
  have hdiv : num / den = 0 := Nat.div_eq_of_lt (by omega)
  have hmod : num % den = num := Nat.mod_eq_of_lt (by omega)
  have hround : roundHalfEven num den = 0 := by
    rw [roundHalfEven, hdiv, hmod]
    exact if_pos (by omega)
  simp [nearest, hdiv, hround]

/-- A magnitude from `2 ^ 1024` on is past the finite floats. There are `2 ^ 1074` units in one. -/
theorem nearest_eq_infinity {m : Nat} (hm : 1024 + 1074 ≤ m) (hden : 0 < den)
    (h : 2 ^ m * den ≤ num) : nearest num den = infinity := by
  have hq : 2 ^ m ≤ num / den := (Nat.le_div_iff_mul_le hden).mpr h
  have hq0 : num / den ≠ 0 := Nat.ne_of_gt (Nat.lt_of_lt_of_le (Nat.two_pow_pos _) hq)
  have hlog : m ≤ (num / den).log2 := (Nat.le_log2 hq0).mpr hq
  obtain ⟨s, hs⟩ : ∃ s, (num / den).log2 = s + 52 := ⟨_, (Nat.sub_add_cancel (by omega)).symm⟩
  have hround : 2 ^ 52 ≤ roundHalfEven num (den * 2 ^ s) := by
    have hdiv : 2 ^ 52 ≤ num / (den * 2 ^ s) := by
      rw [← Nat.div_div_eq_div_mul, Nat.le_div_iff_mul_le (Nat.two_pow_pos s), ← Nat.pow_add,
        Nat.add_comm, ← hs]
      exact Nat.log2_self_le hq0
    simp only [roundHalfEven]
    split
    · exact hdiv
    · exact Nat.le_succ_of_le hdiv
  simp only [nearest, hs, Nat.add_sub_cancel]
  refine Nat.min_eq_right ?_
  unfold infinity
  omega

end Binary64

/-! ## Zeros at the end of the digits -/

namespace Decimal

open Binary64

/-- How many units make one. -/
def unitsPerOne : Nat := 2 ^ 1074

theorem unitsPerOne_eq : ∃ u, u = 1074 ∧ unitsPerOne = 2 ^ u := ⟨1074, rfl, by rw [unitsPerOne]⟩

theorem rank_natCast (d k : Nat) : rank ⟨d, k⟩ = nearest (d * 10 ^ min k 400 * unitsPerOne) 1 := by
  rw [unitsPerOne]
  exact if_pos (Int.natCast_nonneg k)

theorem rank_neg_succ (d k : Nat) :
    rank ⟨d, -(k + 1 : Nat)⟩ = nearest (d * unitsPerOne) (10 ^ min (k + 1) (d.log2 + 400)) := by
  rw [unitsPerOne]
  exact if_neg (by dsimp only; omega)

theorem rank_le_infinity (d : Decimal) : d.rank ≤ infinity := by
  unfold rank
  split
  · exact Nat.min_le_right _ _
  · exact Nat.min_le_right _ _

theorem eq_natCast_or_neg_succ (e : Int) : ∃ k : Nat, e = k ∨ e = -(k + 1 : Nat) := by
  cases e with
  | ofNat k => exact ⟨k, .inl rfl⟩
  | negSucc k => exact ⟨k, .inr rfl⟩

@[simp] theorem rank_zero (e : Int) : rank ⟨0, e⟩ = 0 := by
  obtain ⟨k, rfl | rfl⟩ := eq_natCast_or_neg_succ e
  · rw [rank_natCast, Nat.zero_mul, Nat.zero_mul]
    exact nearest_eq_zero Nat.one_pos (by decide)
  · rw [rank_neg_succ, Nat.zero_mul]
    exact nearest_eq_zero (Nat.pow_pos (by decide)) (Nat.zero_le _)

section Caps

variable {d k : Nat}

theorem two_pow_le_ten_pow {m : Nat} (h : m ≤ 3 * k) : 2 ^ m ≤ 10 ^ k :=
  calc 2 ^ m ≤ 2 ^ (3 * k) := Nat.pow_le_pow_right (by decide) h
    _ = 8 ^ k := Nat.pow_mul 2 3 k
    _ ≤ 10 ^ k := Nat.pow_le_pow_left (by decide) k

theorem nearest_eq_zero_of_log2 (hk : d.log2 + 1076 ≤ 3 * k) :
    nearest (d * unitsPerOne) (10 ^ k) = 0 := by
  obtain ⟨u, hu, hone⟩ := unitsPerOne_eq
  refine nearest_eq_zero (Nat.pow_pos (by decide)) ?_
  calc 2 * (d * unitsPerOne) ≤ 2 * (2 ^ (d.log2 + 1) * unitsPerOne) :=
        Nat.mul_le_mul_left _ (Nat.mul_le_mul_right _ (Nat.le_of_lt Nat.lt_log2_self))
    _ = 2 ^ (d.log2 + 1 + u + 1) := by rw [hone, ← Nat.pow_add, Nat.pow_succ, Nat.mul_comm]
    _ ≤ 10 ^ k := two_pow_le_ten_pow (by omega)

theorem nearest_eq_infinity_of_le (hd : 0 < d) (hk : 1024 ≤ 3 * k) :
    nearest (d * 10 ^ k * unitsPerOne) 1 = infinity := by
  obtain ⟨u, hu, hone⟩ := unitsPerOne_eq
  have hm : 1024 + 1074 ≤ 3 * k + u := by omega
  refine nearest_eq_infinity hm Nat.one_pos ?_
  calc 2 ^ (3 * k + u) * 1 = 2 ^ (3 * k) * unitsPerOne := by rw [Nat.mul_one, Nat.pow_add, hone]
    _ ≤ 10 ^ k * unitsPerOne := Nat.mul_le_mul_right _ (two_pow_le_ten_pow (Nat.le_refl _))
    _ ≤ d * 10 ^ k * unitsPerOne := Nat.mul_le_mul_right _ (Nat.le_mul_of_pos_left _ hd)

theorem log2_mul_ten_bounds (hd : 0 < d) :
    d.log2 + 3 ≤ (d * 10).log2 ∧ (d * 10).log2 < d.log2 + 5 := by
  have hlow := Nat.log2_self_le (Nat.ne_of_gt hd)
  have hhigh : d < 2 ^ (d.log2 + 1) := Nat.lt_log2_self
  rw [Nat.le_log2 (by omega), Nat.log2_lt (by omega), Nat.pow_add, Nat.pow_add]
  rw [Nat.pow_add] at hhigh
  omega

end Caps

/-- Below the cap the powers of ten agree, and from it on both sides are past the floats. -/
theorem rank_mul_ten_natCast {d : Nat} (hd : 0 < d) (k : Nat) :
    rank ⟨d * 10, k⟩ = rank ⟨d, k + 1⟩ := by
  rw [rank_natCast, ← Int.natCast_succ, rank_natCast]
  by_cases hk : k < 400
  · have hpow : d * 10 * 10 ^ k = d * 10 ^ (k + 1) := by
      rw [Nat.pow_succ, Nat.mul_assoc, Nat.mul_comm 10]
    rw [Nat.min_eq_left (by omega), Nat.min_eq_left (by omega), hpow]
  · rw [nearest_eq_infinity_of_le (by omega) (by omega), nearest_eq_infinity_of_le hd (by omega)]

theorem rank_mul_ten_neg_one (d : Nat) : rank ⟨d * 10, -(0 + 1 : Nat)⟩ = rank ⟨d, (0 : Nat)⟩ := by
  rw [rank_natCast, rank_neg_succ, Nat.min_eq_left (by omega), nearest_mul_ten]
  simp

/-- Unless the caps are reached ten cancels, and past them both sides are zero. -/
theorem rank_mul_ten_neg_succ {d : Nat} (hd : 0 < d) (k : Nat) :
    rank ⟨d * 10, -(k + 1 + 1 : Nat)⟩ = rank ⟨d, -(k + 1 : Nat)⟩ := by
  obtain ⟨hlow, hhigh⟩ := log2_mul_ten_bounds hd
  rw [rank_neg_succ, rank_neg_succ]
  by_cases hk : k + 1 ≤ d.log2 + 400
  · rw [Nat.min_eq_left (by omega), Nat.min_eq_left hk]
    exact nearest_mul_ten _ _ _
  · rw [nearest_eq_zero_of_log2 (by omega), nearest_eq_zero_of_log2 (by omega)]

/-- **A zero at the end of the digits may move into the exponent.** -/
theorem rank_mul_ten (d : Nat) (e : Int) : rank ⟨d * 10, e⟩ = rank ⟨d, e + 1⟩ := by
  rcases Nat.eq_zero_or_pos d with rfl | hd
  · rw [Nat.zero_mul, rank_zero, rank_zero]
  obtain ⟨k, rfl | rfl⟩ := eq_natCast_or_neg_succ e
  · exact rank_mul_ten_natCast hd k
  · cases k with
    | zero => exact rank_mul_ten_neg_one d
    | succ k =>
      rw [rank_mul_ten_neg_succ hd k]
      congr 2

theorem rank_scale (d k : Nat) (e : Int) : rank ⟨d * 10 ^ k, e⟩ = rank ⟨d, e + k⟩ := by
  induction k generalizing e with
  | zero => simp
  | succ k ih =>
    rw [Nat.pow_succ, ← Nat.mul_assoc, rank_mul_ten, ih]
    congr 2
    omega

/-! ## The shortest fraction of a float -/

/-- The exact value of a magnitude in units, as a decimal fraction. -/
theorem rank_mul_five_pow {n k : Nat} (hn : 0 < n) (hone : unitsPerOne = 2 ^ (k + 1)) :
    rank ⟨n * 5 ^ (k + 1), -(k + 1 : Nat)⟩ = nearest (n * 10 ^ (k + 1)) (10 ^ (k + 1)) := by
  have hpos : 0 < n * 5 ^ (k + 1) := Nat.mul_pos hn (Nat.pow_pos (by decide))
  have hlog : k + 1 ≤ (n * 5 ^ (k + 1)).log2 := by
    rw [Nat.le_log2 (Nat.ne_of_gt hpos)]
    calc 2 ^ (k + 1) ≤ 5 ^ (k + 1) := Nat.pow_le_pow_left (by decide) _
      _ ≤ n * 5 ^ (k + 1) := Nat.le_mul_of_pos_left _ hn
  rw [rank_neg_succ, Nat.min_eq_left (by omega), hone, Nat.mul_assoc, ← Nat.mul_pow]

theorem units_pos {r : Nat} (hpos : 0 < r) : 0 < units r := by
  obtain ⟨-, hge⟩ := significand_bounds r
  refine Nat.mul_pos ?_ (Nat.two_pow_pos _)
  rcases Nat.eq_zero_or_pos (scale r) with hzero | hscale
  · rw [hzero]
    omega
  · have := hge hscale
    omega

theorem rank_ofRank {r : Nat} (hpos : 0 < r) (hlt : r < infinity) : (ofRank r).rank = r := by
  obtain ⟨u, hu, hone⟩ := unitsPerOne_eq
  obtain ⟨k, rfl⟩ : ∃ k, u = k + 1 := ⟨u - 1, by omega⟩
  have hexponent : (-1074 : Int) = -(k + 1 : Nat) := by omega
  rw [ofRank, ← hu, hexponent, rank_mul_five_pow (units_pos hpos) hone]
  exact nearest_units hlt (Nat.pow_pos (by decide))

theorem rank_trimZeros (d : Decimal) : d.trimZeros.rank = d.rank := by
  fun_induction trimZeros d with
  | case1 d h ih =>
    rw [ih, ← rank_mul_ten, Nat.div_mul_cancel (Nat.dvd_of_mod_eq_zero h.2)]
  | case2 d h => rfl

/-- **The shortest fraction of a float names it.** -/
theorem rank_shortest {r : Nat} (hpos : 0 < r) (hlt : r < infinity) : (shortest r).rank = r := by
  rw [shortest, rank_trimZeros]
  cases hfound : (List.range 17).findSome? fun k ↦
    ((ofRank r).cuts (digitCount (ofRank r).digits - (k + 1))).find? fun d ↦ d.rank == r with
  | none => exact rank_ofRank hpos hlt
  | some d =>
    obtain ⟨k, -, hk⟩ := List.exists_of_findSome?_eq_some hfound
    have hrank := List.find?_some hk
    exact beq_iff_eq.mp hrank

theorem rank_of_whole? {r n : Nat} (hlt : r < infinity) (h : whole? r = some n) :
    rank ⟨n, 0⟩ = r := by
  obtain ⟨u, hu, hone⟩ := unitsPerOne_eq
  rw [whole?, ← hu] at h
  split at h
  · rename_i hmod
    rw [Option.some_inj] at h
    have hunits : n * unitsPerOne = units r * 1 := by
      rw [hone, ← h, Nat.div_mul_cancel (Nat.dvd_of_mod_eq_zero hmod), Nat.mul_one]
    have hrank := rank_natCast n 0
    rw [Nat.zero_min, Nat.pow_zero, Nat.mul_one, hunits, nearest_units hlt Nat.one_pos] at hrank
    exact hrank
  · cases h

end Decimal

end Spreadsheet
