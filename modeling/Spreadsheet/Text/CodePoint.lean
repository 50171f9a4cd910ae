/-!
# Sets of code points

A character class is kept as a table of ranges of code points in ascending order. `inRanges` looks
a code point up; `mem_of_inRanges` and `inRanges_of_mem` say that it finds exactly the ranges that
hold the code point, as long as the table ascends.
-/

namespace Spreadsheet.Text

/-- Whether `n` lies in one of the given ranges, which ascend: the first range that begins past `n`
settles the question. -/
def inRanges (n : Nat) : List (Nat × Nat) → Bool
  | [] => false
  | (lo, hi) :: rest => decide (lo ≤ n) && (decide (n ≤ hi) || inRanges n rest)

/-- The ranges begin one after the other. -/
def Ascending (ranges : List (Nat × Nat)) : Prop :=
  ranges.Pairwise fun r s ↦ r.1 ≤ s.1

theorem mem_of_inRanges {n : Nat} {ranges : List (Nat × Nat)} (h : inRanges n ranges = true) :
    ∃ r ∈ ranges, r.1 ≤ n ∧ n ≤ r.2 := by
  induction ranges with
  | nil => simp [inRanges] at h
  | cons r rest ih =>
    simp only [inRanges, Bool.and_eq_true, Bool.or_eq_true, decide_eq_true_eq] at h
    obtain ⟨hlo, hhi | hrest⟩ := h
    · exact ⟨r, List.mem_cons_self, hlo, hhi⟩
    · obtain ⟨s, hs, hn⟩ := ih hrest
      exact ⟨s, List.mem_cons_of_mem r hs, hn⟩

theorem inRanges_of_mem {n : Nat} {ranges : List (Nat × Nat)} (hasc : Ascending ranges)
    {r : Nat × Nat} (hr : r ∈ ranges) (hlo : r.1 ≤ n) (hhi : n ≤ r.2) :
    inRanges n ranges = true := by
  induction ranges with
  | nil => simp at hr
  | cons s rest ih =>
    have hasc' := List.pairwise_cons.mp hasc
    simp only [inRanges, Bool.and_eq_true, Bool.or_eq_true, decide_eq_true_eq]
    rcases List.mem_cons.mp hr with rfl | hmem
    · exact ⟨hlo, Or.inl hhi⟩
    · exact ⟨Nat.le_trans (hasc'.1 r hmem) hlo, Or.inr (ih hasc'.2 hmem)⟩

end Spreadsheet.Text
