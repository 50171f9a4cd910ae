import Mathlib.Data.List.Shortlex
import Spreadsheet.Proofs.Spelling

/-!
# The numbering of columns

The letters of a column are a numeral with the digits one to twenty-six. There is no nought
that could stand in front, so letters and columns are in bijection: the letters of a column
spell it (`number_letters`), and letters are those of the column that they spell, in lower
case (`letters_number`).

Without noughts more letters also mean a greater column. So columns are in the order of their
letters when shorter letters come first and letters of one length come by the alphabet, which is
`List.Shortlex`. The order of two columns is read off before their last letters if these differ
there, and off the last letters if not, so it is shown where the numeral grows, at its end.
-/

namespace Spreadsheet.Column

open Text List

/-! ## The order of letters -/

theorem letter_lt_letter {i j : Nat} (hlt : i < j) (hj : j < 26) : letter i < letter j := by
  have hletters : ∀ j < 26, ∀ i < j, letter i < letter j := by decide
  exact hletters j hj i hlt

theorem letter_bounds {place : Nat} (h : place < 26) : 'a' ≤ letter place ∧ letter place ≤ 'z' := by
  have hletters : ∀ place < 26, 'a' ≤ letter place ∧ letter place ≤ 'z' := by decide
  exact hletters place h

theorem bounds_of_mem_letters {col : Nat} {c : Char} (h : c ∈ letters col) : 'a' ≤ c ∧ c ≤ 'z' := by
  induction col using Nat.strongRecOn with
  | ind col ih =>
    rcases Nat.eq_zero_or_pos col with rfl | hpos
    · rw [letters_zero] at h
      cases h
    · rw [letters_of_pos hpos, mem_append, mem_singleton] at h
      rcases h with h | rfl
      · exact ih _ (by omega) h
      · exact letter_bounds (Nat.mod_lt _ (by decide))

section Shortlex

variable {cs ds : List Char}

/-- Where letters of one length differ, letters behind them make no difference. -/
theorem lex_append (h : Lex (· < ·) cs ds) (hlen : cs.length = ds.length) (es fs : List Char) :
    Lex (· < ·) (cs ++ es) (ds ++ fs) := by
  induction h with
  | nil => cases hlen
  | cons _ ih => exact .cons (ih (Nat.succ.inj hlen))
  | rel hlt => exact .rel hlt

theorem shortlex_concat (h : Shortlex (· < ·) cs ds) (c d : Char) :
    Shortlex (· < ·) (cs ++ [c]) (ds ++ [d]) := by
  rcases shortlex_def.mp h with hlt | ⟨hlen, hlex⟩
  · exact .of_length_lt (by simpa using hlt)
  · exact .of_lex (by simpa using hlen) (lex_append hlex hlen [c] [d])

end Shortlex

/-! ## The order of columns -/

variable {m n : Nat}

/-- **A later column has later letters.** -/
theorem shortlex_letters_of_lt (h : m < n) : Shortlex (· < ·) (letters m) (letters n) := by
  induction n using Nat.strongRecOn generalizing m with
  | ind n ih =>
    have hn : 0 < n := by omega
    rcases Nat.eq_zero_or_pos m with rfl | hm
    · rw [letters_zero]
      exact .of_length_lt (length_pos_of_ne_nil (letters_ne_nil hn))
    · rw [letters_of_pos hm, letters_of_pos hn]
      have hcut : (m - 1) / 26 < (n - 1) / 26 ∨
          (m - 1) / 26 = (n - 1) / 26 ∧ (m - 1) % 26 < (n - 1) % 26 := by omega
      rcases hcut with hfront | ⟨hfront, hlast⟩
      · exact shortlex_concat (ih _ (by omega) hfront) _ _
      · have hlt := letter_lt_letter hlast (Nat.mod_lt _ (by decide))
        rw [hfront]
        exact ((shortlex_singleton_iff _ _).mpr hlt).append_left _

/-- **Columns are in the order of their letters**, the shorter ones first. -/
theorem lt_iff_shortlex_letters : m < n ↔ Shortlex (· < ·) (letters m) (letters n) := by
  refine ⟨shortlex_letters_of_lt, fun h ↦ ?_⟩
  rcases Nat.lt_trichotomy m n with hlt | rfl | hgt
  · exact hlt
  · exact absurd h (asymm h)
  · exact absurd h (asymm (shortlex_letters_of_lt hgt))

/-! ## Reading and writing -/

theorem write_natCast (hn : 0 < n) : write n = .ok (String.ofList (letters n)) := by
  rw [write, if_pos (by omega), Int.toNat_natCast]

theorem read_of_letters {text : String} (hne : text ≠ "")
    (h : ∀ c ∈ text.toList, isLetter c = true) : read text = .ok (number text.toList) := by
  have hcs : text.toList.isEmpty = false := by
    rw [isEmpty_eq_false_iff]
    exact fun hnil ↦ hne (String.toList_injective hnil)
  simp only [read, hcs, all_eq_true.mpr h]
  rfl

theorem ofList_lt_ofList {cs ds : List Char} :
    String.ofList cs < String.ofList ds ↔ Lex (· < ·) cs ds := by
  change (String.ofList cs).toList < (String.ofList ds).toList ↔ _
  rw [String.toList_ofList, String.toList_ofList]
  exact Iff.rfl

/-- **Letters number the columns one by one.** Every column from one on is written in lower-case
letters, which read as that column. All letters read as a column, which is written as those letters
in lower case. And columns are in the order of their letters, the shorter ones first and those of
one length by the alphabet. -/
theorem write_numbering :
    (∀ col : Int, 1 ≤ col → ∃ text, write col = .ok text ∧ text ≠ "" ∧
      (∀ c ∈ text.toList, 'a' ≤ c ∧ c ≤ 'z') ∧ ∃ n : Nat, read text = .ok n ∧ n = col) ∧
    (∀ text : String, text ≠ "" → (∀ c ∈ text.toList, isLetter c = true) →
      ∃ col : Nat, read text = .ok col ∧ write col = .ok text.toLower) ∧
    ∀ col col' : Int, 1 ≤ col → 1 ≤ col' → ∃ text text',
      write col = .ok text ∧ write col' = .ok text' ∧
        (col < col' ↔ text.length < text'.length ∨ text.length = text'.length ∧ text < text') := by
  refine ⟨fun col hcol ↦ ?_, fun text hne hletters ↦ ?_, fun col col' hcol hcol' ↦ ?_⟩
  · lift col to Nat using by omega
    have hpos : 0 < col := by omega
    have hne : String.ofList (letters col) ≠ "" := fun h ↦
      letters_ne_nil hpos (String.ofList_injective h)
    refine ⟨_, write_natCast hpos, hne, fun c hc ↦ ?_, col, ?_, rfl⟩
    · exact bounds_of_mem_letters (String.toList_ofList ▸ hc)
    · rw [read_of_letters hne fun c hc ↦ isLetter_of_mem_letters (String.toList_ofList ▸ hc),
        String.toList_ofList, number_letters]
  · refine ⟨_, read_of_letters hne hletters, ?_⟩
    have hpos : 0 < number text.toList := number_pos fun hnil ↦ hne (String.toList_injective hnil)
    have hlower : String.ofList (text.toList.map Char.toLower) = text.toLower := by
      change _ = text.map Char.toLower
      rw [← String.toList_map, String.ofList_toList]
    rw [write_natCast hpos, letters_number hletters, hlower]
  · lift col to Nat using by omega
    lift col' to Nat using by omega
    refine ⟨_, _, write_natCast (by omega), write_natCast (by omega), ?_⟩
    rw [Int.ofNat_lt, lt_iff_shortlex_letters, shortlex_def, String.length_ofList,
      String.length_ofList, ofList_lt_ofList]

/-- The last column of three letters and the first one of four. -/
theorem write_numbering_zzz :
    (∃ text, write 18278 = .ok text ∧ text ≠ "" ∧ (∀ c ∈ text.toList, 'a' ≤ c ∧ c ≤ 'z') ∧
      ∃ n : Nat, read text = .ok n ∧ (n : Int) = 18278) ∧
    (∃ col : Nat, read "AaaA" = .ok col ∧ write col = .ok "AaaA".toLower) ∧
    ∃ text text', write 18278 = .ok text ∧ write 18279 = .ok text' ∧
      ((18278 : Int) < 18279 ↔
        text.length < text'.length ∨ text.length = text'.length ∧ text < text') := by
  obtain ⟨hwrite, hread, horder⟩ := write_numbering
  have hletters : "AaaA".toList.all isLetter = true := by decide
  exact ⟨hwrite 18278 (by decide), hread "AaaA" (by decide) (all_eq_true.mp hletters),
    horder 18278 18279 (by decide) (by decide)⟩

end Spreadsheet.Column
