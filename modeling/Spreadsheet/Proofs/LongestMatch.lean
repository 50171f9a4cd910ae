import Spreadsheet.Proofs.Pattern

/-!
# The longest match

The match that the search comes to first need not be the longest one: a part that takes all it can
may leave less than the next part could use. The patterns of tokens are `Greedy`, which says that
for them it is the longest one. That is shown for a pattern from its parts. Where one part comes
after the other, what the first part gives back must not be of use to the second one (`greedy_seq`).

In a number the part before the exponent may give back what it has taken. The exponent has no use
for that, as these are digits and points only (`Only`), and none of them is the mark of an exponent.
-/

namespace Spreadsheet

namespace Text.Pattern

variable {a b : Pattern} {p isIn : Char → Bool} {c : Char} {cs r r' : List Char}

/-- Of some matches the first one takes the most characters. -/
def LongestFirst (rs : List (List Char)) : Prop := ∀ r ∈ rs.head?, ∀ r' ∈ rs, r.length ≤ r'.length

/-- In any text the first match of the pattern is the longest one. -/
def Greedy (a : Pattern) : Prop := ∀ cs, LongestFirst (a.rests cs)

/-! ## Single parts -/

theorem longestFirst_nil : LongestFirst [] := nofun

theorem longestFirst_singleton (r : List Char) : LongestFirst [r] := by
  intro s hs t ht
  cases hs
  exact (List.mem_singleton.mp ht) ▸ Nat.le_refl _

theorem greedy_one : (one isIn).Greedy := by
  intro cs
  rcases cs with _ | ⟨c, cs⟩
  · exact longestFirst_nil
  · rw [rests]
    split
    · exact longestFirst_singleton cs
    · exact longestFirst_nil

theorem dropWhile_eq_of_mem_restsOfMany (h : r ∈ restsOfMany isIn cs) :
    r.dropWhile isIn = cs.dropWhile isIn := by
  obtain ⟨front, rfl, hfront⟩ := exists_of_mem_restsOfMany h
  rw [List.dropWhile_append_of_pos hfront]

theorem dropWhile_eq_of_mem_run (h : r ∈ (run isIn).rests cs) :
    r.dropWhile isIn = cs.dropWhile isIn := by
  rcases cs with _ | ⟨c, cs⟩
  · cases h
  · rw [run, rests_one_seq, List.mem_ite_nil_right] at h
    rw [dropWhile_eq_of_mem_restsOfMany h.2, List.dropWhile_cons_of_pos h.1]

theorem greedy_many : (many isIn).Greedy := by
  intro cs r hr r' hr'
  have hfirst : some r = some (cs.dropWhile isIn) := hr.symm.trans (first?_many cs)
  rw [Option.some.inj hfirst, ← dropWhile_eq_of_mem_restsOfMany hr']
  exact (List.dropWhile_sublist isIn).length_le

theorem greedy_opt (ha : a.Greedy) : (opt a).Greedy := by
  intro cs r hr r' hr'
  rw [rests] at hr hr'
  rcases hrests : a.rests cs with _ | ⟨first, more⟩
  · rw [hrests] at hr hr'
    exact longestFirst_singleton cs r hr r' hr'
  · rw [hrests, List.cons_append, List.head?_cons] at hr
    obtain rfl := Option.some.inj hr
    rcases List.mem_append.mp hr' with hr' | hr'
    · exact ha cs first (by rw [hrests]; rfl) r' (hrests ▸ hr')
    · -- the option that takes nothing
      rw [List.mem_singleton.mp hr']
      exact (suffix_of_mem_rests (by rw [hrests]; exact List.mem_cons_self)).length_le

theorem greedy_alt (ha : a.Greedy) (hb : b.Greedy) (hor : ∀ cs, a.rests cs = [] ∨ b.rests cs = []) :
    (alt a b).Greedy := by
  intro cs
  rw [rests]
  rcases hor cs with hnil | hnil
  · rw [hnil]
    exact hb cs
  · rw [hnil, List.append_nil]
    exact ha cs

/-! ## One part after the other -/

theorem greedy_one_seq (hb : b.Greedy) : (seq (one isIn) b).Greedy := by
  intro cs
  rcases cs with _ | ⟨c, cs⟩
  · exact longestFirst_nil
  · rw [rests_one_seq]
    split
    · exact hb cs
    · exact longestFirst_nil

theorem greedy_run : (run isIn).Greedy := greedy_one_seq greedy_many

theorem greedy_opt_one_seq (hb : b.Greedy) (h : b.Refuses isIn) :
    (seq (opt (one isIn)) b).Greedy := by
  intro cs
  rw [rests_opt_seq h]
  exact hb _

/-! ## The characters of a match -/

/-- The pattern takes characters of one class only. -/
def Only (p : Char → Bool) : Pattern → Prop
  | one isIn | many isIn => ∀ c, isIn c = true → p c = true
  | opt a => Only p a
  | seq a b | alt a b => Only p a ∧ Only p b

theorem Only.exists_front (ha : a.Only p) (h : r ∈ a.rests cs) :
    ∃ front, cs = front ++ r ∧ ∀ c ∈ front, p c = true := by
  induction a generalizing cs r with
  | one isIn =>
    rcases cs with _ | ⟨c, cs⟩
    · cases h
    · rw [rests, List.mem_ite_nil_right, List.mem_singleton] at h
      obtain ⟨hc, rfl⟩ := h
      exact ⟨[c], rfl, List.forall_mem_singleton.mpr (ha c hc)⟩
  | many isIn =>
    obtain ⟨front, hcs, hfront⟩ := exists_of_mem_restsOfMany h
    exact ⟨front, hcs, fun c hc ↦ ha c (hfront c hc)⟩
  | opt a ih =>
    rcases List.mem_append.mp h with h | h
    · exact ih ha h
    · exact ⟨[], (List.mem_singleton.mp h).symm, List.forall_mem_nil _⟩
  | seq a b ihFirst ihSecond =>
    obtain ⟨mid, hmid, hr⟩ := List.mem_flatMap.mp h
    obtain ⟨front, rfl, hfront⟩ := ihFirst ha.1 hmid
    obtain ⟨back, rfl, hback⟩ := ihSecond ha.2 hr
    exact ⟨front ++ back, (List.append_assoc ..).symm, List.forall_mem_append.mpr ⟨hfront, hback⟩⟩
  | alt a b ihFirst ihSecond =>
    rcases List.mem_append.mp h with h | h
    · exact ihFirst ha.1 h
    · exact ihSecond ha.2 h

/-- What a match gives back to a shorter one begins with a character of the class. -/
theorem Only.eq_or_exists_cons (ha : a.Only p) (h : r ∈ a.rests cs) (h' : r' ∈ a.rests cs)
    (hlen : r.length ≤ r'.length) : r' = r ∨ ∃ c more, r' = c :: more ∧ p c = true := by
  obtain ⟨front, rfl, hfront⟩ := ha.exists_front h
  obtain ⟨front', hcs, -⟩ := ha.exists_front h'
  rcases List.append_eq_append_iff.mp hcs with ⟨back, -, rfl⟩ | ⟨back, rfl, rfl⟩
  · have hback : back = [] := by
      rw [List.length_append] at hlen
      exact List.length_eq_zero_iff.mp (by omega)
    exact .inl (by rw [hback, List.nil_append])
  · rcases back with _ | ⟨c, back⟩
    · exact .inl rfl
    · exact .inr ⟨c, back ++ r, rfl, hfront c (by simp)⟩

/-! ## Giving back -/

/-- **One part after the other**, where the second part takes no more than it is given back. -/
theorem greedy_seq (ha : a.Greedy) (hp : a.Only p) (hb : b.Greedy) (htotal : ∀ cs, b.rests cs ≠ [])
    (hback : ∀ cs, ∀ mid ∈ a.first? cs, ∀ c more, c :: more ∈ a.rests cs → p c = true →
      ∀ r ∈ b.first? (c :: more), mid.length ≤ r.length) : (seq a b).Greedy := by
  intro cs r hr r' hr'
  obtain ⟨mid, hmid, hr⟩ := Option.bind_eq_some_iff.mp ((first?_seq htotal cs).symm.trans hr)
  obtain ⟨mid', hmid', hr'⟩ := List.mem_flatMap.mp hr'
  have hlen := ha cs mid hmid mid' hmid'
  rcases hp.eq_or_exists_cons (List.mem_of_mem_head? hmid) hmid' hlen with rfl | ⟨c, more, rfl, hc⟩
  · exact hb mid' r hr r' hr'
  · obtain ⟨first, others, hfirst⟩ := List.exists_cons_of_ne_nil (htotal (c :: more))
    have hhead : b.first? (c :: more) = some first := by
      rw [first?, hfirst]
      rfl
    calc r.length
        ≤ mid.length := (suffix_of_mem_rests (List.mem_of_mem_head? hr)).length_le
      _ ≤ first.length := hback cs mid hmid c more hmid' hc first hhead
      _ ≤ r'.length := hb (c :: more) first hhead r' hr'

theorem greedy_seq_of_stops (ha : a.Greedy) (hp : a.Only p) (hb : b.Greedy)
    (htotal : ∀ cs, b.rests cs ≠ [])
    (hstop : ∀ c cs, p c = true → b.first? (c :: cs) = some (c :: cs)) : (seq a b).Greedy := by
  refine greedy_seq ha hp hb htotal fun cs mid hmid c more hmem hc r hr ↦ ?_
  obtain rfl := Option.some.inj ((hstop c more hc).symm.trans hr)
  exact ha cs mid hmid _ hmem

end Text.Pattern

/-! ## The patterns of tokens -/

namespace DecimalText

open Text Text.Pattern

theorem greedy_fractionPattern : fractionPattern.Greedy := by
  have hpoint : (Pattern.opt (.one (· == '.'))).Only (· == '.') := fun _ ↦ id
  refine greedy_seq_of_stops (greedy_opt greedy_one) hpoint greedy_many
    rests_many_ne_nil fun c cs hc ↦ ?_
  rw [first?_many, List.dropWhile_cons_of_neg]
  rw [beq_iff_eq.mp hc]
  decide

/-- Digits before a point that are given back are taken by the fraction, up to where they end. -/
theorem greedy_mantissaPattern : mantissaPattern.Greedy := by
  have hdigits : (Pattern.run isDigit).Only isDigit := ⟨fun _ ↦ id, fun _ ↦ id⟩
  have hpoint : ∀ c, isDigit c = true → (c == '.') = false := by
    intro c hc
    rw [beq_eq_false_iff_ne]
    rintro rfl
    exact absurd hc (by decide)
  refine greedy_alt (greedy_seq greedy_run hdigits greedy_fractionPattern
    rests_fractionPattern_ne_nil ?_)
    (greedy_one_seq greedy_run) ?_
  · intro cs mid hmid c more hmem hc r hr
    have hmid : mid = cs.dropWhile isDigit := by
      have hrun := (first?_run cs).symm.trans hmid
      split at hrun
      · cases hrun
      · exact (Option.some.inj hrun).symm
    have hskip : skip (· == '.') (c :: more) = c :: more := by
      refine skip_of_head? fun d hd ↦ ?_
      cases hd
      exact hpoint c hc
    have hr := Option.some.inj ((first?_fractionPattern _).symm.trans hr)
    rw [← hr, hskip, dropWhile_eq_of_mem_run hmem, hmid]
  · intro cs
    rcases cs with _ | ⟨c, cs⟩
    · exact .inl rfl
    · by_cases hc : isDigit c = true
      · exact .inr (refuses_seq (refuses_one hpoint) c cs hc)
      · refine .inl ?_
        rw [rests, run, rests_one_seq, if_neg hc, List.flatMap_nil]

theorem greedy_exponentPattern : exponentPattern.Greedy :=
  greedy_one_seq (greedy_opt_one_seq greedy_run run_isDigit_refuses_sign)

/-- **A number is matched as far as it can be.** No digit and no point is the mark of an
exponent. -/
theorem greedy_pattern : pattern.Greedy := by
  have hmantissa : mantissaPattern.Only fun c ↦ isDigit c || c == '.' := by
    have hdigit : ∀ c, isDigit c = true → (isDigit c || c == '.') = true := fun c hc ↦ by simp [hc]
    have hpoint : ∀ c, (c == '.') = true → (isDigit c || c == '.') = true := fun c hc ↦ by simp [hc]
    exact ⟨⟨⟨hdigit, hdigit⟩, hpoint, hdigit⟩, hpoint, hdigit, hdigit⟩
  refine greedy_seq_of_stops greedy_mantissaPattern hmantissa (greedy_opt greedy_exponentPattern)
    rests_opt_ne_nil fun c cs hc ↦ ?_
  have hmark : ¬ (c = 'e' ∨ c = 'E') := by
    rintro (rfl | rfl) <;> exact absurd hc (by decide)
  rw [first?_opt, first?_exponentPattern, if_neg hmark]
  rfl

end DecimalText

namespace CellRef.Spelling

open Text Text.Pattern

/-- **A reference is matched as far as it can be.** Only its last digits can be given back. -/
theorem greedy_pattern : pattern.Greedy := by
  intro cs
  rw [rests_pattern]
  dsimp only
  split
  · exact longestFirst_nil
  · exact greedy_run _

end CellRef.Spelling

namespace Token

open Text Text.Pattern

theorem greedy_namePattern : namePattern.Greedy := greedy_one_seq greedy_many

theorem greedy_signPattern : signPattern.Greedy := greedy_one

end Token

end Spreadsheet
