import Spreadsheet.Proofs.Lexing

/-!
# Patterns

A token is what a pattern such as `\$?[A-Za-z]+\$?\d+` matches first. Matching is a search. A class
of characters that may repeat takes as many of them as there are, an optional part is taken if it
can be, and of two alternatives the first one is tried first; where the rest of the pattern then
does not match, the search goes back and takes less. `Pattern.rests` lists what each match leaves of
a text, in the order of the search, so the match that counts is the first one of the list.

## Patterns that never go back

The scanners of numbers, references and names look at each character once and never go back. They
are right because the patterns of tokens do not need it. Either what comes after a part matches any
text, so that there is no reason to go back (`first?_seq`), or it cannot begin with what the part
may take, so that taking less leads nowhere (`flatMap_restsOfMany`, `rests_opt_seq`). With this the
patterns are worked out from their parts, and each scanner finds what its pattern matches first.

## What comes after a match

A pattern looks at no character behind what it matches. So a text that ends earlier has the same
matches in the same order, as far as they end in time (`filter_rests_append`).
-/

namespace Spreadsheet

namespace Text

/-- What a text may look like at its front. -/
inductive Pattern
  /-- One character of a class. -/
  | one (isIn : Char → Bool)
  /-- Any number of characters of a class. -/
  | many (isIn : Char → Bool)
  /-- The inner pattern, or nothing. -/
  | opt (inner : Pattern)
  /-- One pattern after the other. -/
  | seq (a b : Pattern)
  /-- One pattern or the other. -/
  | alt (a b : Pattern)

namespace Pattern

/-! ## Matching -/

/-- What is left after as many characters of a class as there are, after one less, and so on. -/
def restsOfMany (isIn : Char → Bool) : List Char → List (List Char)
  | [] => [[]]
  | c :: cs => if isIn c then restsOfMany isIn cs ++ [c :: cs] else [c :: cs]

/-- What is left of a text after each match of the pattern, in the order of the search. -/
def rests : Pattern → List Char → List (List Char)
  | one _, [] => []
  | one isIn, c :: cs => if isIn c then [cs] else []
  | many isIn, cs => restsOfMany isIn cs
  | opt inner, cs => inner.rests cs ++ [cs]
  | seq a b, cs => (a.rests cs).flatMap b.rests
  | alt a b, cs => a.rests cs ++ b.rests cs

/-- What is left after the match that the search comes to first. -/
def first? (a : Pattern) (cs : List Char) : Option (List Char) := (a.rests cs).head?

/-- Characters of a class, one at least. -/
def run (isIn : Char → Bool) : Pattern := seq (one isIn) (many isIn)

variable {a b : Pattern} {isIn isIn' : Char → Bool} {c : Char} {cs r tail : List Char}

theorem drop_eq_of_append {front : List Char} (h : front ++ r = cs) : cs.drop front.length = r := by
  rw [← h, List.drop_left]

theorem first?_eq_none_iff : a.first? cs = none ↔ a.rests cs = [] := List.head?_eq_none_iff

/-! ## What comes after a match -/

theorem exists_of_mem_restsOfMany (h : r ∈ restsOfMany isIn cs) :
    ∃ front, cs = front ++ r ∧ ∀ c ∈ front, isIn c = true := by
  induction cs with
  | nil => exact ⟨[], (List.mem_singleton.mp h).symm, List.forall_mem_nil _⟩
  | cons c cs ih =>
    by_cases hc : isIn c = true
    · rw [restsOfMany, if_pos hc, List.mem_append, List.mem_singleton] at h
      rcases h with h | rfl
      · obtain ⟨front, rfl, hfront⟩ := ih h
        exact ⟨c :: front, rfl, List.forall_mem_cons.mpr ⟨hc, hfront⟩⟩
      · exact ⟨[], rfl, List.forall_mem_nil _⟩
    · rw [restsOfMany, if_neg hc, List.mem_singleton] at h
      exact ⟨[], h.symm, List.forall_mem_nil _⟩

theorem suffix_of_mem_rests (h : r ∈ a.rests cs) : r <:+ cs := by
  induction a generalizing cs r with
  | one isIn =>
    cases cs with
    | nil => cases h
    | cons c cs =>
      rw [rests, List.mem_ite_nil_right, List.mem_singleton] at h
      exact h.2 ▸ List.suffix_cons c cs
  | many isIn =>
    obtain ⟨front, rfl, -⟩ := exists_of_mem_restsOfMany h
    exact List.suffix_append front r
  | opt inner ih =>
    rcases List.mem_append.mp h with h | h
    · exact ih h
    · cases List.mem_singleton.mp h
      exact List.suffix_rfl
  | seq a b ihFirst ihSecond =>
    obtain ⟨mid, hmid, h⟩ := List.mem_flatMap.mp h
    exact (ihSecond h).trans (ihFirst hmid)
  | alt a b ihFirst ihSecond =>
    rcases List.mem_append.mp h with h | h
    · exact ihFirst h
    · exact ihSecond h

theorem filter_rests_of_lt {n : Nat} (h : cs.length < n) :
    (a.rests cs).filter (fun r ↦ n ≤ r.length) = [] := by
  refine List.filter_eq_nil_iff.mpr fun r hr ↦ ?_
  have := (suffix_of_mem_rests hr).length_le
  simp only [decide_eq_true_eq]
  omega

theorem flatMap_filter_of_nil {α β : Type} {p : α → Bool} {g : α → List β} {as : List α}
    (h : ∀ x, ¬ p x = true → g x = []) : (as.filter p).flatMap g = as.flatMap g := by
  induction as with
  | nil => rfl
  | cons x as ih =>
    by_cases hx : p x = true
    · rw [List.filter_cons_of_pos hx, List.flatMap_cons, List.flatMap_cons, ih]
    · rw [List.filter_cons_of_neg hx, List.flatMap_cons, h x hx, ih, List.nil_append]

theorem filter_restsOfMany_append (isIn : Char → Bool) (cs tail : List Char) :
    (restsOfMany isIn (cs ++ tail)).filter (fun r ↦ tail.length ≤ r.length)
      = (restsOfMany isIn cs).map (· ++ tail) := by
  induction cs with
  | nil =>
    cases tail with
    | nil => rfl
    | cons c tail =>
      have hshort : (restsOfMany isIn tail).filter (fun r ↦ tail.length + 1 ≤ r.length) = [] :=
        filter_rests_of_lt (a := many isIn) (Nat.lt_succ_self _)
      by_cases hc : isIn c = true
      · have hcons : restsOfMany isIn (c :: tail) = restsOfMany isIn tail ++ [c :: tail] :=
          if_pos hc
        rw [List.nil_append, List.length_cons, hcons, List.filter_append, hshort]
        simp [restsOfMany]
      · simp [restsOfMany, hc]
  | cons c cs ih =>
    have hlong : tail.length ≤ cs.length + tail.length + 1 := by omega
    by_cases hc : isIn c = true <;> simp [restsOfMany, hc, ih, hlong]

/-- **What comes after a match has no say in it.** A text that ends earlier has the same matches in
the same order, without those that would end later. -/
theorem filter_rests_append (a : Pattern) (cs tail : List Char) :
    (a.rests (cs ++ tail)).filter (fun r ↦ tail.length ≤ r.length)
      = (a.rests cs).map (· ++ tail) := by
  induction a generalizing cs with
  | one isIn =>
    cases cs with
    | nil =>
      cases tail with
      | nil => rfl
      | cons c tail => by_cases hc : isIn c = true <;> simp [rests, hc]
    | cons c cs => by_cases hc : isIn c = true <;> simp [rests, hc]
  | many isIn => exact filter_restsOfMany_append isIn cs tail
  | opt inner ih => simp [rests, ih]
  | alt a b ihFirst ihSecond => simp [rests, ihFirst, ihSecond]
  | seq a b ihFirst ihSecond =>
    -- a match of the first part that ends too late has no second part in time
    have hlate : ∀ mid : List Char, ¬ decide (tail.length ≤ mid.length) = true →
        (b.rests mid).filter (fun r ↦ tail.length ≤ r.length) = [] := fun mid hmid ↦
      filter_rests_of_lt (by simpa using hmid)
    calc ((seq a b).rests (cs ++ tail)).filter (fun r ↦ tail.length ≤ r.length)
        = (a.rests (cs ++ tail)).flatMap
            fun mid ↦ (b.rests mid).filter fun r ↦ tail.length ≤ r.length := List.filter_flatMap
      _ = ((a.rests cs).map (· ++ tail)).flatMap
            fun mid ↦ (b.rests mid).filter fun r ↦ tail.length ≤ r.length := by
          rw [← ihFirst, flatMap_filter_of_nil hlate]
      _ = ((seq a b).rests cs).map (· ++ tail) := by
          simp only [rests, List.flatMap_map, ihSecond, List.map_flatMap]

/-! ## Patterns that never go back -/

/-- What is left after one character of a class, if there is one at the front. -/
def skip (isIn : Char → Bool) : List Char → List Char
  | [] => []
  | c :: cs => if isIn c then cs else c :: cs

theorem skip_of_head? (h : ∀ c ∈ cs.head?, isIn c = false) : skip isIn cs = cs := by
  cases cs with
  | nil => rfl
  | cons c cs => simp [skip, h c rfl]

/-- The pattern matches nothing that begins with a character of the class. -/
def Refuses (a : Pattern) (isIn : Char → Bool) : Prop :=
  ∀ c cs, isIn c = true → a.rests (c :: cs) = []

theorem refuses_one (h : ∀ c, isIn c = true → isIn' c = false) : (one isIn').Refuses isIn :=
  fun c cs hc ↦ by simp [rests, h c hc]

theorem refuses_seq (h : a.Refuses isIn) : (seq a b).Refuses isIn :=
  fun c cs hc ↦ by rw [rests, h c cs hc, List.flatMap_nil]

theorem refuses_opt_seq (h : a.Refuses isIn) (h' : b.Refuses isIn) :
    (seq (opt a) b).Refuses isIn :=
  fun c cs hc ↦ by
    rw [rests, rests, h c cs hc, List.nil_append, List.flatMap_singleton, h' c cs hc]

theorem refuses_alt (h : a.Refuses isIn) (h' : b.Refuses isIn) : (alt a b).Refuses isIn :=
  fun c cs hc ↦ by rw [rests, h c cs hc, h' c cs hc, List.nil_append]

theorem refuses_run (h : ∀ c, isIn c = true → isIn' c = false) : (run isIn').Refuses isIn :=
  refuses_seq (refuses_one h)

/-- **Taking less of a run leads nowhere** if what comes next cannot begin with a character of
it. -/
theorem flatMap_restsOfMany {α : Type} {g : List Char → List α}
    (hg : ∀ c cs, isIn c = true → g (c :: cs) = []) (cs : List Char) :
    (restsOfMany isIn cs).flatMap g = g (cs.dropWhile isIn) := by
  induction cs with
  | nil => simp [restsOfMany]
  | cons c cs ih =>
    by_cases hc : isIn c = true
    · rw [restsOfMany, if_pos hc, List.flatMap_append, List.flatMap_singleton, ih, hg c cs hc,
        List.append_nil, List.dropWhile_cons_of_pos hc]
    · rw [restsOfMany, if_neg hc, List.flatMap_singleton, List.dropWhile_cons_of_neg hc]

theorem rests_one_seq (c : Char) (cs : List Char) :
    (seq (one isIn) b).rests (c :: cs) = if isIn c then b.rests cs else [] := by
  by_cases hc : isIn c = true <;> simp [rests, hc]

theorem rests_opt_seq (hb : b.Refuses isIn) (cs : List Char) :
    (seq (opt (one isIn)) b).rests cs = b.rests (skip isIn cs) := by
  cases cs with
  | nil => simp [rests, skip]
  | cons c cs =>
    by_cases hc : isIn c = true
    · simp [rests, skip, hc, hb c cs hc]
    · simp [rests, skip, hc]

theorem rests_run_seq (hb : b.Refuses isIn) (cs : List Char) :
    (seq (run isIn) b).rests cs
      = if cs.takeWhile isIn = [] then [] else b.rests (cs.dropWhile isIn) := by
  cases cs with
  | nil => rfl
  | cons c cs =>
    by_cases hc : isIn c = true
    · have hmany := flatMap_restsOfMany (g := b.rests) hb cs
      simp [run, rests, hc, hmany]
    · simp [run, rests, hc]

/-! ## The first match -/

theorem first?_many (cs : List Char) : (many isIn).first? cs = some (cs.dropWhile isIn) := by
  change (restsOfMany isIn cs).head? = _
  induction cs with
  | nil => rfl
  | cons c cs ih => by_cases hc : isIn c = true <;> simp [restsOfMany, hc, ih]

theorem first?_opt (cs : List Char) : (opt a).first? cs = some ((a.first? cs).getD cs) := by
  rw [first?, rests, List.head?_append, List.head?_singleton, Option.or_some]
  rfl

theorem first?_alt (cs : List Char) : (alt a b).first? cs = (a.first? cs).or (b.first? cs) :=
  List.head?_append

/-- If the second part matches any text, the first part never takes less. -/
theorem first?_seq (hb : ∀ cs, b.rests cs ≠ []) (cs : List Char) :
    (seq a b).first? cs = (a.first? cs).bind b.first? := by
  rw [first?, first?, rests]
  cases a.rests cs with
  | nil => rfl
  | cons r rs =>
    rw [List.flatMap_cons, List.head?_append_of_ne_nil _ (hb r)]
    rfl

theorem rests_many_ne_nil (cs : List Char) : (many isIn).rests cs ≠ [] := by
  intro hnil
  have hfirst : (many isIn).first? cs = some (cs.dropWhile isIn) := first?_many cs
  rw [first?_eq_none_iff.mpr hnil] at hfirst
  cases hfirst

theorem rests_opt_ne_nil (cs : List Char) : (opt a).rests cs ≠ [] :=
  List.append_ne_nil_of_right_ne_nil _ (List.cons_ne_nil _ _)

theorem rests_seq_ne_nil (ha : ∀ cs, a.rests cs ≠ []) (hb : ∀ cs, b.rests cs ≠ [])
    (cs : List Char) : (seq a b).rests cs ≠ [] := by
  obtain ⟨r, rs, hr⟩ := List.exists_cons_of_ne_nil (ha cs)
  rw [rests, hr, List.flatMap_cons]
  exact List.append_ne_nil_of_left_ne_nil (hb r) _

theorem first?_opt_one (cs : List Char) : (opt (one isIn)).first? cs = some (skip isIn cs) := by
  rw [first?_opt]
  cases cs with
  | nil => rfl
  | cons c cs => by_cases hc : isIn c = true <;> simp [first?, rests, skip, hc]

theorem first?_one_seq (c : Char) (cs : List Char) :
    (seq (one isIn) b).first? (c :: cs) = if isIn c then b.first? cs else none := by
  rw [first?, rests_one_seq]
  split <;> rfl

theorem first?_run (cs : List Char) :
    (run isIn).first? cs = if cs.takeWhile isIn = [] then none else some (cs.dropWhile isIn) := by
  cases cs with
  | nil => rfl
  | cons c cs =>
    rw [run, first?_one_seq, first?_many]
    by_cases hc : isIn c = true <;> simp [hc]

end Pattern

end Text

/-! ## Numbers -/

namespace DecimalText

open Text Text.Pattern

/-- The pattern `[eE][+-]?\d+` of exponents. -/
def exponentPattern : Pattern :=
  .seq (.one fun c ↦ c == 'e' || c == 'E')
    (.seq (.opt (.one fun c ↦ c == '+' || c == '-')) (.run isDigit))

/-- The pattern `\.?\d*` of what comes after the first digits. -/
def fractionPattern : Pattern := .seq (.opt (.one (· == '.'))) (.many isDigit)

/-- The pattern `\d+\.?\d*|\.\d+` of what comes before the exponent. -/
def mantissaPattern : Pattern :=
  .alt (.seq (.run isDigit) fractionPattern) (.seq (.one (· == '.')) (.run isDigit))

/-- The pattern `(?:\d+\.?\d*|\.\d+)(?:[eE][+-]?\d+)?` of numbers. -/
def pattern : Pattern := .seq mantissaPattern (.opt exponentPattern)

variable {cs : List Char}

theorem run_isDigit_refuses_sign : (Pattern.run isDigit).Refuses fun c ↦ c == '+' || c == '-' := by
  refine refuses_run fun c hc ↦ ?_
  rcases (by simpa using hc : c = '+' ∨ c = '-') with rfl | rfl <;> decide

theorem first?_exponentPattern (e : Char) (rest : List Char) :
    exponentPattern.first? (e :: rest)
      = if e = 'e' ∨ e = 'E' then
          (Pattern.run isDigit).first? (skip (fun c ↦ c == '+' || c == '-') rest)
        else none := by
  rw [exponentPattern, first?_one_seq, first?, rests_opt_seq run_isDigit_refuses_sign]
  simp only [Bool.or_eq_true, beq_iff_eq, first?]

theorem skip_sign {rest sign after : List Char}
    (h : (match rest with
      | s :: after => if s = '+' ∨ s = '-' then ([s], after) else ([], rest)
      | [] => ([], [])) = (sign, after)) :
    skip (fun c ↦ c == '+' || c == '-') rest = after ∧ rest = sign ++ after := by
  cases rest with
  | nil =>
    cases h
    exact ⟨rfl, rfl⟩
  | cons s rest =>
    by_cases hs : s = '+' ∨ s = '-'
    · cases (if_pos hs).symm.trans h
      simp [skip, hs]
    · cases (if_neg hs).symm.trans h
      simp [skip, hs]

theorem first?_opt_exponentPattern (cs : List Char) :
    (Pattern.opt exponentPattern).first? cs
      = some (cs.drop ((scanExponent cs).1 ++ (scanExponent cs).2).length) := by
  rw [first?_opt]
  congr 1
  fun_cases scanExponent cs with
  | case1 => rfl
  | case2 e rest mark sign after hsign hnil =>
    rw [first?_exponentPattern, if_pos mark, (skip_sign hsign).1, first?_run, if_pos hnil]
    rfl
  | case3 e rest mark sign after hsign hne =>
    obtain ⟨hskip, rfl⟩ := skip_sign hsign
    have hcs : e :: (sign ++ after)
        = (e :: sign ++ after.takeWhile isDigit) ++ after.dropWhile isDigit := by simp
    rw [first?_exponentPattern, if_pos mark, hskip, first?_run, if_neg hne, hcs, List.drop_left]
    rfl
  | case4 e rest mark =>
    rw [first?_exponentPattern, if_neg mark]
    rfl

/-- What comes before the exponent. -/
def mantissa (d : DecimalText) : List Char :=
  d.whole ++ (if d.point then ['.'] else []) ++ d.fraction

theorem rests_fractionPattern_ne_nil : ∀ cs, fractionPattern.rests cs ≠ [] :=
  rests_seq_ne_nil rests_opt_ne_nil rests_many_ne_nil

theorem first?_fractionPattern (cs : List Char) :
    fractionPattern.first? cs = some ((skip (· == '.') cs).dropWhile isDigit) := by
  rw [fractionPattern, first?_seq rests_many_ne_nil, first?_opt_one, Option.bind_some, first?_many]

theorem first?_mantissaPattern (cs : List Char) :
    mantissaPattern.first? cs
      = (if cs.takeWhile isDigit = [] then none else
          some ((skip (· == '.') (cs.dropWhile isDigit)).dropWhile isDigit)).or
        ((Pattern.seq (.one (· == '.')) (.run isDigit)).first? cs) := by
  rw [mantissaPattern, first?_alt, first?_seq rests_fractionPattern_ne_nil, first?_run]
  split
  · rfl
  · rw [Option.bind_some, first?_fractionPattern]

/-- The scanner finds what the pattern finds, and goes on where it stops. -/
theorem exists_mantissa (cs : List Char) :
    ∃ after, cs = (scan cs).mantissa ++ after ∧
      scanExponent after = ((scan cs).mark, (scan cs).exponent) ∧
      mantissaPattern.first? cs = if (scan cs).hasDigits then some after else none := by
  rw [first?_mantissaPattern]
  have hcs : cs.takeWhile isDigit ++ cs.dropWhile isDigit = cs := List.takeWhile_append_dropWhile
  unfold scan mantissa
  dsimp only
  split
  · rename_i rest hdrop
    refine ⟨rest.dropWhile isDigit, ?_, rfl, ?_⟩
    · rw [hdrop] at hcs
      simp [hcs]
    · by_cases hwhole : cs.takeWhile isDigit = []
      · obtain rfl : '.' :: rest = cs := by rwa [hwhole, hdrop] at hcs
        rw [if_pos hwhole, Option.none_or, first?_one_seq, first?_run, hwhole]
        cases rest.takeWhile isDigit <;> simp [hasDigits]
      · simp [hasDigits, hwhole, hdrop, skip]
  · rename_i hpoint
    refine ⟨cs.dropWhile isDigit, by simp, rfl, ?_⟩
    by_cases hwhole : cs.takeWhile isDigit = []
    · rw [hwhole, List.nil_append] at hcs
      rw [hcs] at hpoint
      rw [if_pos hwhole, Option.none_or]
      cases cs with
      | nil => rfl
      | cons c cs =>
        have hc : c ≠ '.' := fun hc ↦ hpoint cs (by rw [hc])
        simp [first?_one_seq, hasDigits, hwhole, hc]
    · have hskip : skip (· == '.') (cs.dropWhile isDigit) = cs.dropWhile isDigit := by
        refine skip_of_head? fun c hc ↦ beq_eq_false_iff_ne.mpr ?_
        rintro rfl
        obtain ⟨rest, hrest⟩ := List.head?_eq_some_iff.mp hc
        exact hpoint rest hrest
      simp [hasDigits, hwhole, hskip, List.dropWhile_idempotent]

/-- **The numeral that is found** is what the pattern of numbers matches first. -/
theorem first?_pattern (cs : List Char) :
    pattern.first? cs = (lexeme? cs).map fun text ↦ cs.drop text.length := by
  obtain ⟨after, hcs, hexponent, hmantissa⟩ := exists_mantissa cs
  have hprefix := (exponentSpelled_scanExponent after).2
  rw [hexponent] at hprefix
  rw [pattern, first?_seq rests_opt_ne_nil, hmantissa, lexeme?]
  split
  · rw [Option.bind_some, first?_opt_exponentPattern, hexponent]
    refine congrArg some (drop_eq_of_append ?_).symm
    have htext : (scan cs).text = (scan cs).mantissa ++ ((scan cs).mark ++ (scan cs).exponent) := by
      simp [text, mantissa]
    rw [htext, List.append_assoc, List.prefix_iff_eq_append.mp hprefix, ← hcs]
  · rfl

end DecimalText

/-! ## References -/

namespace CellRef.Spelling

open Text Text.Pattern

/-- The pattern `\$?[A-Za-z]+\$?\d+` of references. -/
def pattern : Pattern :=
  .seq (.opt (.one (· == '$'))) (.seq (.run isLetter)
    (.seq (.opt (.one (· == '$'))) (.run isDigit)))

theorem scanAnchor_snd (cs : List Char) : (scanAnchor cs).2 = skip (· == '$') cs := by
  by_cases hdollar : cs.head? = some '$'
  · obtain ⟨rest, rfl⟩ := List.head?_eq_some_iff.mp hdollar
    rfl
  · have hanchor : scanAnchor cs = (false, cs) := scanAnchor_append false hdollar
    rw [hanchor, skip_of_head? fun c hc ↦ beq_eq_false_iff_ne.mpr ?_]
    rintro rfl
    exact hdollar hc

/-- A dollar sign is no letter and no digit, and a letter is no digit. So only the last digits of a
reference can be given back. -/
theorem rests_pattern (cs : List Char) :
    pattern.rests cs =
      let letters := skip (· == '$') cs
      if letters.takeWhile isLetter = [] then []
      else (Pattern.run isDigit).rests (skip (· == '$') (letters.dropWhile isLetter)) := by
  have hdollar : ∀ c : Char, (c == '$') = true → isLetter c = false ∧ isDigit c = false := by
    intro c hc
    rw [beq_iff_eq.mp hc]
    decide
  have hletter : ∀ c : Char, isLetter c = true → (c == '$') = false ∧ isDigit c = false := fun c ↦
    forall_isLetter (p := fun c ↦ (c == '$') = false ∧ isDigit c = false) (by decide)
  have hfirst : (Pattern.seq (.run isLetter) (.seq (.opt (.one (· == '$'))) (.run isDigit))).Refuses
      (· == '$') := refuses_seq (refuses_run fun c hc ↦ (hdollar c hc).1)
  have hsecond : (Pattern.seq (.opt (.one (· == '$'))) (.run isDigit)).Refuses isLetter :=
    refuses_opt_seq (refuses_one fun c hc ↦ (hletter c hc).1)
      (refuses_run fun c hc ↦ (hletter c hc).2)
  have hthird : (Pattern.run isDigit).Refuses (· == '$') := refuses_run fun c hc ↦ (hdollar c hc).2
  rw [pattern, rests_opt_seq hfirst, rests_run_seq hsecond, rests_opt_seq hthird]

/-- **The reference that is found** is what the pattern of references matches first. -/
theorem first?_pattern (cs : List Char) :
    pattern.first? cs = (scan? cs).map fun spelling ↦ cs.drop spelling.text.length := by
  unfold scan?
  rw [first?, rests_pattern]
  simp only [← scanAnchor_snd, Bool.or_eq_true, List.isEmpty_iff]
  by_cases hletters : (scanAnchor cs).2.takeWhile isLetter = []
  · rw [if_pos hletters, if_pos (.inl hletters)]
    rfl
  · simp only [hletters, if_false, false_or]
    rw [← first?, first?_run]
    split
    · rfl
    · refine congrArg some (drop_eq_of_append ?_).symm
      simp only [text, List.append_assoc, List.takeWhile_append_dropWhile,
        anchorText_append_scanAnchor]

end CellRef.Spelling

/-! ## Names and signs -/

namespace Token

open Text Text.Pattern

/-- The pattern `[A-Za-z_][A-Za-z0-9_]*` of names. -/
def namePattern : Pattern := .seq (.one isNameStart) (.many isNamePart)

/-- **The name that is found** is what the pattern of names matches first. -/
theorem first?_namePattern (cs : List Char) :
    namePattern.first? cs = (name? cs).map fun text ↦ cs.drop text.length := by
  cases cs with
  | nil => rfl
  | cons c cs =>
    rw [namePattern, first?_one_seq, first?_many, name?]
    split
    · refine congrArg some (drop_eq_of_append ?_).symm
      rw [List.cons_append, List.takeWhile_append_dropWhile]
    · rfl

/-- The pattern `[-+*/(),]` of signs. -/
def signPattern : Pattern := .one isSign

theorem first?_signPattern (cs : List Char) :
    signPattern.first? cs = (sign? cs).map fun _ ↦ cs.drop 1 := by
  cases cs with
  | nil => rfl
  | cons c cs =>
    by_cases hc : isSign c = true <;> simp [signPattern, Pattern.first?, rests, sign?, hc]

end Token

end Spreadsheet
