import Mathlib.Logic.Relation
import Spreadsheet.Proofs.Layout
import Spreadsheet.Proofs.LongestMatch

/-!
# Scanning a text

At each place of a text the patterns of the kinds of tokens are searched one after the other, and
the match that the search comes to first is the token that starts there. It takes as much of the
text as the kind can (`Starts`). The tokens of a text are found from the left: `Cut` says of the
front of a text that it is blanks and tokens, each of them the one that starts at its place of the
whole text. Every text is cut to its end, or up to a character that is no blank and that no token
starts with. As a match does not depend on what comes after it, the front of such a text has the
same tokens when it stands alone.

## With a position

Scanning can be done in a text that stays as it is, with a position that only grows. A step matches
any blanks with a token after them, and the position moves behind the token. Blanks at the end have
no token after them, so there is no step behind the last character that is no blank. Where nothing
matches, the character to blame is found from the number of characters that are left after the
blanks. The steps come to an end with the tokens of the text, or with the character to blame and its
place (`Cut.halts`, `Stuck.halts`).
-/

namespace Spreadsheet

open Text Text.Pattern Relation

namespace Token

/-! ## The token that starts a text -/

/-- The kinds of tokens. -/
inductive Kind
  | number
  | ref
  | name
  | op
  deriving DecidableEq

namespace Kind

/-- All kinds, in the order in which they are tried. -/
def all : List Kind := [number, ref, name, op]

/-- What the tokens of a kind look like. -/
def pattern : Kind → Pattern
  | number => DecimalText.pattern
  | ref => CellRef.Spelling.pattern
  | name => namePattern
  | op => signPattern

end Kind

/-- The kind of a token. -/
def kind : Token → Kind
  | number _ => .number
  | ref _ => .ref
  | name _ => .name
  | op _ => .op

/-- The matches at the front of a text in the order of the search, each with its kind and what it
leaves of the text. -/
def candidates (cs : List Char) : List (Kind × List Char) :=
  Kind.all.flatMap fun kind ↦ (kind.pattern.rests cs).map (kind, ·)

/-- The token stands at the front of the text. Its match is the one that the search comes to first,
and no match of its kind takes more. -/
def Starts (t : Token) (cs : List Char) : Prop :=
  ∃ rest, cs = t.text ++ rest ∧ (candidates cs).head? = some (t.kind, rest) ∧
    ∀ m ∈ candidates cs, m.1 = t.kind → rest.length ≤ m.2.length

variable {c : Char} {cs ws front rest tail : List Char} {t u : Token} {ts : List Token}

theorem ext (hkind : t.kind = u.kind) (htext : t.text = u.text) : t = u := by
  cases t <;> cases u <;> cases hkind
  · exact congrArg number htext
  · exact congrArg ref htext
  · exact congrArg name htext
  · exact congrArg op (List.singleton_inj.mp htext)

/-- **The token that is found** is the match that the search comes to first. -/
theorem head?_candidates (cs : List Char) :
    (candidates cs).head? = (first? cs).map fun t ↦ (t.kind, cs.drop t.text.length) := by
  have hhead (k : Kind) :
      ((k.pattern.rests cs).map (k, ·)).head? = (k.pattern.first? cs).map (k, ·) :=
    List.head?_map
  simp only [candidates, Kind.all, List.head?_flatMap, List.findSome?_cons, List.findSome?_nil,
    hhead]
  rw [Kind.pattern, Kind.pattern, Kind.pattern, Kind.pattern, DecimalText.first?_pattern,
    CellRef.Spelling.first?_pattern, first?_namePattern, first?_signPattern, Token.first?]
  rcases DecimalText.lexeme? cs with _ | text
  · rcases CellRef.Spelling.scan? cs with _ | spelling
    · rcases name? cs with _ | text
      · rcases sign? cs with _ | sign <;> rfl
      · rfl
    · rfl
  · rfl

theorem candidates_eq_nil_iff : candidates cs = [] ↔ first? cs = none := by
  rw [← List.head?_eq_none_iff, head?_candidates, Option.map_eq_none_iff]

theorem Kind.greedy (k : Kind) : k.pattern.Greedy := by
  cases k with
  | number => exact DecimalText.greedy_pattern
  | ref => exact CellRef.Spelling.greedy_pattern
  | name => exact greedy_namePattern
  | op => exact greedy_signPattern

theorem starts_of_head? (hhead : (candidates (t.text ++ rest)).head? = some (t.kind, rest)) :
    t.Starts (t.text ++ rest) := by
  refine ⟨rest, rfl, hhead, fun m hm hkind ↦ ?_⟩
  rw [candidates, List.head?_flatMap] at hhead
  obtain ⟨k, -, hk⟩ := List.exists_of_findSome?_eq_some hhead
  rw [List.head?_map, Option.map_eq_some_iff] at hk
  obtain ⟨r, hr, hmatch⟩ := hk
  obtain ⟨rfl, rfl⟩ := Prod.mk.inj hmatch
  obtain ⟨k', -, hk'⟩ := List.mem_flatMap.mp hm
  obtain ⟨r', hr', rfl⟩ := List.mem_map.mp hk'
  obtain rfl : k' = t.kind := hkind
  exact t.kind.greedy _ r hr r' hr'

theorem starts_iff : t.Starts cs ↔ first? cs = some t := by
  constructor
  · rintro ⟨rest, hcs, hhead, -⟩
    rw [head?_candidates] at hhead
    obtain ⟨u, hu, hmatch⟩ := Option.map_eq_some_iff.mp hhead
    obtain ⟨hkind, hdrop⟩ := Prod.mk.inj hmatch
    have htext : u.text ++ rest = t.text ++ rest := by
      rw [← hcs, ← hdrop]
      exact List.prefix_iff_eq_append.mp (wellFormed_of_first? hu).2
    rw [hu, ext hkind (List.append_cancel_right htext)]
  · intro h
    obtain ⟨rest, rfl⟩ := (wellFormed_of_first? h).2
    refine starts_of_head? ?_
    rw [head?_candidates, h, Option.map_some, List.drop_left]

theorem Kind.refuses_blank (k : Kind) : k.pattern.Refuses isBlank := by
  have hsolid {p : Char → Bool} (hp : ∀ c, p c = true → isBlank c = false) :
      ∀ c, isBlank c = true → p c = false := by
    intro c hc
    rw [Bool.eq_false_iff]
    intro hpc
    rw [hp c hpc] at hc
    cases hc
  cases k with
  | number =>
    have hdigit := hsolid fun _ ↦ isBlank_eq_false_of_isDigit
    have hpoint : ∀ c, isBlank c = true → (c == '.') = false :=
      hsolid fun c hc ↦ beq_iff_eq.mp hc ▸ by decide
    exact refuses_seq (refuses_alt (refuses_seq (refuses_run hdigit))
      (refuses_seq (refuses_one hpoint)))
  | ref =>
    have hletter := hsolid fun _ ↦ isBlank_eq_false_of_isLetter
    have hdollar : ∀ c, isBlank c = true → (c == '$') = false :=
      hsolid fun c hc ↦ beq_iff_eq.mp hc ▸ by decide
    exact refuses_opt_seq (refuses_one hdollar) (refuses_seq (refuses_run hletter))
  | name =>
    refine refuses_seq (refuses_one (hsolid fun c hc ↦ ?_))
    simp only [isNameStart, Bool.or_eq_true, beq_iff_eq] at hc
    rcases hc with hletter | rfl
    · exact isBlank_eq_false_of_isLetter hletter
    · decide
  | op => exact refuses_one (hsolid fun _ ↦ isBlank_eq_false_of_isSign)

theorem candidates_blank (hc : isBlank c = true) (cs : List Char) : candidates (c :: cs) = [] := by
  refine List.flatMap_eq_nil_iff.mpr fun k _ ↦ ?_
  rw [k.refuses_blank c cs hc, List.map_nil]

theorem Starts.isBlank_eq_false (h : t.Starts (c :: cs)) : isBlank c = false := by
  obtain ⟨rest, -, hhead, -⟩ := h
  rw [Bool.eq_false_iff]
  intro hc
  rw [candidates_blank hc] at hhead
  cases hhead

/-- A text that ends earlier has the same matches in the same order, as far as they end in time. -/
theorem filter_candidates_append (cs tail : List Char) :
    (candidates (cs ++ tail)).filter (fun m ↦ tail.length ≤ m.2.length)
      = (candidates cs).map fun m ↦ (m.1, m.2 ++ tail) := by
  rw [candidates, candidates, List.filter_flatMap, List.map_flatMap]
  refine List.flatMap_congr fun k _ ↦ ?_
  have hrests := congrArg (List.map (k, ·)) (filter_rests_append k.pattern cs tail)
  rw [List.map_map] at hrests
  rw [List.filter_map, List.map_map]
  exact hrests

theorem Starts.of_append (h : t.Starts (t.text ++ (cs ++ tail))) : t.Starts (t.text ++ cs) := by
  obtain ⟨rest, hrest, hhead, -⟩ := h
  obtain rfl := List.append_cancel_left hrest
  obtain ⟨more, hmore⟩ := List.head?_eq_some_iff.mp hhead
  have hfilter := filter_candidates_append (t.text ++ cs) tail
  rw [List.append_assoc, hmore, List.filter_cons_of_pos (by simp)] at hfilter
  obtain ⟨m, ms, hms, hm, -⟩ := List.map_eq_cons_iff.mp hfilter.symm
  obtain ⟨hkind, hcs⟩ := Prod.mk.inj hm
  refine starts_of_head? ?_
  rw [hms, List.head?_cons, ← hkind, ← List.append_cancel_right hcs]

/-! ## Cutting a text -/

/-- The text, with `rest` after it, is blanks and tokens, and each token is the one that
starts where it stands. -/
inductive Cut (rest : List Char) : List Token → List Char → Prop
  | blanks {ws : List Char} (hws : Blanks ws) : Cut rest [] ws
  | token {ws cs : List Char} {t : Token} {ts : List Token} (hws : Blanks ws)
      (starts : t.Starts (t.text ++ (cs ++ rest))) (h : Cut rest ts cs) :
      Cut rest (t :: ts) (ws ++ (t.text ++ cs))

/-- The text is cut into tokens up to a character that is no blank and that no token starts with. -/
structure Stuck (ts : List Token) (front : List Char) (c : Char) (rest : List Char) : Prop where
  cut : Cut (c :: rest) ts front
  not_blank : isBlank c = false
  no_token : candidates (c :: rest) = []

/-- **The front of a text has the same tokens when it stands alone.** -/
theorem Cut.alone (h : Cut rest ts cs) : Cut [] ts cs := by
  induction h with
  | blanks hws => exact .blanks hws
  | token hws starts _ ih =>
    refine .token hws ?_ ih
    rw [List.append_nil]
    exact starts.of_append

theorem Cut.scans (h : Cut [] ts cs) : Scans cs ts := by
  induction h with
  | blanks hws =>
    have := scans_nil.blanks hws
    rwa [List.append_nil] at this
  | token hws starts _ ih =>
    rw [List.append_nil] at starts
    refine .blanks hws (ih.token (starts_iff.mp starts) fun c hc ↦ ?_)
    obtain ⟨more, hmore⟩ := List.head?_eq_some_iff.mp hc
    rw [hmore] at starts
    exact starts.isBlank_eq_false

/-- **Every text is cut to its end, or up to a character to blame.** -/
theorem exists_cut (index : Nat) (cs : List Char) :
    (∃ ts, scanFrom index cs = .ok ts ∧ Cut [] ts cs) ∨
      ∃ ts front c rest, cs = front ++ c :: rest ∧ Stuck ts front c rest ∧
        scanFrom index cs = .error (.malformed (.character c (index + front.length))) := by
  fun_induction scanFrom index cs with
  | case1 index cs hskip => exact .inl ⟨[], rfl, .blanks (List.dropWhile_eq_nil_iff.mp hskip)⟩
  | case2 index cs c rest hskip index' hfirst =>
    have hcs : cs = cs.takeWhile isBlank ++ c :: rest := by
      rw [← hskip, List.takeWhile_append_dropWhile]
    have hc : isBlank c = false := by
      have := List.head?_dropWhile_not isBlank cs
      rwa [hskip] at this
    exact .inr ⟨[], _, c, rest, hcs,
      ⟨.blanks fun _ ↦ List.mem_takeWhile_imp, hc, candidates_eq_nil_iff.mpr hfirst⟩, rfl⟩
  | case3 index cs c rest hskip index' t hfirst =>
    rename_i ih
    have hlead : Blanks (cs.takeWhile isBlank) := fun _ ↦ List.mem_takeWhile_imp
    obtain ⟨after, hafter, -⟩ := starts_iff.mpr hfirst
    have hstarts : t.Starts (t.text ++ after) := hafter ▸ starts_iff.mpr hfirst
    have hcs : cs = cs.takeWhile isBlank ++ (t.text ++ after) := by
      rw [← hafter, ← hskip, List.takeWhile_append_dropWhile]
    rw [hafter, List.drop_left] at ih ⊢
    rcases ih with ⟨ts, hts, hcut⟩ | ⟨ts, front, d, tail, hfront, hstuck, hblame⟩
    · refine .inl ⟨t :: ts, by rw [hts]; rfl, ?_⟩
      rw [hcs]
      exact .token hlead (by rwa [List.append_nil]) hcut
    · refine .inr ⟨t :: ts, cs.takeWhile isBlank ++ (t.text ++ front), d, tail,
        ?_, ⟨?_, ?_, ?_⟩, ?_⟩
      · rw [hfront] at hcs
        simpa using hcs
      · exact .token hlead (hfront ▸ hstarts) hstuck.cut
      · exact hstuck.not_blank
      · exact hstuck.no_token
      · have hindex : index' + t.text.length + front.length
            = index + (cs.takeWhile isBlank ++ (t.text ++ front)).length := by
          simp only [index', List.length_append]
          omega
        rw [hblame, hindex]
        rfl

example : scan ['2', 'e', ' ', '?'] = .error (.malformed (.character '?' 3)) := by decide +kernel

/-! ## Scanning with a position -/

/-- How far a text is scanned. -/
structure Cursor where
  /-- How many characters are behind. -/
  pos : Nat
  /-- The tokens found so far, the latest one last, each with its kind and its characters. -/
  found : List (Kind × List Char)

/-- The kind of a token with its characters. -/
def labelled (t : Token) : Kind × List Char := (t.kind, t.text)

/-- The matches of blanks with a token after them, in the order of the search: the kind of the
token, the text from the token on, and what is left after it. -/
def spacedCandidates (cs : List Char) : List (Kind × List Char × List Char) :=
  (restsOfMany isBlank cs).flatMap fun start ↦ (candidates start).map fun m ↦ (m.1, start, m.2)

/-- The character to blame for what is not matched at a position, and its place. The place is
counted from the end of the text. -/
def blame (cs : List Char) (pos : Nat) : Option Char × Nat :=
  let place := cs.length - (trimStart (cs.drop pos)).length
  (cs[place]?, place)

/-- The next stage of scanning a text, or the result. -/
def step (cs : List Char) (s : Cursor) :
    Cursor ⊕ Except (Option Char × Nat) (List (Kind × List Char)) :=
  if s.pos < (trimEnd cs).length then
    match (spacedCandidates (cs.drop s.pos)).head? with
    | some (kind, start, rest) =>
      let stop := cs.length - rest.length
      if stop = s.pos then .inr (.error (blame cs s.pos))
      else .inl ⟨stop, s.found ++ [(kind, start.take (start.length - rest.length))]⟩
    | none => .inr (.error (blame cs s.pos))
  else .inr (.ok s.found)

/-- Scanning a text gets from one stage to another in finitely many steps. -/
abbrev Steps (cs : List Char) : Cursor → Cursor → Prop :=
  ReflTransGen fun s s' ↦ step cs s = .inl s'

/-- Scanning a text from its front is over after finitely many steps, with a result. -/
def Halts (cs : List Char) (result : Except (Option Char × Nat) (List (Kind × List Char))) : Prop :=
  ∃ last, Steps cs ⟨0, []⟩ last ∧ step cs last = .inr result

section Steps

variable {found : List (Kind × List Char)}

theorem head?_spacedCandidates (cs : List Char) :
    (spacedCandidates cs).head?
      = (candidates (trimStart cs)).head?.map fun m ↦ (m.1, trimStart cs, m.2) := by
  rw [spacedCandidates, flatMap_restsOfMany, List.head?_map]
  · rfl
  · intro c cs hc
    rw [candidates_blank hc, List.map_nil]

/-- Without the blanks at its end a text is longer than its front, unless only blanks come after
it. -/
theorem length_lt_trimEnd_iff :
    front.length < (trimEnd (front ++ rest)).length ↔ ¬ Blanks rest := by
  rw [trimEnd, List.length_reverse, List.reverse_append, List.dropWhile_append]
  have hblanks : Blanks rest ↔ rest.reverse.dropWhile isBlank = [] := by
    rw [List.dropWhile_eq_nil_iff]
    exact forall_congr' fun c ↦ by rw [List.mem_reverse]
  by_cases hrest : rest.reverse.dropWhile isBlank = []
  · have hle := (List.dropWhile_sublist isBlank (l := front.reverse)).length_le
    rw [List.length_reverse] at hle
    rw [hrest, hblanks, List.isEmpty_nil, if_pos rfl]
    simp only [hrest, not_true_eq_false, iff_false, Nat.not_lt]
    exact hle
  · have hpos := List.length_pos_iff.mpr hrest
    rw [hblanks, if_neg (by simpa using hrest), List.length_append, List.length_reverse]
    simp only [hrest, not_false_eq_true, iff_true]
    omega

/-- What a step looks at that has blanks ahead and then a character that is no blank. -/
theorem step_ahead (front tail : List Char) (hws : Blanks ws) (hc : isBlank c = false) :
    front.length < (trimEnd (front ++ (ws ++ c :: tail))).length ∧
      trimStart ((front ++ (ws ++ c :: tail)).drop front.length) = c :: tail := by
  constructor
  · refine length_lt_trimEnd_iff.mpr fun hblanks ↦ ?_
    rw [hblanks c (List.mem_append_right ws List.mem_cons_self)] at hc
    cases hc
  · rw [List.drop_left]
    refine (run_append hws fun d hd ↦ ?_).2
    cases hd
    exact hc

theorem step_done (hrest : Blanks rest) :
    step (front ++ rest) ⟨front.length, found⟩ = .inr (.ok found) :=
  if_neg fun hlt ↦ length_lt_trimEnd_iff.mp hlt hrest

/-- **A step takes the token that starts after the blanks.** -/
theorem step_token (front : List Char) (found : List (Kind × List Char)) (hws : Blanks ws)
    (h : t.Starts (t.text ++ rest)) :
    step (front ++ (ws ++ (t.text ++ rest))) ⟨front.length, found⟩
      = .inl ⟨(front ++ (ws ++ t.text)).length, found ++ [t.labelled]⟩ := by
  obtain ⟨c, more, htext⟩ := List.exists_cons_of_ne_nil (text_ne_nil_of_first? (starts_iff.mp h))
  have hcons : t.text ++ rest = c :: (more ++ rest) := by rw [htext, List.cons_append]
  obtain ⟨hlt, htrim⟩ := step_ahead front (more ++ rest) hws (hcons ▸ h).isBlank_eq_false
  rw [← hcons] at hlt htrim
  obtain ⟨after, hafter, hhead, -⟩ := h
  obtain rfl := List.append_cancel_left hafter
  have hstop : (front ++ (ws ++ (t.text ++ rest))).length - rest.length
      = (front ++ (ws ++ t.text)).length := by
    simp only [List.length_append]
    omega
  have hmoves : (front ++ (ws ++ t.text)).length ≠ front.length := by
    simp only [htext, List.length_append, List.length_cons]
    omega
  have htake : (t.text ++ rest).take ((t.text ++ rest).length - rest.length) = t.text := by
    rw [List.length_append, Nat.add_sub_cancel, List.take_left]
  rw [step, if_pos hlt]
  simp only [head?_spacedCandidates, htrim, hhead, Option.map_some, hstop, hmoves, htake, if_false,
    labelled]

theorem step_stuck (hws : Blanks ws) (hc : isBlank c = false)
    (hnone : candidates (c :: rest) = []) :
    step (front ++ (ws ++ c :: rest)) ⟨front.length, found⟩
      = .inr (.error (some c, (front ++ ws).length)) := by
  obtain ⟨hlt, htrim⟩ := step_ahead front rest hws hc
  have hplace :
      (front ++ (ws ++ c :: rest)).length - (c :: rest).length = (front ++ ws).length := by
    simp only [List.length_append]
    omega
  rw [step, if_pos hlt]
  simp only [head?_spacedCandidates, htrim, hnone, List.head?_nil, Option.map_none, blame, hplace]
  rw [← List.append_assoc, List.getElem?_append_right Nat.le.refl, Nat.sub_self]
  rfl

/-- **The tokens of a text are found in steps**, wherever it stands. Only blanks are ahead then. -/
theorem Cut.exists_steps (h : Cut rest ts cs) (front : List Char)
    (found : List (Kind × List Char)) :
    ∃ lead ws, cs = lead ++ ws ∧ Blanks ws ∧
      Steps (front ++ (cs ++ rest)) ⟨front.length, found⟩
        ⟨(front ++ lead).length, found ++ ts.map labelled⟩ := by
  induction h generalizing front found with
  | @blanks ws hws =>
    refine ⟨[], ws, rfl, hws, ?_⟩
    rw [List.append_nil, List.map_nil, List.append_nil]
  | @token ws cs t ts hws starts _ ih =>
    obtain ⟨lead, trail, rfl, htrail, hsteps⟩ :=
      ih (front ++ (ws ++ t.text)) (found ++ [t.labelled])
    refine ⟨ws ++ (t.text ++ lead), trail, by simp, htrail, ?_⟩
    have hstep := step_token front found hws starts
    simp only [List.append_assoc, List.map_cons, List.cons_append, List.nil_append]
      at hstep hsteps ⊢
    exact .head hstep hsteps

end Steps

theorem Cut.halts (h : Cut [] ts cs) : Halts cs (.ok (ts.map labelled)) := by
  obtain ⟨lead, ws, rfl, hws, hsteps⟩ := h.exists_steps [] []
  rw [List.append_nil] at hsteps
  exact ⟨_, hsteps, step_done hws⟩

theorem Stuck.halts (h : Stuck ts front c rest) :
    Halts (front ++ c :: rest) (.error (some c, front.length)) := by
  obtain ⟨lead, ws, rfl, hws, hsteps⟩ := h.cut.exists_steps [] []
  refine ⟨_, hsteps, ?_⟩
  rw [List.nil_append, List.nil_append, List.append_assoc]
  exact step_stuck hws h.not_blank h.no_token

/-- **Nothing of a text is lost, and the right character is to blame.** Scanning any text comes to
an end. Either the whole text is cut into blanks and the tokens that are found, each of them the
first match where it stands and the longest of its kind, or a character is to blame that is no blank
and that no token starts with. Its index is the number of characters in front of it, and these are
cut in the same way, also when they stand alone. -/
theorem scan_exact (cs : List Char) :
    (∃ ts, scan cs = .ok ts ∧ Halts cs (.ok (ts.map labelled)) ∧ Cut [] ts cs) ∨
      ∃ ts front c rest, cs = front ++ c :: rest ∧
        scan cs = .error (.malformed (.character c front.length)) ∧
        Halts cs (.error (some c, front.length)) ∧ Stuck ts front c rest ∧ scan front = .ok ts := by
  rcases exists_cut 0 cs with ⟨ts, hts, hcut⟩ | ⟨ts, front, c, rest, rfl, hstuck, hblame⟩
  · exact .inl ⟨ts, hts, hcut.halts, hcut⟩
  · rw [Nat.zero_add] at hblame
    exact .inr ⟨ts, front, c, rest, rfl, hblame, hstuck.halts, hstuck, hstuck.cut.alone.scans 0⟩

end Token

end Spreadsheet
