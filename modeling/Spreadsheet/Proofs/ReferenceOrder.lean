import Mathlib.Logic.Relation
import Spreadsheet.Proofs.Spelling

/-!
# References in their order

A formula that was read has the references of its text, one for each reference token and in the
order of the tokens. The reader regroups the tokens by precedence, but no rule of the grammar
puts what is on its right before what is on its left, so from left to right the tree has what
the text has. That is an induction on the derivation, in which every phrase spells its
references (`Mentions`).

A tree can be deep, and a traversal takes single steps with a stack of the formulas still to come.
An application that comes off the stack has its operands pushed on it, the last operand first, so
that the first one comes off next (`push_eq`). A formula on top of the stack is gone before what is
below it is looked at, and its references are found by then (`steps_visit`).

What is listed of the ids of these references is said by where an id comes first (`KeepsFirst`).
-/

namespace Spreadsheet

open Text Numeral Relation

/-! ## The references of a row of tokens -/

namespace Token

/-- The text of a token that is a reference. -/
def refText? : Token → Option (List Char)
  | ref text => some text
  | _ => none

/-- The texts of the references among tokens, in the order of the tokens. -/
def refTexts (ts : List Token) : List (List Char) := ts.filterMap refText?

@[simp] theorem refTexts_nil : refTexts [] = [] := rfl

@[simp] theorem refTexts_number (text : List Char) (ts : List Token) :
    refTexts (number text :: ts) = refTexts ts := rfl

@[simp] theorem refTexts_ref (text : List Char) (ts : List Token) :
    refTexts (ref text :: ts) = text :: refTexts ts := rfl

@[simp] theorem refTexts_name (text : List Char) (ts : List Token) :
    refTexts (name text :: ts) = refTexts ts := rfl

@[simp] theorem refTexts_op (sign : Char) (ts : List Token) :
    refTexts (op sign :: ts) = refTexts ts := rfl

@[simp] theorem refTexts_append (ts us : List Token) :
    refTexts (ts ++ us) = refTexts ts ++ refTexts us := List.filterMap_append

theorem ref_mem_of_mem_refTexts {ts : List Token} {text : List Char} (h : text ∈ refTexts ts) :
    ref text ∈ ts := by
  obtain ⟨t, ht, htext⟩ := List.mem_filterMap.mp h
  cases t with
  | ref _ =>
    cases htext
    exact ht
  | _ => cases htext

end Token

/-! ## What a reference names -/

namespace CellRef.Spelling

/-- The canonical id of the cell that is spelled: the normal spelling without the anchors. -/
def id (s : Spelling) : String :=
  String.ofList { s.normal with colAnchored := false, rowAnchored := false }.text

variable {s : Spelling}

/-- **A reference names the place that it spells**, and the cell there has the spelled id. -/
theorem WellSpelled.names_place (h : s.WellSpelled) (hlen : s.digits.length ≤ maxDigits)
    (hrow : 1 ≤ ofDigits s.digits) :
    read (String.ofList s.text) = .ok s.place ∧ s.place.position.id = .ok s.id := by
  have hread : read (String.ofList s.text) = .ok s.place := by
    rw [← readAt_origin]
    exact h.readAt_text_eq_ok_iff.mpr ⟨hlen, hrow, (relativeTo_origin _).symm⟩
  refine ⟨hread, Position.id_eq_ok_iff.mpr ⟨Position.named_of_read hread, ?_⟩⟩
  simp only [id, normal, Position.spelling, position, place, Int.toNat_natCast,
    Column.letters_number h.isLetter, digits_ofDigits hrow]

end CellRef.Spelling

namespace Formula

open CellRef (Spelling)

/-! ## From tokens to the tree -/

/-- The spellings are those of the reference tokens, and of the references of the formula in the
cell at `base`, one by one. -/
structure Mentions (base : Position) (ts : List Token) (f : Formula) (ss : List Spelling) :
    Prop where
  refTexts_eq : Token.refTexts ts = ss.map Spelling.text
  refs_eq : f.refs = ss.map fun s ↦ s.place.relativeTo base
  spelled : ∀ s ∈ ss, s.WellSpelled ∧ 1 ≤ ofDigits s.digits

variable {base : Position} {phrase : Phrase} {depth : Nat} {ts us vs : List Token} {f g : Formula}
  {ss rs : List Spelling}

theorem Mentions.pair (h : Mentions base ts f ss) (h' : Mentions base us g rs)
    (hvs : Token.refTexts vs = Token.refTexts ts ++ Token.refTexts us) (fn : String) :
    Mentions base vs (.app fn [f, g]) (ss ++ rs) where
  refTexts_eq := by rw [hvs, h.refTexts_eq, h'.refTexts_eq, List.map_append]
  refs_eq := by simp [h.refs_eq, h'.refs_eq]
  spelled := List.forall_mem_append.mpr ⟨h.spelled, h'.spelled⟩

/-- **A phrase has the references of its tokens**, in their order. -/
theorem Spells.exists_mentions (h : Spells base phrase depth ts f) :
    ∃ ss, Mentions base ts f ss := by
  induction h with
  | number => exact ⟨[], rfl, refs_num _, nofun⟩
  | @ref depth s wellSpelled one_le_row =>
    exact ⟨[s], rfl, refs_ref _, List.forall_mem_singleton.mpr ⟨wellSpelled, one_le_row⟩⟩
  | sign _ ih =>
    obtain ⟨ss, htexts, hrefs, hss⟩ := ih
    exact ⟨ss, htexts, by simpa using hrefs, hss⟩
  | group _ ih =>
    obtain ⟨ss, htexts, hrefs, hss⟩ := ih
    exact ⟨ss, by simpa using htexts, hrefs, hss⟩
  | call _ _ _ _ ihFirst ihSecond =>
    obtain ⟨ss, hss⟩ := ihFirst
    obtain ⟨rs, hrs⟩ := ihSecond
    exact ⟨ss ++ rs, hss.pair hrs (by simp) _⟩
  | times _ _ _ ihLeft ihRight | plus _ _ _ ihLeft ihRight =>
    obtain ⟨ss, hss⟩ := ihLeft
    obtain ⟨rs, hrs⟩ := ihRight
    exact ⟨ss ++ rs, hss.pair hrs (by simp) _⟩
  | product _ ih => exact ih
  | sum _ ih => exact ih

/-! ## Traversals -/

/-- Where a traversal has come to. -/
structure Traversal where
  /-- The formulas still to be visited, the next one first. -/
  stack : List Formula
  /-- The references found so far, the latest one last. -/
  found : List CellRef

namespace Traversal

/-- Pushes operands on a stack one by one, the last operand first. -/
def push (args below : List Formula) : List Formula :=
  args.reverse.foldl (fun stack f ↦ f :: stack) below

theorem push_eq (args below : List Formula) : push args below = args ++ below := by
  rw [push, List.foldl_reverse, List.foldr_cons_eq_append, List.map_id']

/-- A traversal of a formula begins with the formula alone. -/
def start (f : Formula) : Traversal := ⟨[f], []⟩

/-- One formula comes off the stack. There is no step once the stack is empty. -/
def next? (s : Traversal) : Option Traversal :=
  match s.stack with
  | [] => none
  | .ref r :: below => some ⟨below, s.found ++ [r]⟩
  | .app _ args :: below => some ⟨push args below, s.found⟩
  | .num _ :: below | .foreign _ :: below => some ⟨below, s.found⟩

/-- A traversal gets from one stage to another in finitely many steps. -/
abbrev Steps : Traversal → Traversal → Prop := ReflTransGen fun s s' ↦ s.next? = some s'

/-- Formulas on top of the stack are gone before what is below them is looked at, if each of them
is. -/
theorem steps_operands {args : List Formula}
    (h : ∀ f ∈ args, ∀ below found, Steps ⟨f :: below, found⟩ ⟨below, found ++ f.refs⟩)
    (below : List Formula) (found : List CellRef) :
    Steps ⟨args ++ below, found⟩ ⟨below, found ++ args.flatMap refs⟩ := by
  induction args generalizing found with
  | nil =>
    rw [List.flatMap_nil, List.append_nil]
    exact .refl
  | cons f rest ih =>
    have hfirst := h f List.mem_cons_self (rest ++ below) found
    have hrest := ih (fun g hg ↦ h g (List.mem_cons_of_mem f hg)) (found ++ f.refs)
    rw [List.append_assoc, ← List.flatMap_cons] at hrest
    exact hfirst.trans hrest

/-- **A visit of a formula** finds its references, from left to right. -/
theorem steps_visit (f : Formula) (below : List Formula) (found : List CellRef) :
    Steps ⟨f :: below, found⟩ ⟨below, found ++ f.refs⟩ := by
  induction f using Formula.induction generalizing below found with
  | num value =>
    rw [refs_num, List.append_nil]
    exact .single rfl
  | foreign text =>
    rw [refs_foreign, List.append_nil]
    exact .single rfl
  | ref target =>
    rw [refs_ref]
    exact .single rfl
  | app fn args ih =>
    have hargs := steps_operands ih below found
    rw [← push_eq, ← refs_app fn] at hargs
    exact .head rfl hargs

/-- A traversal of the formula is over after finitely many steps, with these references found. -/
def Finds (f : Formula) (found : List CellRef) : Prop := Steps (start f) ⟨[], found⟩

theorem finds_refs (f : Formula) : Finds f f.refs := steps_visit f [] []

end Traversal

/-! ## Formulas that were read -/

/-- **No reference of a formula is lost or out of order.** The formula has a reference for each
reference token of the text, in the order of the tokens, and a traversal finds them in that order.
Seen from the cell of the formula each is the place that its token names. The listed references are
the ids of those places, without the ids that came before. -/
theorem refs_of_read {text : String} (h : read text base = .ok f) :
    ∃ (ts : List Token) (ss : List Spelling),
      Token.scan (body text) = .ok ts ∧ Token.refTexts ts = ss.map Spelling.text ∧
      (∀ s ∈ ss, s.WellSpelled ∧ CellRef.read (String.ofList s.text) = .ok s.place ∧
        s.place.position.id = .ok s.id) ∧
      Traversal.Finds f f.refs ∧
      f.refs.map (fun r ↦ r.resolve base) = ss.map Spelling.place ∧
      ∃ ids, f.references base = .ok ids ∧ KeepsFirst (ss.map Spelling.id) ids := by
  obtain ⟨ts, hscan, hts⟩ := Outcome.bind_eq_ok_iff.mp h
  have hlegible := legible_of_ofTokens (Token.allWellFormed_of_scanFrom hscan) hts
  obtain ⟨ss, htexts, hrefs, hss⟩ := hlegible.spells.exists_mentions
  have hnames : ∀ s ∈ ss, CellRef.read (String.ofList s.text) = .ok s.place ∧
      s.place.position.id = .ok s.id := by
    intro s hs
    have hmem : Token.ref s.text ∈ ts :=
      Token.ref_mem_of_mem_refTexts (htexts ▸ List.mem_map_of_mem hs)
    obtain ⟨hwell, hrow⟩ := hss s hs
    exact hwell.names_place (hlegible.shortRows _ hmem s hwell rfl) hrow
  have hids : f.refs.mapM (fun r ↦ r.idAt base) = .ok (ss.map Spelling.id) := by
    rw [hrefs, Outcome.mapM_eq_ok_iff, List.forall₂_map_left_iff, List.forall₂_map_right_iff,
      List.forall₂_same]
    intro s hs
    rw [CellRef.idAt, CellRef.resolve_relativeTo]
    exact (hnames s hs).2
  refine ⟨ts, ss, hscan, htexts, fun s hs ↦ ⟨(hss s hs).1, hnames s hs⟩,
    Traversal.finds_refs f, ?_, _, ?_, KeepsFirst.eraseDups _⟩
  · rw [hrefs, List.map_map]
    exact List.map_congr_left fun s _ ↦ CellRef.resolve_relativeTo _ _
  · rw [references, hids]
    rfl

/-- In the cell `c3`, a cell that is referenced three times, in three spellings. -/
theorem refs_of_read_again :
    let f : Formula := .app "-" [.app "max" [.ref ⟨-1, 4, false, false⟩,
      .app "*" [.ref ⟨1, 1, true, true⟩, .ref ⟨2, 4, true, false⟩]], .ref ⟨-1, 7, false, true⟩]
    read "=max(b7, $A$1 * $B007) - B$7" ⟨3, 3⟩ = .ok f ∧
      ∃ (ts : List Token) (ss : List Spelling),
        Token.scan (body "=max(b7, $A$1 * $B007) - B$7") = .ok ts ∧
        Token.refTexts ts = ss.map Spelling.text ∧
        (∀ s ∈ ss, s.WellSpelled ∧ CellRef.read (String.ofList s.text) = .ok s.place ∧
          s.place.position.id = .ok s.id) ∧
        Traversal.Finds f f.refs ∧
        f.refs.map (fun r ↦ r.resolve ⟨3, 3⟩) = ss.map Spelling.place ∧
        ∃ ids, f.references ⟨3, 3⟩ = .ok ids ∧ KeepsFirst (ss.map Spelling.id) ids := by
  intro f
  have hread : read "=max(b7, $A$1 * $B007) - B$7" ⟨3, 3⟩ = .ok f := by decide +kernel
  exact ⟨hread, refs_of_read hread⟩

end Formula

end Spreadsheet
