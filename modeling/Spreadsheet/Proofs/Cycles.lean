import Spreadsheet.Proofs.Reachable

/-!
# Circles are refused, and nothing else is

When a reachable sheet is asked to give a cell a formula, the outcome can be told from the request
and from what the other cells read. The request is malformed if it names no cell, spells no formula
or reaches out of bounds. Otherwise it is circular if the formula closes a circle, and goes through
if it does not. Converging paths and edges that were there before raise no false alarm, and a circle
is not missed because it only exists with the new edges.

Texts with too long a row of digits are left out here. They can fail with a fault of another kind.
-/

namespace Spreadsheet

open Relation Text Numeral Workbook

namespace Numeral

theorem not_hasLongRun_of_length_le {cs : List Char} (h : cs.length ≤ maxDigits) :
    ¬ HasLongRun cs := by
  rintro ⟨ds, hinfix, -, hlong⟩
  exact absurd hinfix.length_le (by omega)

end Numeral

namespace Settings

variable {s : Settings} {cell expr : String}

/-- A request to give a cell a formula is malformed: it names no cell, or it spells no formula
there, or it references something out of bounds. -/
def Refuses (s : Settings) (cell expr : String) : Prop :=
  (∀ base, ¬ s.Names cell base) ∨ ∃ base, s.Names cell base ∧
    ((∀ f, Formula.read expr base ≠ .ok f) ∨ ∃ f, Formula.read expr base = .ok f ∧
      ∃ r ∈ f.refs, s.inBounds (r.resolve base).position = false)

theorem refuses_iff : s.Refuses cell expr ↔
    ∀ id f base, s.accept cell expr ≠ .ok (id, f, base) := by
  constructor
  · intro hrefuses id f base haccept
    obtain ⟨hnames, hacc⟩ := accept_eq_ok_iff.mp haccept
    rcases hrefuses with hnone | ⟨base', hnames', hbad⟩
    · exact hnone base hnames
    · cases hnames.unique hnames'
      have hread : Formula.read expr base = .ok f := by
        rw [← Formula.read_strip]
        exact hacc.read_eq
      rcases hbad with hbad | ⟨g, hg, r, hr, hout⟩
      · exact hbad f hread
      · rw [hread, Except.ok.injEq] at hg
        subst hg
        rw [hacc.covers r hr] at hout
        cases hout
  · intro hnone
    by_contra hnot
    simp only [Refuses, not_or, not_forall, not_exists, not_and, not_not] at hnot
    obtain ⟨⟨base, hnames⟩, hgood⟩ := hnot
    obtain ⟨⟨f, hread⟩, hcovers⟩ := hgood base hnames
    obtain ⟨id, hid⟩ := hnames.named.exists_id
    refine hnone id f base (accept_eq_ok_iff.mpr ⟨hnames, hid, hnames.inBounds, strip_strip expr,
      ?_, fun r hr ↦ ?_⟩)
    · rw [Formula.read_strip, hread]
    · simpa using hcovers f hread r hr

end Settings

namespace Sheet

variable {s : Sheet} {cell expr id : String} {f : Formula} {base : Position}

theorem run_evaluate_of_refuses (hcell : ¬ HasLongRun cell.toList)
    (hexpr : ¬ HasLongRun expr.toList) (h : s.settings.Refuses cell expr) :
    ∃ cause, (evaluate cell expr).run s = (.error (.malformed cause), s) := by
  cases haccept : s.settings.accept cell expr with
  | ok result => exact absurd haccept (Settings.refuses_iff.mp h result.1 result.2.1 result.2.2)
  | error fault =>
    rw [run_evaluate, haccept]
    rcases Settings.fault_of_accept haccept with ⟨cause, rfl⟩ | hlong | hlong
    · exact ⟨cause, rfl⟩
    · exact absurd hlong hcell
    · exact absurd hlong hexpr

theorem accept_of_names {expr : String} (hnames : s.settings.Names cell base)
    (hid : base.id = .ok id) (hread : Formula.read expr base = .ok f)
    (hcovers : s.settings.Covers f base) : s.settings.accept cell expr = .ok (id, f, base) :=
  Settings.accept_eq_ok_iff.mpr ⟨hnames, hid, hnames.inBounds, strip_strip expr,
    (Formula.read_strip expr).trans hread, hcovers⟩

/-- **A request that is not malformed is circular or goes through**, depending on what the other
cells read. -/
theorem run_evaluate_of_accept (hs : s.Sound)
    (haccept : s.settings.accept cell expr = .ok (id, f, base)) :
    (s.table.Closes id f base ∧
      ∃ cause, (evaluate cell expr).run s = (.error (.circular cause), s)) ∨
      (¬ s.table.Closes id f base ∧
        ∃ updates s', (evaluate cell expr).run s = (.ok updates, s')) := by
  by_cases hcloses : s.table.Closes id f base
  · exact Or.inl ⟨hcloses, run_evaluate_of_closes hs haccept hcloses⟩
  · obtain ⟨updates, t, hrun, -⟩ := exists_evaluate hs haccept hcloses
    exact Or.inr ⟨hcloses, updates, _, hrun⟩

theorem refuses_iff_malformed (hs : s.Sound) (hcell : ¬ HasLongRun cell.toList)
    (hexpr : ¬ HasLongRun expr.toList) :
    (∃ cause, (evaluate cell expr).run s = (.error (.malformed cause), s)) ↔
      s.settings.Refuses cell expr := by
  refine ⟨fun ⟨cause, hrun⟩ ↦ ?_, run_evaluate_of_refuses hcell hexpr⟩
  rw [Settings.refuses_iff]
  intro id f base haccept
  rcases run_evaluate_of_accept hs haccept with ⟨-, _, hrun'⟩ | ⟨-, _, _, hrun'⟩ <;>
    · rw [hrun] at hrun'
      cases hrun'

theorem closes_iff_circular (hs : s.Sound)
    (haccept : s.settings.accept cell expr = .ok (id, f, base)) :
    ((∃ cause, (evaluate cell expr).run s = (.error (.circular cause), s)) ↔
      s.table.Closes id f base) ∧
    ((∃ updates s', (evaluate cell expr).run s = (.ok updates, s')) ↔
      ¬ s.table.Closes id f base) := by
  rcases run_evaluate_of_accept hs haccept with ⟨hcloses, cause, hrun⟩ | ⟨hno, updates, s', hrun⟩
  · refine ⟨iff_of_true ⟨cause, hrun⟩ hcloses, iff_of_false ?_ (not_not.mpr hcloses)⟩
    rintro ⟨updates, s', hrun'⟩
    rw [hrun] at hrun'
    cases hrun'
  · refine ⟨iff_of_false ?_ hno, iff_of_true ⟨updates, s', hrun⟩ hno⟩
    rintro ⟨cause, hrun'⟩
    rw [hrun] at hrun'
    cases hrun'

theorem fault_of_evaluate (hs : s.Sound) (hcell : ¬ HasLongRun cell.toList)
    (hexpr : ¬ HasLongRun expr.toList) {fault : Fault} {s' : Sheet}
    (hrun : (evaluate cell expr).run s = (.error fault, s')) :
    (∃ cause, fault = .malformed cause) ∨ ∃ cause, fault = .circular cause := by
  by_cases hrefuses : s.settings.Refuses cell expr
  · obtain ⟨cause, hrun'⟩ := run_evaluate_of_refuses hcell hexpr hrefuses
    rw [hrun] at hrun'
    cases hrun'
    exact Or.inl ⟨cause, rfl⟩
  · rw [Settings.refuses_iff] at hrefuses
    push Not at hrefuses
    obtain ⟨id, f, base, haccept⟩ := hrefuses
    rcases run_evaluate_of_accept hs haccept with ⟨-, cause, hrun'⟩ | ⟨-, _, _, hrun'⟩
    · rw [hrun] at hrun'
      cases hrun'
      exact Or.inr ⟨cause, rfl⟩
    · rw [hrun] at hrun'
      cases hrun'

/-- **Exactly the circles are refused.** In a reachable sheet a request to give a cell a formula is
malformed, circular or goes through, each in exactly the one case, and a formula can be taken out
of every cell inside the bounds. -/
theorem evaluate_exact (name : String) (settings : Settings) (requests : List Request)
    (cell expr : String) (hcell : ¬ HasLongRun cell.toList) (hexpr : ¬ HasLongRun expr.toList) :
    let s := (empty name settings).after requests
    ((∃ cause, (evaluate cell expr).run s = (.error (.malformed cause), s)) ↔
      settings.Refuses cell expr) ∧
    (∀ base id f, settings.Names cell base → base.id = .ok id → Formula.read expr base = .ok f →
      settings.Covers f base →
      ((∃ cause, (evaluate cell expr).run s = (.error (.circular cause), s)) ↔
        s.table.Closes id f base) ∧
      ((∃ updates s', (evaluate cell expr).run s = (.ok updates, s')) ↔
        ¬ s.table.Closes id f base)) ∧
    (∀ fault s', (evaluate cell expr).run s = (.error fault, s') →
      (∃ cause, fault = .malformed cause) ∨ ∃ cause, fault = .circular cause) ∧
    ∀ other p, settings.Names other p → ∃ updates s', (remove other).run s = (.ok updates, s') := by
  intro s
  obtain ⟨hs, hsettings⟩ : s.Sound ∧ s.settings = settings :=
    (sound_empty name settings).after requests
  refine ⟨?_, fun base id f hnames hid hread hcovers ↦ ?_, fun fault s' hrun ↦ ?_,
    fun other p hnames ↦ ?_⟩
  · rw [← hsettings]
    exact refuses_iff_malformed hs hcell hexpr
  · rw [← hsettings] at hnames hcovers
    exact closes_iff_circular hs (accept_of_names hnames hid hread hcovers)
  · exact fault_of_evaluate hs hcell hexpr hrun
  · rw [← hsettings] at hnames
    obtain ⟨id, hid⟩ := hnames.named.exists_id
    obtain ⟨updates, t, hrun, -⟩ := exists_remove hs hnames hid
    exact ⟨updates, _, hrun⟩

/-- The cell `c1` reads `b1`, and `b1` reads `a1`. A formula for `a1` that reads `c1` closes the
circle, and one that reads the empty cell `c2` does not. A cell named with an anchor is refused, and
`b1` can be emptied although `c1` reads it. -/
theorem evaluate_exact_chain :
    let requests : List Request :=
      [.evaluate "b1" "a1+a2", .evaluate "c1" "max(b1, b2)", .evaluate "b2" "c1"]
    let s := (empty "s" .standard).after requests
    (∃ cause, (evaluate "$a1" "7").run s = (.error (.malformed cause), s)) ∧
    (∃ cause, (evaluate "a1" "c1").run s = (.error (.circular cause), s)) ∧
    (∃ updates s', (evaluate "a1" "c2").run s = (.ok updates, s')) ∧
    ∃ updates s', (remove "b1").run s = (.ok updates, s') := by
  intro requests s
  have hshort {text : String} (h : text.toList.length ≤ maxDigits) : ¬ HasLongRun text.toList :=
    not_hasLongRun_of_length_le h
  have hnames {cell : String} {p : Position} (h : Settings.standard.locate cell = .ok p) :
      Settings.standard.Names cell p := Settings.locate_eq_ok_iff.mp h
  have ha1 : Settings.standard.Names "a1" ⟨1, 1⟩ := hnames (by decide +kernel)
  have hid : Position.id ⟨1, 1⟩ = .ok "a1" := by decide +kernel
  -- from `c1` over `b1` to `a1`
  have hc1 : s.table.Reads "c1" "b1" := by
    refine ⟨.app "max" [.ref ⟨-1, 0, false, false⟩, .ref ⟨-1, 1, false, false⟩], ⟨3, 1⟩,
      by decide +kernel, by decide +kernel, ⟨-1, 0, false, false⟩, by decide +kernel, ?_⟩
    decide +kernel
  have hb1 : s.table.Reads "b1" "a1" := by
    refine ⟨.app "+" [.ref ⟨-1, 0, false, false⟩, .ref ⟨-1, 1, false, false⟩], ⟨2, 1⟩,
      by decide +kernel, by decide +kernel, ⟨-1, 0, false, false⟩, by decide +kernel, ?_⟩
    decide +kernel
  have hcloses : s.table.Closes "a1" (.ref ⟨2, 0, false, false⟩) ⟨1, 1⟩ := by
    refine ⟨"c1", ⟨⟨2, 0, false, false⟩, by decide +kernel, by decide +kernel⟩, ?_⟩
    exact (ReflTransGen.single ⟨by decide, hc1⟩).tail ⟨by decide, hb1⟩
  have hopen : ¬ s.table.Closes "a1" (.ref ⟨2, 1, false, false⟩) ⟨1, 1⟩ := by
    rintro ⟨x, ⟨r, hr, hx⟩, hpath⟩
    obtain rfl : r = ⟨2, 1, false, false⟩ := by simpa using hr
    have hc2 : CellRef.idAt ⟨2, 1, false, false⟩ ⟨1, 1⟩ = .ok "c2" := by decide +kernel
    rw [hc2, Except.ok.injEq] at hx
    subst hx
    rcases hpath.cases_head with heq | ⟨y, ⟨-, hreads⟩, -⟩
    · exact absurd heq (by decide)
    · exact Table.not_reads_of_formula?_eq_none (by decide +kernel) hreads
  obtain ⟨hmalformed, -, -, hremove⟩ := evaluate_exact "s" .standard requests "$a1" "7"
    (hshort (by decide)) (hshort (by decide))
  obtain ⟨-, hcircular, -, -⟩ := evaluate_exact "s" .standard requests "a1" "c1"
    (hshort (by decide)) (hshort (by decide))
  obtain ⟨-, haccepted, -, -⟩ := evaluate_exact "s" .standard requests "a1" "c2"
    (hshort (by decide)) (hshort (by decide))
  refine ⟨hmalformed.mpr (Or.inl fun base hbase ↦ ?_), ?_, ?_, ?_⟩
  · obtain ⟨r, hread, hfree, -⟩ := hbase
    have hanchored : CellRef.read "$a1" = .ok ⟨1, 1, true, false⟩ := by decide +kernel
    rw [hanchored] at hread
    cases hread
    cases hfree
  · exact (hcircular _ _ _ ha1 hid (by decide +kernel) (by decide +kernel)).1.mpr hcloses
  · exact (haccepted _ _ _ ha1 hid (by decide +kernel) (by decide +kernel)).2.mpr hopen
  · exact hremove "b1" ⟨2, 1⟩ (hnames (by decide +kernel))

end Sheet

end Spreadsheet
