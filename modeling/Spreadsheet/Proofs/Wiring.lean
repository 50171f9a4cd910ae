import Spreadsheet.Proofs.CellId
import Spreadsheet.Proofs.Linking

/-!
# Assignments keep a table wired

A table is wired if its edges are those of its formulas: it has its records under canonical ids, all
references name cells, and the dependents of a cell are the cells that read it. It need not be
acyclic. That is the business of whoever walks along the edges.

One assignment looks at one formula, the old one of its cell and the new one, and has to restore the
law for all pairs of cells. The old edges are found by reading the old formula again at the position
that the id of the cell names, which is why the id has to be canonical: the position that it is read
as is then the one that the formula was assigned at.

The empty table is wired. So the law holds after any sequence of assignments, whatever they are,
with those among them that are refused.
-/

namespace Spreadsheet

namespace Table

variable {t u : Table} {x y : String}

/-! ## Wired tables -/

/-- The edges of a table are those of its formulas. -/
structure Wired (t : Table) : Prop where
  /-- A record is kept under its id, which is canonical. -/
  key : ∀ x r, t.get? x = some r → r.id = x ∧ ∃ p : Position, p.id = .ok x
  /-- All references of a formula name cells, seen from the cell that it stands in. -/
  resolves : ∀ x f base, t.formula? x = some f → Position.read x = .ok base → f.Resolves base
  /-- The dependents of a cell are the cells that read it. -/
  linked : t.Linked

theorem wired_empty : Wired ∅ where
  key _ _ hr := by cases hr
  resolves _ _ _ hf := by cases hf
  linked x y := by
    have hnone : (∅ : Table).formula? y = none := rfl
    exact iff_of_false (IdSet.not_mem_empty y) (not_reads_of_formula?_eq_none hnone)

namespace Wired

variable (h : t.Wired)

include h

theorem keyed : t.Keyed := fun x r hr ↦ (h.key x r hr).1

theorem exists_position (hx : x ∈ t.ids) : ∃ p : Position, p.id = .ok x :=
  (h.key x _ (get?_of_mem hx)).2

theorem exists_dependencies (x : String) : ∃ refs, t.dependencies x = .ok refs := by
  cases hf : t.formula? x with
  | none => exact ⟨[], by rw [dependencies, hf]⟩
  | some f =>
    obtain ⟨p, hid⟩ := h.exists_position (mem_ids_of_formula? hf)
    have hread := Position.read_id hid
    obtain ⟨refs, hrefs⟩ := Formula.exists_references_iff.mpr (h.resolves x f p hf hread)
    exact ⟨refs, by rw [dependencies, hf]; simp only [hread, Outcome.ok_bind, hrefs]⟩

theorem mem_ids_of_reads (hreads : t.Reads y x) : x ∈ t.ids :=
  mem_ids_of_mem_dependents ((h.linked x y).mpr hreads)

end Wired

/-! ## One assignment -/

/-- A formula that is to be assigned to a cell, at the cell's own position. -/
structure Assignment where
  base : Position
  id : String
  expr : String
  formula : Formula
  /-- The id is the canonical one. -/
  named : base.id = .ok id

/-- The assignment of a formula to the cell at a position. -/
def Assignment.of (base : Position) (expr : String) (f : Formula)
    (h : base.Named := by decide) : Assignment :=
  ⟨base, String.ofList base.spelling.text, expr, f, Position.id_eq_ok_iff.mpr ⟨h, rfl⟩⟩

/-- Carries out an assignment. -/
def Assignment.action (a : Assignment) : Action Table Unit :=
  Action.update (Table.assign · a.id a.expr a.formula a.base)

/-- What an assignment makes of a table, where `refs` are the cells that the new formula
references. -/
structure Rewired (t u : Table) (a : Assignment) (refs : List String) : Prop where
  wired : u.Wired
  text : u.text a.id = a.expr
  formula? : u.formula? a.id = some a.formula
  /-- No value changes, not even that of the cell itself. -/
  valueOf : ∀ x, u.valueOf x = t.valueOf x
  other : ∀ x, x ≠ a.id → u.text x = t.text x ∧ u.formula? x = t.formula? x
  kept : ∀ x ∈ t.ids, x ∈ u.ids
  /-- Only the cell and what its formula references can be new. -/
  fresh : ∀ x ∈ u.ids, x ∉ t.ids → x = a.id ∨ x ∈ refs
  /-- What is new is a placeholder, but for the formula of the cell itself. -/
  placeholder : ∀ x ∈ u.ids, x ∉ t.ids →
    u.valueOf x = 0.0 ∧ (x ≠ a.id → u.text x = "" ∧ u.formula? x = none)

theorem Assigned.wired {id expr : String} {f : Formula} {base : Position}
    (h : t.Assigned u id expr f base) (ht : t.Wired) (hid : base.id = .ok id)
    (hf : f.Resolves base) : u.Wired where
  key x r hr := by
    refine ⟨ht.keyed.congr h.recordId x r hr, ?_⟩
    rcases (h.mem_ids x).mp (mem_ids_of_get? hr) with rfl | ⟨ref, -, href⟩ | hx
    · exact ⟨base, hid⟩
    · exact ⟨_, href⟩
    · exact ht.exists_position hx
  resolves x g p hg hp := by
    rw [h.formula?] at hg
    split at hg
    · rename_i hx
      cases hg
      rw [hx, Position.read_id hid, Except.ok.injEq] at hp
      exact hp ▸ hf
    · exact ht.resolves x g p hg hp
  linked := h.linked (Position.read_id hid) ht.linked

theorem Assigned.rewired {a : Assignment} {refs : List String}
    (h : t.Assigned u a.id a.expr a.formula a.base) (ht : t.Wired)
    (hrefs : a.formula.references a.base = .ok refs) : t.Rewired u a refs where
  wired := h.wired ht a.named (Formula.exists_references_iff.mp ⟨refs, hrefs⟩)
  text := by rw [h.text, if_pos rfl]
  formula? := by rw [h.formula?, if_pos rfl]
  valueOf := h.valueOf
  other x hx := by
    rw [h.text, h.formula?, if_neg hx, if_neg hx]
    exact ⟨rfl, rfl⟩
  kept x hx := (h.mem_ids x).mpr (Or.inr (Or.inr hx))
  fresh x hx hnew := by
    rcases (h.mem_ids x).mp hx with hx | hx | hx
    · exact Or.inl hx
    · exact Or.inr ((Formula.mem_references_iff hrefs).mpr hx)
    · exact absurd hx hnew
  placeholder x _ hnew := by
    obtain ⟨htext, hformula, hvalue⟩ := parts_of_not_mem hnew
    refine ⟨by rw [h.valueOf, hvalue], fun hx ↦ ?_⟩
    rw [h.text, h.formula?, if_neg hx, if_neg hx]
    exact ⟨htext, hformula⟩

namespace Wired

variable (h : t.Wired) (a : Assignment)

include h

/-- **What an assignment does to a wired table.** It is refused for a reference that names no cell
or names the cell itself, and then the table is left as it was. -/
theorem run_assignment :
    match a.formula.references a.base with
    | .error fault => a.action.run t = (.error fault, t)
    | .ok refs =>
      if a.id ∈ refs then a.action.run t = (.error (.circular (.itself a.id)), t)
      else ∃ u, a.action.run t = (.ok (), u) ∧ t.Rewired u a refs := by
  rw [Assignment.action, Action.run_update]
  cases hrefs : a.formula.references a.base with
  | error fault =>
    have hassign : t.assign a.id a.expr a.formula a.base = .error fault := by
      rw [assign, hrefs, Outcome.error_bind]
    simp only [hassign]
  | ok refs =>
    have hresolves : a.formula.Resolves a.base := Formula.exists_references_iff.mp ⟨refs, hrefs⟩
    have hmem : a.id ∈ refs ↔ a.formula.References a.base a.id := Formula.mem_references_iff hrefs
    by_cases hself : a.id ∈ refs
    · simp only [if_pos hself]
      rw [assign_eq_error_of_references hresolves (hmem.mp hself)]
    · simp only [if_neg hself]
      obtain ⟨u, hassign, hu⟩ := exists_assign (t := t) a.expr hresolves (hmem.not.mp hself)
        (h.exists_dependencies a.id)
      exact ⟨u, by rw [hassign], hu.rewired h hrefs⟩

theorem assignment : (a.action.run t).2.Wired := by
  have hrun := h.run_assignment a
  split at hrun
  · rw [hrun]
    exact h
  · split at hrun
    · rw [hrun]
      exact h
    · obtain ⟨u, hu, hrewired⟩ := hrun
      rw [hu]
      exact hrewired.wired

end Wired

/-! ## Sequences of assignments -/

/-- Carries out assignments one after the other. Those that are refused do nothing. -/
def assignAll (as : List Assignment) (t : Table) : Table :=
  as.foldl (fun t a ↦ (a.action.run t).2) t

theorem Wired.assignAll (h : t.Wired) (as : List Assignment) : (t.assignAll as).Wired := by
  induction as generalizing t with
  | nil => exact h
  | cons a rest ih => exact ih (h.assignment a)

/-- **Assignments keep a table wired.** Whatever an assignment is, it is refused and
changes nothing, or it makes the table what its formula says and leaves the edges in step
with all formulas. So every table that is made from nothing by assignments is wired, cells
that read in circles included. -/
theorem wired_of_assignments :
    (∀ t : Table, t.Wired → ∀ a : Assignment,
      match a.formula.references a.base with
      | .error fault => a.action.run t = (.error fault, t)
      | .ok refs =>
        if a.id ∈ refs then a.action.run t = (.error (.circular (.itself a.id)), t)
        else ∃ u, a.action.run t = (.ok (), u) ∧ t.Rewired u a refs) ∧
    ∀ as : List Assignment, (Table.assignAll as ∅).Wired :=
  ⟨fun _ h a ↦ h.run_assignment a, fun as ↦ wired_empty.assignAll as⟩

/-- Two cells read each other, the first one through two spellings of one reference. It then gets a
formula that shares a reference with the old one. It cannot read itself, nor a cell before the first
column. -/
theorem wired_of_assignments_circle :
    let b1 : CellRef := ⟨1, 0, false, false⟩
    let toA (expr : String) (f : Formula) : Assignment := .of ⟨1, 1⟩ expr f
    let toB (expr : String) (f : Formula) : Assignment := .of ⟨2, 1⟩ expr f
    let t := Table.assignAll [toA "b1+$B$1" (.app "+" [.ref b1, .ref ⟨2, 1, true, true⟩]),
      toB "a1" (.ref ⟨-1, 0, false, false⟩)] ∅
    let overlap := toA "b1+c1" (.app "+" [.ref b1, .ref ⟨2, 0, false, false⟩])
    let itself := toA "a1" (.ref ⟨0, 0, false, false⟩)
    let outside := toA "?" (.ref ⟨-1, 0, false, false⟩)
    t.Wired ∧ t.Reads "a1" "b1" ∧ t.Reads "b1" "a1" ∧
      (∃ u, overlap.action.run t = (.ok (), u) ∧ t.Rewired u overlap ["b1", "c1"] ∧
        u.ids = ["b1", "a1", "c1"]) ∧
      itself.action.run t = (.error (.circular (.itself "a1")), t) ∧
      outside.action.run t = (.error (.malformed (.offSheet 0 1)), t) := by
  intro b1 toA toB t overlap itself outside
  obtain ⟨hstep, hall⟩ := wired_of_assignments
  have ht : t.Wired := hall _
  refine ⟨ht, (ht.linked "b1" "a1").mp (by decide +kernel),
    (ht.linked "a1" "b1").mp (by decide +kernel), ?_, ?_, ?_⟩
  · have h := hstep t ht overlap
    have hrefs : overlap.formula.references overlap.base = .ok ["b1", "c1"] := by decide +kernel
    simp only [hrefs, if_neg (show overlap.id ∉ ["b1", "c1"] by decide +kernel)] at h
    obtain ⟨u, hrun, hrewired⟩ := h
    have hids : (overlap.action.run t).2.ids = ["b1", "a1", "c1"] := by decide +kernel
    exact ⟨u, hrun, hrewired, by rwa [hrun] at hids⟩
  · have h := hstep t ht itself
    have hrefs : itself.formula.references itself.base = .ok ["a1"] := by decide +kernel
    have hid : itself.id = "a1" := by decide +kernel
    simpa only [hrefs, hid, if_pos List.mem_cons_self] using h
  · have h := hstep t ht outside
    have hrefs : outside.formula.references outside.base = .error (.malformed (.offSheet 0 1)) := by
      decide +kernel
    simpa only [hrefs] using h

end Table

end Spreadsheet
