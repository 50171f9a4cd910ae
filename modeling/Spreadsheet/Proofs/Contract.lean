import Spreadsheet.Proofs.Evaluation
import Spreadsheet.Proofs.Reader

/-!
# What an evaluation can meet

An evaluation meets the cells that its formula references. It reads all of them before it has a
value, and no other cell, so the references that a sheet keeps track of are those that matter
(`evaluate_of_references`).

What it can fail at depends on the formula. One that was read applies only what the library has, so
nothing in it is without a meaning, and it fails only at a reference. In its own cell its references
name cells, and so there is a value. In another cell they may lie off the sheet, and that is the
only fault there, apart from numbers that are too long (`evaluate_of_read`).
-/

namespace Spreadsheet

namespace Formula

variable {f : Formula} {base : Position} {valueOf : String → Float} {fault : Fault}

/-! ## The cells that are read -/

/-- **The listed references are what an evaluation reads.** Tables that agree on them give the same
value or the same fault, and where they cannot be listed there is no value. -/
theorem evaluate_of_references (f : Formula) (base : Position) :
    (∀ ids, f.references base = .ok ids → ∀ t u : Table,
      (∀ id ∈ ids, t.valueOf id = u.valueOf id) →
        f.evaluate t.valueOf base = f.evaluate u.valueOf base) ∧
    ∀ fault, f.references base = .error fault → ∀ t : Table,
      ∃ fault', f.evaluate t.valueOf base = .error fault' := by
  constructor
  · intro ids hids t u hagree
    exact evaluate_congr fun id hid ↦ hagree id ((mem_references_iff hids).mpr hid)
  · intro fault hfault t
    cases hvalue : f.evaluate t.valueOf base with
    | error fault' => exact ⟨fault', rfl⟩
    | ok value =>
      obtain ⟨ids, hids⟩ := exists_references_iff.mpr (resolves_of_evaluate hvalue)
      rw [hids] at hfault
      cases hfault

/-- The sum of the cell above and the cell to the left does not read `c9`. In `a1` there is no
cell in either place. -/
theorem evaluate_of_references_sum :
    let f : Formula := .app "+" [.ref ⟨0, -1, false, false⟩, .ref ⟨-1, 0, false, false⟩]
    f.evaluate (Table.setValue ∅ "c9" 1.0).valueOf ⟨2, 2⟩ = f.evaluate (∅ : Table).valueOf ⟨2, 2⟩ ∧
      ∃ fault, f.evaluate (∅ : Table).valueOf ⟨1, 1⟩ = .error fault := by
  intro f
  have hids : f.references ⟨2, 2⟩ = .ok ["b1", "a2"] := by decide +kernel
  have hoff : f.references ⟨1, 1⟩ = .error (.malformed (.offSheet 1 0)) := by decide +kernel
  refine ⟨(evaluate_of_references f _).1 _ hids _ _ ?_, (evaluate_of_references f _).2 _ hoff _⟩
  decide +kernel

/-! ## The faults of formulas that were read -/

theorem exists_ref_of_evaluate_error (hf : f.Supported)
    (h : f.evaluate valueOf base = .error fault) : ∃ r ∈ f.refs, r.idAt base = .error fault := by
  induction hf with
  | num value =>
    rw [evaluate, foldM_num] at h
    cases h
  | ref target =>
    rw [evaluate_ref] at h
    exact ⟨target, by simp, Outcome.map_eq_error_iff.mp h⟩
  | @app fn args accepts supported ih =>
    rw [evaluate_app, Outcome.bind_eq_error_iff] at h
    rcases h with hargs | ⟨values, hvalues, happly⟩
    · obtain ⟨g, hg, hfault⟩ := Outcome.exists_mem_of_mapM_eq_error hargs
      obtain ⟨r, hr, hid⟩ := ih g hg hfault
      exact ⟨r, by rw [refs_app]; exact List.mem_flatMap.mpr ⟨g, hg, hr⟩, hid⟩
    · -- there are as many values as operands, and the library takes that many
      have hlen : values.length = args.length := length_of_mapM_eq_ok hvalues
      obtain ⟨value, hvalue⟩ := Operation.exists_apply (hlen ▸ accepts)
      rw [hvalue] at happly
      cases happly

/-- **A formula that was read has a value in its cell**, whatever the other cells are worth, and
meets nothing without a meaning in any cell. Numbers of too many digits apart, it has a value in
every cell, except that it is malformed exactly where one of its references lies off the sheet. -/
theorem evaluate_of_read {text : String} (h : read text base = .ok f) :
    (∀ t : Table, ∃ value, f.evaluate t.valueOf base = .ok value) ∧
    ∀ (t : Table) (base' : Position),
      (∀ cause, f.evaluate t.valueOf base' ≠ .error (.unsupported cause)) ∧
      ((∀ r ∈ f.refs, (r.resolve base').position.Writable) →
        ((∃ value, f.evaluate t.valueOf base' = .ok value) ∨
          ∃ cause, f.evaluate t.valueOf base' = .error (.malformed cause)) ∧
        ((∃ cause, f.evaluate t.valueOf base' = .error (.malformed cause)) ↔
          ∃ r ∈ f.refs, (r.resolve base').col < 1 ∨ (r.resolve base').row < 1)) := by
  have hread := wellRead_of_read h
  refine ⟨fun t ↦ (exists_evaluate_iff hread.supported).mpr hread.resolves, fun t base' ↦ ⟨?_, ?_⟩⟩
  · intro cause hfault
    obtain ⟨r, -, hid⟩ := exists_ref_of_evaluate_error hread.supported hfault
    rcases Position.fault_of_id hid with hfault | hfault <;> cases hfault
  · intro hwritable
    have hoff {fault : Fault} (hfault : f.evaluate t.valueOf base' = .error fault) :
        (∃ r ∈ f.refs, (r.resolve base').col < 1 ∨ (r.resolve base').row < 1) ∧
          ∃ cause, fault = .malformed cause := by
      obtain ⟨r, hr, hid⟩ := exists_ref_of_evaluate_error hread.supported hfault
      obtain ⟨hnot, hcause⟩ := (hwritable r hr).fault_of_id hid
      exact ⟨⟨r, hr, Position.not_onSheet_iff.mp hnot⟩, _, hcause⟩
    cases hvalue : f.evaluate t.valueOf base' with
    | ok value =>
      refine ⟨Or.inl ⟨value, rfl⟩, nofun, ?_⟩
      rintro ⟨r, hr, hnot⟩
      obtain ⟨id, hid⟩ := resolves_of_evaluate hvalue r hr
      have hnamed := (Position.id_eq_ok_iff.mp hid).1
      exact absurd (Position.onSheet_iff.mpr ⟨hnamed.one_le_col, hnamed.one_le_row⟩)
        (Position.not_onSheet_iff.mpr hnot)
    | error fault =>
      obtain ⟨hexists, cause, rfl⟩ := hoff hvalue
      exact ⟨Or.inr ⟨cause, rfl⟩, fun _ ↦ hexists, fun _ ↦ ⟨cause, rfl⟩⟩

/-- A formula of the cell `c3` with a name in capitals and a minus sign of one operand. In `a1` the
free one of its references is two columns off the sheet. -/
theorem evaluate_of_read_moved :
    let f : Formula := .app "*" [
      .app "min" [.ref ⟨-2, -2, false, false⟩, .app "-" [.ref ⟨2, 2, true, true⟩]],
      .num (Decimal.toFloat ⟨2, 0⟩)]
    read "Min(a1, -$b$2) * 2" ⟨3, 3⟩ = .ok f ∧
      (∃ value, f.evaluate (Table.setValue ∅ "b2" 7.0).valueOf ⟨3, 3⟩ = .ok value) ∧
      ∃ cause, f.evaluate (∅ : Table).valueOf ⟨1, 1⟩ = .error (.malformed cause) := by
  intro f
  have hread : read "Min(a1, -$b$2) * 2" ⟨3, 3⟩ = .ok f := by decide +kernel
  obtain ⟨hvalue, helsewhere⟩ := evaluate_of_read hread
  obtain ⟨-, hfault⟩ := (helsewhere ∅ ⟨1, 1⟩).2 (by decide +kernel)
  exact ⟨hread, hvalue _, hfault.mpr (by decide +kernel)⟩

end Formula

end Spreadsheet
