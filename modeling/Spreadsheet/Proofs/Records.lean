import Spreadsheet.Proofs.Walk
import Spreadsheet.Table.Recalculation

/-!
# Tables as functions from ids to records

A cell without a record behaves like a placeholder: it has no formula, is worth zero and has no
dependents. `Table.record` takes a table in that way, as a function that gives every id a record.
All that an edit looks at is in this function, except for the order in which cells were created and
whether a placeholder is there or not.

Each operation on tables is described by what it does to the function. Creating a placeholder does
nothing to it, and neither does taking away a record that is a placeholder again.

A record has the id of its cell as one of its parts, which no operation changes. A table in which
all records are kept under their own ids is `Keyed`. Edits look cells up under their keys, so this
matters only where the ids of records are read.
-/

namespace Spreadsheet

namespace Table

variable {t u : Table} {id other reader : String}

/-- The record of a cell, a placeholder if it has none. -/
def record (t : Table) (id : String) : Record := (t.get? id).getD (.placeholder id)

/-- The id that the record of a cell has. -/
def recordId (t : Table) (id : String) : String := (t.record id).id

/-- The text of the formula of a cell, empty if it has none. -/
def text (t : Table) (id : String) : String := (t.record id).expr

theorem record_of_get? {r : Record} (h : t.get? id = some r) : t.record id = r := by
  rw [record, h, Option.getD_some]

theorem record_of_not_mem (h : id ∉ t.ids) : t.record id = .placeholder id := by
  rw [record, OrderedMap.get?_eq_none_iff.mpr h, Option.getD_none]

theorem mem_ids_of_get? {r : Record} (h : t.get? id = some r) : id ∈ t.ids :=
  OrderedMap.mem_keys_iff.mpr ⟨r, h⟩

theorem get?_of_mem (h : id ∈ t.ids) : t.get? id = some (t.record id) := by
  obtain ⟨r, hr⟩ := OrderedMap.mem_keys_iff.mp h
  rw [record_of_get? hr, hr]

/-! ## The parts of a record -/

@[simp] theorem record_expr (t : Table) (id : String) : (t.record id).expr = t.text id := rfl

@[simp] theorem record_formula (t : Table) (id : String) :
    (t.record id).formula = t.formula? id := by
  cases h : t.get? id with
  | none => rw [record, h, formula?, h]; rfl
  | some r => rw [record_of_get? h, formula?, h]; rfl

@[simp] theorem record_value (t : Table) (id : String) : (t.record id).value = t.valueOf id := by
  cases h : t.get? id with
  | none => rw [record, h, valueOf, h]; rfl
  | some r => rw [record_of_get? h, valueOf, h]

@[simp] theorem record_dependents (t : Table) (id : String) :
    (t.record id).dependents = t.dependents id := by
  cases h : t.get? id with
  | none => rw [record, h, dependents, h]; rfl
  | some r => rw [record_of_get? h, dependents, h]

theorem parts_of_not_mem (h : id ∉ t.ids) :
    t.text id = "" ∧ t.formula? id = none ∧ t.valueOf id = 0.0 := by
  rw [text, ← record_formula, ← record_value, record_of_not_mem h]
  exact ⟨rfl, rfl, rfl⟩

theorem record_eq_iff : t.record id = u.record other ↔
    t.recordId id = u.recordId other ∧ t.text id = u.text other ∧
      t.formula? id = u.formula? other ∧ t.valueOf id = u.valueOf other ∧
        t.dependents id = u.dependents other := by
  rw [← record_formula, ← record_formula, ← record_value, ← record_value, ← record_dependents,
    ← record_dependents, recordId, recordId, text, text]
  constructor
  · intro h
    rw [h]
    exact ⟨rfl, rfl, rfl, rfl, rfl⟩
  · rintro ⟨hid, hexpr, hformula, hvalue, hdependents⟩
    cases ht : t.record id
    cases hu : u.record other
    rw [ht, hu] at hid hexpr hformula hvalue hdependents
    congr

theorem parts_eq (h : t.record = u.record) : t.text = u.text ∧ t.formula? = u.formula? ∧
    t.valueOf = u.valueOf ∧ t.dependents = u.dependents := by
  have hparts := fun x ↦ record_eq_iff.mp (congrFun h x)
  exact ⟨funext fun x ↦ (hparts x).2.1, funext fun x ↦ (hparts x).2.2.1,
    funext fun x ↦ (hparts x).2.2.2.1, funext fun x ↦ (hparts x).2.2.2.2⟩

theorem entries_eq (t : Table) : t.entries = t.ids.map fun x ↦ (x, t.record x) := by
  rw [ids, OrderedMap.keys, List.map_map]
  refine (List.map_id _).symm.trans (List.map_congr_left fun e he ↦ ?_)
  rw [Function.comp_apply, record_of_get? (OrderedMap.get?_eq_some_iff.mpr he), id_eq]

/-- **Tables with the same records under the same ids are equal.** -/
theorem eq_of_record_eq (hids : t.ids = u.ids) (hrecord : t.record = u.record) : t = u := by
  refine OrderedMap.ext ?_
  rw [entries_eq, entries_eq, hids, hrecord]

theorem hasFormula_iff : t.hasFormula id = true ↔ ∃ f, t.formula? id = some f :=
  Option.isSome_iff_exists

theorem mem_ids_of_formula? {f : Formula} (h : t.formula? id = some f) : id ∈ t.ids :=
  mem_ids_of_hasFormula (hasFormula_iff.mpr ⟨f, h⟩)

theorem mem_ids_of_mem_dependents (h : reader ∈ t.dependents id) : id ∈ t.ids := by
  by_contra hnot
  rw [← record_dependents, record_of_not_mem hnot] at h
  exact absurd h (IdSet.not_mem_empty reader)

/-! ## What the operations do -/

@[simp] theorem record_empty (id : String) : (∅ : Table).record id = .placeholder id := rfl

@[simp] theorem record_ensure (t : Table) (id : String) : (t.ensure id).record = t.record := by
  funext other
  rw [record, get?_ensure]
  split
  · rename_i h
    rw [h]
    rfl
  · rfl

theorem record_modify {g : Record → Record}
    (h : id ∈ t.ids ∨ g (.placeholder id) = .placeholder id) :
    record (t.modify id g) other = if other = id then g (t.record other) else t.record other := by
  rw [record, OrderedMap.get?_modify]
  split
  · rename_i heq
    subst heq
    rcases h with hmem | hfixed
    · rw [get?_of_mem hmem]
      rfl
    · cases hget : t.get? other with
      | none => rw [record, hget]; exact hfixed.symm
      | some r => rw [record, hget]; rfl
  · rfl

theorem mem_ids_ensure : other ∈ (t.ensure id).ids ↔ other = id ∨ other ∈ t.ids := by
  unfold ensure
  split
  · rename_i h
    refine ⟨Or.inr, fun hother ↦ hother.elim (fun heq ↦ ?_) fun hmem ↦ hmem⟩
    rw [heq]
    exact OrderedMap.contains_iff.mp h
  · exact OrderedMap.mem_keys_insert

theorem record_addDependent :
    (t.addDependent id reader).record other
      = if other = id then (t.record other).addDependent reader else t.record other := by
  rw [addDependent, record_modify (Or.inl (mem_ids_ensure.mpr (Or.inl rfl))), record_ensure]

theorem record_dropDependent :
    (t.dropDependent id reader).record other
      = if other = id then (t.record other).dropDependent reader else t.record other := by
  rw [dropDependent, record_modify (Or.inr rfl)]

theorem record_erase :
    record (t.erase id) other = if other = id then .placeholder other else t.record other := by
  rw [record, OrderedMap.get?_erase]
  split <;> rfl

@[simp] theorem ids_dropDependent : (t.dropDependent id reader).ids = t.ids :=
  OrderedMap.keys_modify _ _ _

theorem mem_ids_addDependent :
    other ∈ (t.addDependent id reader).ids ↔ other = id ∨ other ∈ t.ids := by
  rw [addDependent, ids, OrderedMap.keys_modify]
  exact mem_ids_ensure

/-! ## Records under their own ids -/

/-- Every record is kept under its own id. -/
def Keyed (t : Table) : Prop := ∀ id r, t.get? id = some r → r.id = id

theorem keyed_iff : t.Keyed ↔ ∀ id, t.recordId id = id := by
  constructor
  · intro h id
    cases hget : t.get? id with
    | none => rw [recordId, record, hget]; rfl
    | some r => rw [recordId, record_of_get? hget, h id r hget]
  · intro h id r hget
    rw [← record_of_get? hget]
    exact h id

theorem Keyed.congr (h : t.Keyed) (hid : ∀ id, u.recordId id = t.recordId id) : u.Keyed :=
  keyed_iff.mpr fun id ↦ (hid id).trans (keyed_iff.mp h id)

theorem records_eq (t : Table) : t.records = t.ids.map t.record := by
  rw [records, entries_eq, List.map_map]
  rfl

/-! ## Readers -/

theorem edge_readersGraph {x y : String} :
    t.readersGraph.Edge x y ↔ y ∈ t.dependents x ∧ ∃ f, t.formula? y = some f := by
  rw [← hasFormula_iff]
  exact mem_readers

theorem affected_eq_ok_iff {origin : String} {cells : List String} :
    t.affected origin = .ok cells ↔ t.readersGraph.walk origin = .ok cells := by
  rw [affected]
  cases t.readersGraph.walk origin <;> simp

theorem affected_eq_error_iff {origin : String} {fault : Fault} :
    t.affected origin = .error fault ↔
      ∃ cycle, t.readersGraph.walk origin = .error cycle ∧ fault = .circular (.path cycle) := by
  rw [affected]
  cases t.readersGraph.walk origin <;> simp [eq_comm]

theorem exists_formula_of_affected {origin : String} {cells : List String}
    (h : t.affected origin = .ok cells) (hid : id ∈ cells) : ∃ f, t.formula? id = some f := by
  obtain ⟨-, -, hmem⟩ := Graph.walk_ok (affected_eq_ok_iff.mp h)
  obtain ⟨_, -, hedge⟩ := Relation.TransGen.tail'_iff.mp ((hmem id).mp hid)
  exact (edge_readersGraph.mp hedge).2

theorem mem_ids_of_affected {origin : String} {cells : List String}
    (h : t.affected origin = .ok cells) : ∀ x ∈ cells, x ∈ t.ids := fun _ hx ↦
  (exists_formula_of_affected h hx).elim fun _ ↦ mem_ids_of_formula?

theorem affected_congr (hdependents : t.dependents = u.dependents)
    (hformula : t.formula? = u.formula?) (origin : String) :
    t.affected origin = u.affected origin := by
  have hnext : t.readersGraph.next = u.readersGraph.next := by
    funext x
    change (t.dependents x).ids.filter t.hasFormula = (u.dependents x).ids.filter u.hasFormula
    have hhas : t.hasFormula = u.hasFormula := by
      funext y
      rw [hasFormula, hasFormula, hformula]
    rw [hdependents, hhas]
  rw [affected, affected, Graph.walk_congr hnext]

end Table

end Spreadsheet
