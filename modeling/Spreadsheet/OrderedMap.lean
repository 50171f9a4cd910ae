/-!
# Maps in insertion order

A finite map that remembers in which order its keys came. Overwriting a key keeps its place; a key
that is erased and inserted again goes to the end. The order shows in listings, so it is part of the
map: two maps are equal exactly if they list the same entries in the same order.

Every operation is described twice: by what it does to look-ups (`get?_insert`, `get?_modify`,
`get?_erase`) and by what it does to the order (`keys_insert`, `keys_modify`, `keys_erase`).
-/

namespace Spreadsheet

/-- A map of finitely many keys, in the order of their insertion. -/
structure OrderedMap (κ ν : Type) where
  /-- The keys with their values, the oldest key first. -/
  entries : List (κ × ν)
  /-- No key occurs twice. -/
  nodup : (entries.map Prod.fst).Nodup

namespace OrderedMap

variable {κ ν : Type}

@[ext] theorem ext {m n : OrderedMap κ ν} (h : m.entries = n.entries) : m = n := by
  cases m; cases n; cases h; rfl

/-- The map without keys. -/
def empty : OrderedMap κ ν := ⟨[], List.nodup_nil⟩

instance : EmptyCollection (OrderedMap κ ν) := ⟨empty⟩

instance : Inhabited (OrderedMap κ ν) := ⟨empty⟩

instance [DecidableEq κ] [DecidableEq ν] : DecidableEq (OrderedMap κ ν) := fun m n ↦
  decidable_of_iff (m.entries = n.entries) ⟨ext, congrArg entries⟩

/-- The keys, the oldest first. -/
def keys (m : OrderedMap κ ν) : List κ := m.entries.map Prod.fst

/-- How many keys there are. -/
def size (m : OrderedMap κ ν) : Nat := m.entries.length

/-- Changes every value, with a view of its key, and keeps the order. -/
def mapValues {ξ : Type} (f : κ → ν → ξ) (m : OrderedMap κ ν) : OrderedMap κ ξ where
  entries := m.entries.map fun e ↦ (e.1, f e.1 e.2)
  nodup := by
    have h := m.nodup
    rwa [List.map_map]

theorem nodup_keys (m : OrderedMap κ ν) : m.keys.Nodup := m.nodup

@[simp] theorem length_keys (m : OrderedMap κ ν) : m.keys.length = m.size := List.length_map _

@[simp] theorem entries_empty : (∅ : OrderedMap κ ν).entries = [] := rfl

@[simp] theorem keys_empty : (∅ : OrderedMap κ ν).keys = [] := rfl

@[simp] theorem keys_mapValues {ξ : Type} (f : κ → ν → ξ) (m : OrderedMap κ ν) :
    (m.mapValues f).keys = m.keys := by
  simp [keys, mapValues, Function.comp_def]

variable [DecidableEq κ]

/-! ## Operations -/

/-- The value of a key. -/
def get? (m : OrderedMap κ ν) (k : κ) : Option ν := m.entries.lookup k

/-- Whether a key is there. -/
def contains (m : OrderedMap κ ν) (k : κ) : Bool := (m.get? k).isSome

/-- Changes the value of a key that is there. -/
def modify (m : OrderedMap κ ν) (k : κ) (f : ν → ν) : OrderedMap κ ν :=
  m.mapValues fun j v ↦ if j = k then f v else v

/-- Takes a key out. -/
def erase (m : OrderedMap κ ν) (k : κ) : OrderedMap κ ν where
  entries := m.entries.filter fun e ↦ e.1 ≠ k
  nodup := m.nodup.sublist (List.filter_sublist.map _)

/-! ## Look-ups -/

private theorem lookup_eq_some_iff {es : List (κ × ν)} (h : (es.map Prod.fst).Nodup) {k : κ}
    {v : ν} : es.lookup k = some v ↔ (k, v) ∈ es := by
  induction es with
  | nil => simp
  | cons e rest ih =>
    obtain ⟨j, w⟩ := e
    rw [List.map_cons, List.nodup_cons] at h
    by_cases hk : k = j
    · subst hk
      have hnot : (k, v) ∉ rest := fun hmem ↦ h.1 (List.mem_map.mpr ⟨_, hmem, rfl⟩)
      simp [hnot, eq_comm]
    · have hb : (k == j) = false := by simpa using hk
      simp [List.lookup_cons, hb, ih h.2, hk]

theorem get?_eq_some_iff {m : OrderedMap κ ν} {k : κ} {v : ν} :
    m.get? k = some v ↔ (k, v) ∈ m.entries := lookup_eq_some_iff m.nodup

theorem get?_eq_none_iff {m : OrderedMap κ ν} {k : κ} : m.get? k = none ↔ k ∉ m.keys := by
  constructor
  · intro h hk
    obtain ⟨⟨j, v⟩, hmem, rfl⟩ := List.mem_map.mp hk
    rw [get?_eq_some_iff.mpr hmem] at h
    cases h
  · intro h
    cases hv : m.get? k with
    | none => rfl
    | some v => exact absurd (List.mem_map_of_mem (get?_eq_some_iff.mp hv)) h

theorem mem_keys_iff {m : OrderedMap κ ν} {k : κ} : k ∈ m.keys ↔ ∃ v, m.get? k = some v := by
  rw [← Decidable.not_not (p := k ∈ m.keys), ← get?_eq_none_iff, ← ne_eq,
    Option.ne_none_iff_exists']

theorem contains_iff {m : OrderedMap κ ν} {k : κ} : m.contains k = true ↔ k ∈ m.keys := by
  rw [contains, Option.isSome_iff_exists, mem_keys_iff]

@[simp] theorem get?_empty (k : κ) : (∅ : OrderedMap κ ν).get? k = none := rfl

@[simp] theorem get?_mapValues {ξ : Type} (f : κ → ν → ξ) (m : OrderedMap κ ν) (k : κ) :
    (m.mapValues f).get? k = (m.get? k).map (f k) := by
  obtain ⟨es, h⟩ := m
  simp only [get?, mapValues]
  clear h
  induction es with
  | nil => rfl
  | cons e rest ih =>
    obtain ⟨j, v⟩ := e
    by_cases hk : k = j
    · subst hk; simp
    · have hb : (k == j) = false := by simpa using hk
      simpa [List.lookup_cons, hb] using ih

theorem get?_modify (m : OrderedMap κ ν) (k : κ) (f : ν → ν) (j : κ) :
    (m.modify k f).get? j = if j = k then (m.get? j).map f else m.get? j := by
  rw [modify, get?_mapValues]
  split <;> simp

theorem modify_eq_self {m : OrderedMap κ ν} {k : κ} {f : ν → ν}
    (h : ∀ v, m.get? k = some v → f v = v) : m.modify k f = m := by
  refine ext (List.ext_getElem (List.length_map _) fun i hi hi' ↦ ?_)
  simp only [modify, mapValues, List.getElem_map]
  split
  · rename_i heq
    have hget : m.get? k = some m.entries[i].2 :=
      get?_eq_some_iff.mpr (heq ▸ List.getElem_mem hi')
    rw [h _ hget]
  · rfl

@[simp] theorem keys_modify (m : OrderedMap κ ν) (k : κ) (f : ν → ν) :
    (m.modify k f).keys = m.keys := keys_mapValues _ m

theorem keys_erase (m : OrderedMap κ ν) (k : κ) :
    (m.erase k).keys = m.keys.filter fun j ↦ j ≠ k := by
  simp [keys, erase, List.filter_map, Function.comp_def]

theorem get?_erase (m : OrderedMap κ ν) (k j : κ) :
    (m.erase k).get? j = if j = k then none else m.get? j := by
  split
  · rename_i h
    rw [get?_eq_none_iff, keys_erase, h]
    simp
  · rename_i h
    ext v
    rw [get?_eq_some_iff, get?_eq_some_iff]
    simp [erase, h]

/-! ## Insertion -/

/-- Puts a key that is not there at the end. -/
private def push (m : OrderedMap κ ν) (k : κ) (v : ν) (h : k ∉ m.keys) : OrderedMap κ ν where
  entries := m.entries ++ [(k, v)]
  nodup := by
    rw [List.map_append, List.nodup_append]
    refine ⟨m.nodup, by simp, fun a ha b hb heq ↦ h ?_⟩
    rw [List.map_singleton, List.mem_singleton] at hb
    subst heq hb
    exact ha

/-- Gives a key a value, at its place if it is there and at the end if it is not. -/
def insert (m : OrderedMap κ ν) (k : κ) (v : ν) : OrderedMap κ ν :=
  if h : k ∈ m.keys then m.modify k fun _ ↦ v else m.push k v h

/-- **The order law**: a key that is there keeps its place, and a new one goes last. -/
theorem keys_insert (m : OrderedMap κ ν) (k : κ) (v : ν) :
    (m.insert k v).keys = if k ∈ m.keys then m.keys else m.keys ++ [k] := by
  unfold insert
  split
  · exact keys_modify m k _
  · simp [keys, push]

theorem mem_keys_insert {m : OrderedMap κ ν} {k j : κ} {v : ν} :
    j ∈ (m.insert k v).keys ↔ j = k ∨ j ∈ m.keys := by
  rw [keys_insert]
  split
  · rename_i h
    exact ⟨Or.inr, fun hj ↦ hj.elim (fun e ↦ e ▸ h) id⟩
  · simp [or_comm]

/-- **The look-up law**: an insertion shows at its key only. -/
theorem get?_insert (m : OrderedMap κ ν) (k : κ) (v : ν) (j : κ) :
    (m.insert k v).get? j = if j = k then some v else m.get? j := by
  unfold insert
  split
  · rename_i h
    rw [get?_modify]
    split
    · rename_i hj
      obtain ⟨w, hw⟩ := mem_keys_iff.mp h
      simp [hj, hw]
    · rfl
  · rename_i h
    ext w
    rw [get?_eq_some_iff]
    simp only [push, List.mem_append, List.mem_singleton, Prod.mk.injEq]
    rw [← get?_eq_some_iff]
    split
    · rename_i hj
      simp [hj, get?_eq_none_iff.mpr h, eq_comm]
    · rename_i hj
      simp [hj]

end OrderedMap

end Spreadsheet
