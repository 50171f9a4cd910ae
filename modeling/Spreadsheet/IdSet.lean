/-!
# Sets of ids

A finite set of cell ids, held as the ascending list of its members. Ids are compared character by
character, so `a10` comes before `a2`. A set has only one form: sets with the same members are equal
(`ext`), whatever the order in which the members came.
-/

namespace Spreadsheet

/-- A finite set of ids. -/
structure IdSet where
  /-- The members. -/
  ids : List String
  /-- They are in ascending order, without repetitions. -/
  ascending : ids.Pairwise (· < ·)
  deriving DecidableEq

namespace IdSet

/-- The set without members. -/
def empty : IdSet := ⟨[], List.Pairwise.nil⟩

instance : EmptyCollection IdSet := ⟨empty⟩

instance : Inhabited IdSet := ⟨empty⟩

instance : Membership String IdSet := ⟨fun s id ↦ id ∈ s.ids⟩

instance (id : String) (s : IdSet) : Decidable (id ∈ s) := inferInstanceAs (Decidable (id ∈ s.ids))

/-- Whether there is no member. -/
def isEmpty (s : IdSet) : Bool := s.ids.isEmpty

theorem mem_def {s : IdSet} {id : String} : id ∈ s ↔ id ∈ s.ids := Iff.rfl

@[simp] theorem not_mem_empty (id : String) : id ∉ (∅ : IdSet) := List.not_mem_nil

theorem isEmpty_iff {s : IdSet} : s.isEmpty = true ↔ ∀ id, id ∉ s := by
  simp only [isEmpty, List.isEmpty_iff, mem_def, List.eq_nil_iff_forall_not_mem]

theorem nodup (s : IdSet) : s.ids.Nodup := by
  refine List.Pairwise.imp ?_ s.ascending
  rintro a b hlt rfl
  exact String.lt_irrefl a hlt

/-! ## Equality -/

private theorem eq_of_mem_iff {as bs : List String} (ha : as.Pairwise (· < ·))
    (hb : bs.Pairwise (· < ·)) (h : ∀ id, id ∈ as ↔ id ∈ bs) : as = bs := by
  induction as generalizing bs with
  | nil =>
    cases bs with
    | nil => rfl
    | cons b _ => exact absurd ((h b).mpr List.mem_cons_self) List.not_mem_nil
  | cons a as ih =>
    cases bs with
    | nil => exact absurd ((h a).mp List.mem_cons_self) List.not_mem_nil
    | cons b bs =>
      rw [List.pairwise_cons] at ha hb
      have hab : a = b := by
        rcases List.mem_cons.mp ((h a).mp List.mem_cons_self) with heq | hmem
        · exact heq
        · rcases List.mem_cons.mp ((h b).mpr List.mem_cons_self) with heq | hmem'
          · exact heq.symm
          · exact absurd (ha.1 b hmem') (String.lt_asymm (hb.1 a hmem))
      subst hab
      refine congrArg (a :: ·) (ih ha.2 hb.2 fun id ↦ ⟨fun hid ↦ ?_, fun hid ↦ ?_⟩)
      · rcases List.mem_cons.mp ((h id).mp (List.mem_cons_of_mem a hid)) with heq | hmem
        · exact absurd (ha.1 id hid) (heq ▸ String.lt_irrefl id)
        · exact hmem
      · rcases List.mem_cons.mp ((h id).mpr (List.mem_cons_of_mem a hid)) with heq | hmem
        · exact absurd (hb.1 id hid) (heq ▸ String.lt_irrefl id)
        · exact hmem

/-- **Sets with the same members are equal.** -/
@[ext] theorem ext {s t : IdSet} (h : ∀ id, id ∈ s ↔ id ∈ t) : s = t := by
  obtain ⟨as, ha⟩ := s
  obtain ⟨bs, hb⟩ := t
  cases eq_of_mem_iff ha hb h
  rfl

/-! ## Insertion -/

/-- Puts an id at its place in an ascending list. -/
def place (id : String) : List String → List String
  | [] => [id]
  | other :: rest =>
    if id < other then id :: other :: rest
    else if id = other then other :: rest
    else other :: place id rest

theorem mem_place {id other : String} {ids : List String} :
    other ∈ place id ids ↔ other = id ∨ other ∈ ids := by
  fun_induction place id ids with
  | case1 => simp
  | case2 => simp
  | case3 => simp
  | case4 _ _ _ _ ih => simp [ih, or_left_comm]

private theorem ascending_place {id : String} {ids : List String} (h : ids.Pairwise (· < ·)) :
    (place id ids).Pairwise (· < ·) := by
  fun_induction place id ids with
  | case1 => simp
  | case2 other rest hlt =>
    refine List.pairwise_cons.mpr ⟨fun x hx ↦ ?_, h⟩
    rcases List.mem_cons.mp hx with rfl | hx
    · exact hlt
    · exact String.lt_trans hlt ((List.pairwise_cons.mp h).1 x hx)
  | case3 => exact h
  | case4 other rest hlt hne ih =>
    rw [List.pairwise_cons] at h
    refine List.pairwise_cons.mpr ⟨fun x hx ↦ ?_, ih h.2⟩
    rcases mem_place.mp hx with rfl | hx
    · exact Decidable.byContradiction fun hnot ↦
        hne (String.le_antisymm (String.not_lt.mp hnot) (String.not_lt.mp hlt))
    · exact h.1 x hx

/-- The set with one more member. -/
def insert (s : IdSet) (id : String) : IdSet := ⟨place id s.ids, ascending_place s.ascending⟩

@[simp] theorem mem_insert {s : IdSet} {id other : String} :
    other ∈ s.insert id ↔ other = id ∨ other ∈ s := mem_place

/-- The set of the ids in a list. -/
def ofList (ids : List String) : IdSet := ids.foldl insert ∅

theorem mem_foldl_insert {ids : List String} {s : IdSet} {id : String} :
    id ∈ ids.foldl insert s ↔ id ∈ s ∨ id ∈ ids := by
  induction ids generalizing s with
  | nil => simp
  | cons a rest ih => simp [ih, or_assoc, or_left_comm]

@[simp] theorem mem_ofList {ids : List String} {id : String} : id ∈ ofList ids ↔ id ∈ ids := by
  simp [ofList, mem_foldl_insert]

/-! ## Removal -/

/-- The set without an id. -/
def erase (s : IdSet) (id : String) : IdSet :=
  ⟨s.ids.filter (· ≠ id), s.ascending.sublist List.filter_sublist⟩

@[simp] theorem mem_erase {s : IdSet} {id other : String} :
    other ∈ s.erase id ↔ other ∈ s ∧ other ≠ id := by
  simp [erase, mem_def]

/-- The smallest member, and the other members. -/
def popMin? (s : IdSet) : Option (String × IdSet) :=
  match s with
  | ⟨[], _⟩ => none
  | ⟨id :: rest, h⟩ => some (id, ⟨rest, (List.pairwise_cons.mp h).2⟩)

theorem popMin?_eq_none_iff {s : IdSet} : s.popMin? = none ↔ s.ids = [] := by
  unfold popMin?
  split <;> simp

theorem ids_of_popMin? {s rest : IdSet} {id : String} (h : s.popMin? = some (id, rest)) :
    s.ids = id :: rest.ids := by
  unfold popMin? at h
  split at h <;> cases h
  rfl

theorem mem_iff_of_popMin? {s rest : IdSet} {id other : String}
    (h : s.popMin? = some (id, rest)) : other ∈ s ↔ other = id ∨ other ∈ rest := by
  rw [mem_def, ids_of_popMin? h, List.mem_cons, mem_def]

theorem lt_of_popMin? {s rest : IdSet} {id other : String} (h : s.popMin? = some (id, rest))
    (hother : other ∈ rest) : id < other := by
  have hascending := s.ascending
  rw [ids_of_popMin? h] at hascending
  exact (List.pairwise_cons.mp hascending).1 other hother

/-! ## Size -/

theorem length_of_popMin? {s rest : IdSet} {id : String} (h : s.popMin? = some (id, rest)) :
    s.ids.length = rest.ids.length + 1 := by
  rw [ids_of_popMin? h, List.length_cons]

private theorem length_place_le (id : String) (ids : List String) :
    (place id ids).length ≤ ids.length + 1 := by
  fun_induction place id ids with
  | case1 | case2 | case3 => simp
  | case4 _ _ _ _ ih => simpa using ih

theorem length_foldl_insert_le (ids : List String) (s : IdSet) :
    (ids.foldl insert s).ids.length ≤ s.ids.length + ids.length := by
  induction ids generalizing s with
  | nil => simp
  | cons id rest ih =>
    have hrest := ih (s.insert id)
    have hplace : (s.insert id).ids.length ≤ s.ids.length + 1 := length_place_le id s.ids
    rw [List.foldl_cons, List.length_cons]
    omega

end IdSet

end Spreadsheet
