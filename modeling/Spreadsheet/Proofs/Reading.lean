import Spreadsheet.Formula.Value
import Spreadsheet.Proofs.Outcome

/-!
# What a formula reads

A formula in a cell references other cells, by the ids that its references resolve to. This file
says that those cells are all that matter for the value of the formula (`evaluate_congr`), that they
are what `references` lists (`mem_references_iff`), and when there is a value at all: the references
have to name cells, and every application has to be one that the library has.

Formulas nest lists of formulas, so the induction principle that the compiler derives comes with a
second motive. `Formula.induction` is the one with a single motive, which holds of an application if
it holds of the operands.
-/

namespace Spreadsheet

theorem Operation.exists_apply {name : String} {args : List Float}
    (h : accepts name args.length = true) : ∃ value, apply name args = .ok value := by
  obtain ⟨op, hop, htakes⟩ := (Option.any_eq_true _ _).mp h
  rw [← isSome_value?] at htakes
  obtain ⟨value, hvalue⟩ := Option.isSome_iff_exists.mp htakes
  refine ⟨value, ?_⟩
  rw [apply, hop]
  simp only [hvalue]

namespace Formula

/-! ## Induction -/

/-- Induction on formulas, an application from its operands. -/
@[elab_as_elim]
theorem induction {motive : Formula → Prop} (num : ∀ value, motive (num value))
    (ref : ∀ target, motive (ref target))
    (app : ∀ fn args, (∀ f ∈ args, motive f) → motive (app fn args))
    (foreign : ∀ text, motive (foreign text)) (f : Formula) : motive f := by
  refine Formula.rec (motive_1 := motive) (motive_2 := fun args ↦ ∀ f ∈ args, motive f)
    num ref app foreign ?_ ?_ f
  -- the second motive is about lists, and collects the first one for each member
  · intro f hf
    cases hf
  · intro f rest hf hrest g hg
    rcases List.mem_cons.mp hg with rfl | hg
    · exact hf
    · exact hrest g hg

/-- The library has every application in the formula, and nothing in it is foreign. -/
inductive Supported : Formula → Prop
  | num (value : Float) : Supported (num value)
  | ref (target : CellRef) : Supported (ref target)
  | app {fn : String} {args : List Formula} (accepts : Operation.accepts fn args.length = true)
      (supported : ∀ f ∈ args, Supported f) : Supported (app fn args)

/-! ## First appearances -/

/-- Of all ids those are kept that come for the first time. -/
structure KeepsFirst (all kept : List String) : Prop where
  /-- No id is lost. -/
  mem_iff : ∀ id, id ∈ kept ↔ id ∈ all
  /-- They are in the order of their first places, so that none is kept twice. -/
  firstPlaces : kept.Pairwise fun id id' ↦ all.idxOf id < all.idxOf id'

namespace KeepsFirst

variable {ids kept : List String} {id id' : String}

theorem nodup (h : KeepsFirst ids kept) : kept.Nodup := by
  refine h.firstPlaces.imp fun hlt heq ↦ ?_
  rw [heq] at hlt
  exact Nat.lt_irrefl _ hlt

theorem idxOf_cons_lt_iff {head : String} (hid : head ≠ id) (hid' : head ≠ id') :
    (head :: ids).idxOf id < (head :: ids).idxOf id' ↔ ids.idxOf id < ids.idxOf id' := by
  rw [List.idxOf_cons_ne _ hid, List.idxOf_cons_ne _ hid', Nat.succ_lt_succ_iff]

/-- Ids that stay keep the order of their first places when others are taken out. -/
theorem idxOf_lt_of_filter {p : String → Bool} (hid : p id = true) (hid' : p id' = true)
    (h : (ids.filter p).idxOf id < (ids.filter p).idxOf id') : ids.idxOf id < ids.idxOf id' := by
  induction ids with
  | nil => exact absurd h (Nat.lt_irrefl _)
  | cons head rest ih =>
    by_cases hhead : p head = true
    · rw [List.filter_cons_of_pos hhead] at h
      rcases eq_or_ne head id with rfl | hne
      · have hne' : head ≠ id' := by
          rintro rfl
          exact absurd h (Nat.lt_irrefl _)
        rw [List.idxOf_cons_self, List.idxOf_cons_ne _ hne']
        exact Nat.succ_pos _
      · rcases eq_or_ne head id' with rfl | hne'
        · rw [List.idxOf_cons_self] at h
          exact absurd h (Nat.not_lt_zero _)
        · rw [idxOf_cons_lt_iff hne hne'] at h ⊢
          exact ih h
    · have hne {other : String} (hother : p other = true) : head ≠ other :=
        fun heq ↦ hhead (heq ▸ hother)
      rw [List.filter_cons_of_neg hhead] at h
      rw [idxOf_cons_lt_iff (hne hid) (hne hid')]
      exact ih h

/-- **Erasing repetitions keeps first appearances.** -/
theorem eraseDups (ids : List String) : KeepsFirst ids ids.eraseDups := by
  refine ⟨fun id ↦ List.mem_eraseDups, ?_⟩
  -- all copies of the first id are taken out of the rest, which gets shorter but is no part of
  -- `ids`
  induction h : ids.length using Nat.strongRecOn generalizing ids with
  | ind n ih =>
    cases ids with
    | nil => exact .nil
    | cons head rest =>
      have hlen : (rest.filter fun id ↦ !id == head).length < n := by
        rw [← h, List.length_cons]
        exact Nat.lt_succ_of_le (List.length_filter_le _ _)
      have hstay {id : String} (hid : id ∈ (rest.filter fun id ↦ !id == head).eraseDups) :
          (!id == head) = true := (List.mem_filter.mp (List.mem_eraseDups.mp hid)).2
      have hne {id : String} (hid : id ∈ (rest.filter fun id ↦ !id == head).eraseDups) :
          head ≠ id := fun heq ↦ by simpa [heq] using hstay hid
      rw [List.eraseDups_cons, List.pairwise_cons]
      refine ⟨fun id hid ↦ ?_, (ih _ hlen _ rfl).imp_of_mem fun hid hid' hlt ↦ ?_⟩
      · rw [List.idxOf_cons_self, List.idxOf_cons_ne _ (hne hid)]
        exact Nat.succ_pos _
      · exact (idxOf_cons_lt_iff (hne hid) (hne hid')).mpr
          (idxOf_lt_of_filter (hstay hid) (hstay hid') hlt)

end KeepsFirst

/-! ## References -/

/-- A formula in the cell at `base` references the cell with the given id. -/
def References (f : Formula) (base : Position) (id : String) : Prop :=
  ∃ r ∈ f.refs, r.idAt base = .ok id

/-- Every reference of the formula names a cell. -/
def Resolves (f : Formula) (base : Position) : Prop := ∀ r ∈ f.refs, ∃ id, r.idAt base = .ok id

theorem references_app {fn : String} {args : List Formula} {base : Position} {id : String} :
    (app fn args).References base id ↔ ∃ f ∈ args, f.References base id := by
  simp only [References, refs_app, List.mem_flatMap]
  constructor
  · rintro ⟨r, ⟨f, hf, hr⟩, hid⟩
    exact ⟨f, hf, r, hr, hid⟩
  · rintro ⟨f, hf, r, hr, hid⟩
    exact ⟨r, ⟨f, hf, hr⟩, hid⟩

theorem resolves_app {fn : String} {args : List Formula} {base : Position} :
    (app fn args).Resolves base ↔ ∀ f ∈ args, f.Resolves base := by
  simp only [Resolves, refs_app, List.mem_flatMap]
  constructor
  · intro h f hf r hr
    exact h r ⟨f, hf, hr⟩
  · rintro h r ⟨f, hf, hr⟩
    exact h f hf r hr

/-- **The listed references are the referenced cells**, each listed once. -/
theorem mem_references_iff {f : Formula} {base : Position} {ids : List String}
    (h : f.references base = .ok ids) {id : String} : id ∈ ids ↔ f.References base id := by
  obtain ⟨all, hall, rfl⟩ := Outcome.map_eq_ok_iff.mp h
  rw [List.mem_eraseDups]
  exact Outcome.mem_iff_of_mapM_eq_ok hall

theorem nodup_of_references {f : Formula} {base : Position} {ids : List String}
    (h : f.references base = .ok ids) : ids.Nodup := by
  obtain ⟨all, -, rfl⟩ := Outcome.map_eq_ok_iff.mp h
  exact (KeepsFirst.eraseDups all).nodup

theorem exists_references_iff {f : Formula} {base : Position} :
    (∃ ids, f.references base = .ok ids) ↔ f.Resolves base := by
  constructor
  · rintro ⟨ids, hids⟩ r hr
    obtain ⟨all, hall, -⟩ := Outcome.map_eq_ok_iff.mp hids
    exact Outcome.exists_of_mapM_eq_ok hall hr
  · intro h
    obtain ⟨all, hall⟩ := Outcome.exists_mapM_eq_ok h
    exact ⟨all.eraseDups, Outcome.map_eq_ok_iff.mpr ⟨all, hall, rfl⟩⟩

/-! ## Values -/

section Values

variable {valueOf other : String → Float} {base : Position}

theorem evaluate_app (fn : String) (args : List Formula) :
    (app fn args).evaluate valueOf base
      = args.mapM (fun f ↦ f.evaluate valueOf base) >>= Operation.apply fn :=
  foldM_app _ fn args

theorem evaluate_ref (target : CellRef) :
    (ref target).evaluate valueOf base = (target.idAt base).map valueOf :=
  foldM_ref _ target

/-- **A formula reads the cells that it references, and no other.** -/
theorem evaluate_congr {f : Formula} (h : ∀ id, f.References base id → valueOf id = other id) :
    f.evaluate valueOf base = f.evaluate other base := by
  induction f using induction with
  | num value => rw [evaluate, evaluate, foldM_num, foldM_num]; rfl
  | foreign text => rw [evaluate, evaluate, foldM_foreign, foldM_foreign]; rfl
  | ref target =>
    rw [evaluate_ref, evaluate_ref]
    cases hid : target.idAt base with
    | error fault => rfl
    | ok id =>
      have hvalue := h id ⟨target, by simp, hid⟩
      simp [Except.map, hvalue]
  | app fn args ih =>
    have hargs : args.mapM (fun f ↦ f.evaluate valueOf base)
        = args.mapM (fun f ↦ f.evaluate other base) :=
      Outcome.mapM_congr fun f hf ↦
        ih f hf fun id hid ↦ h id (references_app.mpr ⟨f, hf, hid⟩)
    rw [evaluate_app, evaluate_app, hargs]

theorem resolves_of_evaluate {f : Formula} {value : Float}
    (h : f.evaluate valueOf base = .ok value) : f.Resolves base := by
  induction f using induction generalizing value with
  | num value => intro r hr; simp at hr
  | foreign text => intro r hr; simp at hr
  | ref target =>
    intro r hr
    rw [refs_ref, List.mem_singleton] at hr
    rw [evaluate_ref] at h
    obtain ⟨id, hid, -⟩ := Outcome.map_eq_ok_iff.mp h
    exact ⟨id, hr ▸ hid⟩
  | app fn args ih =>
    rw [evaluate_app] at h
    obtain ⟨values, hvalues, -⟩ := Outcome.bind_eq_ok_iff.mp h
    refine resolves_app.mpr fun f hf ↦ ?_
    obtain ⟨v, hv⟩ := Outcome.exists_of_mapM_eq_ok hvalues hf
    exact ih f hf hv

private theorem exists_evaluate_of_resolves {f : Formula} (hf : f.Supported) (h : f.Resolves base) :
    ∃ value, f.evaluate valueOf base = .ok value := by
  induction hf with
  | num value => exact ⟨value, foldM_num _ value⟩
  | ref target =>
    obtain ⟨id, hid⟩ := h target (by simp)
    exact ⟨valueOf id, by rw [evaluate_ref, hid]; rfl⟩
  | @app fn args accepts supported ih =>
    obtain ⟨values, hvalues⟩ := Outcome.exists_mapM_eq_ok fun g hg ↦
      ih g hg (resolves_app.mp h g hg)
    have hlen : values.length = args.length := length_of_mapM_eq_ok hvalues
    obtain ⟨value, hvalue⟩ := Operation.exists_apply (hlen ▸ accepts)
    exact ⟨value, by rw [evaluate_app, hvalues]; exact hvalue⟩

/-- **A supported formula has a value** exactly where its references name cells. -/
theorem exists_evaluate_iff {f : Formula} (hf : f.Supported) :
    (∃ value, f.evaluate valueOf base = .ok value) ↔ f.Resolves base :=
  ⟨fun ⟨_, hvalue⟩ ↦ resolves_of_evaluate hvalue, exists_evaluate_of_resolves hf⟩

end Values

end Formula

end Spreadsheet
