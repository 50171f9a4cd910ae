import Spreadsheet.Proofs.Replay

/-!
# Workbooks refine sheets in memory

A workbook holds sheets in memory, writes them through to a store, forgets them when the store
fails, and may be started anew over what the store has. None of that shows. For every sheet there is
one sheet in memory, the reference, that is asked for everything except the requests that ended in a
failure of the store, and the workbook gives the answers of the reference.

`Refines` is what holds between requests. The store has the formula texts of the references, and a
sheet that is held in memory is like its reference. It need not be equal to it: a sheet that was
made anew from the store has its cells in another order, and lacks placeholders. That this makes no
difference is what `Sheet.Alike` is about.

A request that changes a sheet does so before the store is told. If the store fails then, the sheet
in memory is ahead of the reference, and it is right to forget it.
-/

namespace Spreadsheet

open Text

/-! ## What a store has after a change -/

namespace Store

variable {store store' : Store} {sheet cell text : String}

theorem attempt_eq_ok_iff {α : Type} {method : StoreMethod} {a b : α} :
    store.attempt method a = .ok b ↔ store.outage method = none ∧ a = b := by
  unfold attempt
  split
  · rename_i h
    simp [h]
  · rename_i h
    simp [h]

theorem cells_of_set (h : store.set sheet cell text = .ok store') (name : String) :
    store'.cells name
      = if name = sheet then (store.cells sheet).insert cell text else store.cells name := by
  obtain ⟨-, rfl⟩ := attempt_eq_ok_iff.mp h
  rw [cells, OrderedMap.get?_insert]
  split <;> rfl

theorem cells_of_remove (h : store.remove sheet cell = .ok store') (name : String) :
    store'.cells name
      = if name = sheet then (store.cells sheet).erase cell else store.cells name := by
  obtain ⟨-, rfl⟩ := attempt_eq_ok_iff.mp h
  rw [cells, OrderedMap.get?_modify]
  split
  · rename_i hname
    subst hname
    rw [cells]
    cases store.sheets.get? name <;> rfl
  · rfl

theorem cells_of_clear (h : store.clear sheet = .ok store') (name : String) :
    store'.cells name = if name = sheet then ∅ else store.cells name := by
  obtain ⟨-, rfl⟩ := attempt_eq_ok_iff.mp h
  rw [cells, OrderedMap.get?_erase]
  split <;> rfl

end Store

namespace Sheet

variable {s u : Sheet} {cells : OrderedMap String String} {id expr : String}

theorem lists_entries_iff : s.Lists cells.entries ↔
    ∀ x expr, cells.get? x = some expr ↔ expr ≠ "" ∧ s.table.text x = expr :=
  forall₂_congr fun _ _ ↦ by rw [OrderedMap.get?_eq_some_iff]

theorem Lists.of_text_eq {entries : List Entry} (h : u.Lists entries)
    (htext : s.table.text = u.table.text) : s.Lists entries := by
  rw [Lists, htext]
  exact h

theorem Lists.insert (h : u.Lists cells.entries) (hne : expr ≠ "")
    (htext : ∀ x, s.table.text x = if x = id then expr else u.table.text x) :
    s.Lists (cells.insert id expr).entries := by
  rw [lists_entries_iff] at h ⊢
  intro x other
  rw [OrderedMap.get?_insert, htext]
  split
  · rw [Option.some_inj]
    exact ⟨fun heq ↦ ⟨heq ▸ hne, heq⟩, And.right⟩
  · exact h x other

theorem Lists.erase (h : u.Lists cells.entries)
    (htext : ∀ x, s.table.text x = if x = id then "" else u.table.text x) :
    s.Lists (cells.erase id).entries := by
  rw [lists_entries_iff] at h ⊢
  intro x other
  rw [OrderedMap.get?_erase, htext]
  split
  · exact iff_of_false (Option.some_ne_none other).symm fun hlisted ↦ hlisted.1 hlisted.2.symm
  · exact h x other

end Sheet

namespace Workbook

variable {w w' : Workbook} {refs : String → Sheet} {name : String} {α β : Type}

/-! ## Runs of the parts -/

theorem run_storing (action : StoreAction) (name : String) (use : Store → Except String α)
    (w : Workbook) :
    (storing action name use).run w = match use w.store with
      | .ok result => (.ok result, w)
      | .error reason => (.error (.store action name reason), w.forget name) := by
  rw [storing, Action.run_bind, Action.run_get]
  dsimp only
  cases use w.store <;> rfl

theorem run_changeStore (action : StoreAction) (name : String)
    (change : Store → Except String Store) (w : Workbook) :
    (changeStore action name change).run w = match change w.store with
      | .ok store => (.ok (), { w with store := store })
      | .error reason => (.error (.store action name reason), w.forget name) := by
  rw [changeStore, Action.run_bind, run_storing]
  cases change w.store <;> rfl

theorem run_sheet (name : String) (w : Workbook) :
    (sheet name).run w = match w.loaded.get? name with
      | some s => (.ok s, w)
      | none => match w.store.load name with
        | .error reason => (.error (.store .load name reason), w.forget name)
        | .ok entries => match Sheet.ofEntries name w.settings entries with
          | .ok made => (.ok made, w.hold name made)
          | .error fault => (.error fault, w) := by
  rw [sheet, Action.run_bind, Action.run_get]
  dsimp only
  cases w.loaded.get? name with
  | some s => rfl
  | none =>
    dsimp only
    rw [Action.run_bind, run_storing]
    cases w.store.load name with
    | error reason => rfl
    | ok entries =>
      dsimp only
      rw [Action.run_query_bind]
      cases Sheet.ofEntries name w.settings entries <;> rfl

theorem run_onSheet (name : String) (act : Action Sheet α) (w : Workbook) :
    (onSheet name act).run w = match (sheet name).run w with
      | (.ok s, w') => ((act.run s).1, w'.hold name (act.run s).2)
      | (.error fault, w') => (.error fault, w') := by
  rw [onSheet, Action.run_bind]
  obtain ⟨_ | s, w'⟩ := (sheet name).run w <;> rfl

/-! ## The simulation relation -/

/-- A workbook answers like the reference sheets. -/
structure Refines (w : Workbook) (refs : String → Sheet) : Prop where
  sound : ∀ name, (refs name).Sound
  settings : ∀ name, (refs name).settings = w.settings
  /-- The store has the texts of the references. -/
  stored : ∀ name, (refs name).Lists (w.store.cells name).entries
  /-- A sheet in memory is like its reference. -/
  loaded : ∀ name s, w.loaded.get? name = some s → s.Sound ∧ s.Alike (refs name)

/-- Two workbooks differ at most in what they have of one sheet. -/
structure Near (w w' : Workbook) (name : String) : Prop where
  settings : w'.settings = w.settings
  cells : ∀ other, other ≠ name → w'.store.cells other = w.store.cells other
  loaded : ∀ other, other ≠ name → w'.loaded.get? other = w.loaded.get? other

namespace Near

theorem refl (w : Workbook) (name : String) : Near w w name := ⟨rfl, fun _ _ ↦ rfl, fun _ _ ↦ rfl⟩

theorem trans {v : Workbook} (h : Near w w' name) (h' : Near w' v name) : Near w v name where
  settings := h'.settings.trans h.settings
  cells other hne := (h'.cells other hne).trans (h.cells other hne)
  loaded other hne := (h'.loaded other hne).trans (h.loaded other hne)

theorem hold (w : Workbook) (name : String) (s : Sheet) : Near w (w.hold name s) name where
  settings := rfl
  cells _ _ := rfl
  loaded other hne := by rw [Workbook.hold, OrderedMap.get?_insert, if_neg hne]

theorem forget (w : Workbook) (name : String) : Near w (w.forget name) name where
  settings := rfl
  cells _ _ := rfl
  loaded other hne := by rw [Workbook.forget, OrderedMap.get?_erase, if_neg hne]

theorem withStore (h : Near w w' name) {store : Store}
    (hcells : ∀ other, other ≠ name → store.cells other = w.store.cells other) :
    Near w { w' with store := store } name := ⟨h.settings, hcells, h.loaded⟩

end Near

theorem get?_hold (w : Workbook) (name : String) (s : Sheet) :
    (w.hold name s).loaded.get? name = some s := by
  rw [hold, OrderedMap.get?_insert, if_pos rfl]

theorem get?_forget (w : Workbook) (name : String) : (w.forget name).loaded.get? name = none := by
  rw [forget, OrderedMap.get?_erase, if_pos rfl]

/-- A change at one sheet keeps the relation, if it keeps it there. -/
theorem Refines.update (h : Refines w refs) (hnear : Near w w' name) {ref : Sheet}
    (hsound : ref.Sound) (hsettings : ref.settings = w.settings)
    (hstored : ref.Lists (w'.store.cells name).entries)
    (hloaded : ∀ s, w'.loaded.get? name = some s → s.Sound ∧ s.Alike ref) :
    Refines w' (Function.update refs name ref) := by
  have hself : Function.update refs name ref name = ref := Function.update_self ..
  have hother : ∀ other, other ≠ name → Function.update refs name ref other = refs other :=
    fun other hne ↦ Function.update_of_ne hne ..
  -- each part of the relation, at the sheet that changes and at every other one
  refine ⟨fun other ↦ ?_, fun other ↦ ?_, fun other ↦ ?_, fun other s hs ↦ ?_⟩ <;>
    by_cases hne : other = name
  · rw [hne, hself]
    exact hsound
  · rw [hother other hne]
    exact h.sound other
  · rw [hne, hself, hnear.settings, hsettings]
  · rw [hother other hne, hnear.settings]
    exact h.settings other
  · rw [hne, hself]
    exact hstored
  · rw [hother other hne, hnear.cells other hne]
    exact h.stored other
  · rw [hne] at hs ⊢
    rw [hself]
    exact hloaded s hs
  · rw [hother other hne]
    rw [hnear.loaded other hne] at hs
    exact h.loaded other s hs

theorem Refines.forgotten (h : Refines w refs) (hnear : Near w w' name)
    (hstore : w'.store = w.store) (hnone : w'.loaded.get? name = none) : Refines w' refs := by
  have hupdated := h.update hnear (h.sound name) (h.settings name)
    (by rw [hstore]; exact h.stored name) fun s hs ↦ by rw [hnone] at hs; cases hs
  rwa [Function.update_eq_self] at hupdated

/-- A sheet that is not in memory is made from the store, unless the store fails. -/
theorem Refines.run_sheet (h : Refines w refs) (name : String) :
    (∃ reason w', (sheet name).run w = (.error (.store .load name reason), w') ∧ Near w w' name ∧
      w'.store = w.store ∧ w'.loaded.get? name = none) ∨
    ∃ s w', (sheet name).run w = (.ok s, w') ∧ Near w w' name ∧ w'.store = w.store ∧ s.Sound ∧
      s.Alike (refs name) := by
  rw [Workbook.run_sheet]
  cases hloaded : w.loaded.get? name with
  | some s =>
    obtain ⟨hs, halike⟩ := h.loaded name s hloaded
    exact Or.inr ⟨s, w, rfl, .refl w name, rfl, hs, halike⟩
  | none =>
    cases hload : w.store.load name with
    | error reason => exact Or.inl ⟨reason, _, rfl, .forget w name, rfl, get?_forget w name⟩
    | ok entries =>
      obtain ⟨-, rfl⟩ := Store.attempt_eq_ok_iff.mp hload
      -- the store has the texts of the reference, and they all go in again
      obtain ⟨made, hrun, hmade, halike⟩ :=
        Sheet.exists_evaluateAll name (h.sound name) (h.stored name)
      rw [h.settings] at hrun
      have hentries : Sheet.ofEntries name w.settings (w.store.cells name).entries = .ok made :=
        Sheet.foldlM_absorb hrun
      dsimp only
      rw [hentries]
      exact Or.inr ⟨made, _, rfl, .hold w name made, rfl, hmade, halike⟩

/-- What is done to a sheet in a workbook is done to one that is like the reference. -/
theorem Refines.run_onSheet (h : Refines w refs) (name : String) (act : Action Sheet α) :
    (∃ reason w', (onSheet name act).run w = (.error (.store .load name reason), w') ∧
      Near w w' name ∧ w'.store = w.store ∧ w'.loaded.get? name = none) ∨
    ∃ s w', (onSheet name act).run w = ((act.run s).1, w') ∧ Near w w' name ∧
      w'.store = w.store ∧ w'.loaded.get? name = some (act.run s).2 ∧ s.Sound ∧
      s.Alike (refs name) := by
  rw [Workbook.run_onSheet]
  rcases h.run_sheet name with ⟨reason, w', hrun, hfailed⟩ |
    ⟨s, w', hrun, hnear, hstore, hs, halike⟩
  · rw [hrun]
    exact Or.inl ⟨reason, w', rfl, hfailed⟩
  · rw [hrun]
    exact Or.inr ⟨s, _, rfl, hnear.trans (.hold w' name _), hstore, get?_hold .., hs, halike⟩

/-! ## Requests -/

/-- What comes of a request that does `act` to a sheet: the store fails, and nothing has happened,
or the result is that of the reference, which is then asked for the same. What ends in a fault
leaves the store alone in either case. -/
inductive Serves (w : Workbook) (refs : String → Sheet) (name : String) (act : Action Sheet α) :
    Except Fault α × Workbook → Prop
  | failed {action : StoreAction} {reason : String} {w' : Workbook} (refines : Refines w' refs)
      (store : w'.store = w.store) : Serves w refs name act (.error (.store action name reason), w')
  | served {w' : Workbook}
      (refines : Refines w' (Function.update refs name (act.run (refs name)).2))
      (store : ∀ fault, (act.run (refs name)).1 = .error fault → w'.store = w.store) :
      Serves w refs name act ((act.run (refs name)).1, w')

theorem Serves.map {act : Action Sheet α} {whole : Action Workbook α}
    (h : Serves w refs name act (whole.run w)) (g : α → β) :
    Serves w refs name (act >>= fun a ↦ pure (g a))
      ((whole >>= fun a ↦ pure (g a)).run w) := by
  rw [Action.run_bind_pure]
  generalize whole.run w = outcome at h
  cases h with
  | failed refines store => exact .failed refines store
  | @served w' refines store =>
    have hrun := Action.run_bind_pure g act (refs name)
    have hserved : Serves w refs name (act >>= fun a ↦ pure (g a))
        (((act >>= fun a ↦ pure (g a)).run (refs name)).1, w') := by
      refine .served ?_ fun fault hfault ↦ ?_
      · rw [hrun]
        exact refines
      · rw [hrun] at hfault
        exact store fault (Outcome.map_eq_error_iff.mp hfault)
    rwa [hrun] at hserved

theorem Refines.serves_query (h : Refines w refs) (name : String) (look : Sheet → Except Fault α)
    (hlook : ∀ s u : Sheet, s.Alike u → s.Sound → u.Sound → look s = look u) :
    Serves w refs name (Action.query look) ((onSheet name (Action.query look)).run w) := by
  rcases h.run_onSheet name (Action.query look) with
    ⟨reason, w', hrun, hnear, hstore, hnone⟩ | ⟨s, w', hrun, hnear, hstore, hloaded, hs, halike⟩
  · rw [hrun]
    exact .failed (h.forgotten hnear hstore hnone) hstore
  · rw [hrun, Action.run_query]
    dsimp only
    rw [hlook s (refs name) halike hs (h.sound name)]
    refine .served (h.update hnear (h.sound name) (h.settings name) ?_ fun s' hs' ↦ ?_)
      fun _ _ ↦ hstore
    · rw [hstore]
      exact h.stored name
    · rw [hloaded, Option.some_inj] at hs'
      exact hs' ▸ ⟨hs, halike⟩

theorem run_writeThrough {cell id : String} {p : Position} {s : Sheet}
    (hloaded : w.loaded.get? name = some s) (hnames : s.settings.Names cell p)
    (hid : p.id = .ok id) :
    (writeThrough name cell).run w = match (if (s.table.text id).isEmpty then
        w.store.remove name id else w.store.set name id (s.table.text id)) with
      | .ok store => (.ok (), { w.hold name s with store := store })
      | .error reason => (.error (.store .save name reason), (w.hold name s).forget name) := by
  obtain ⟨r, hread, -, -, hbounds, hposition⟩ := hnames
  have hcell : (do (← Position.read cell).id) = .ok id := by
    rw [Position.read, hread, ← hid, ← hposition]
    rfl
  have hview : s.view id = .ok ⟨s.table.text id, s.table.valueOf id⟩ := by
    rw [Sheet.view_eq, Settings.locate_eq_ok_iff.mpr
      ((Settings.names_id_iff hid).mpr (hposition ▸ hbounds)), Outcome.ok_bind, hid]
    rfl
  rw [writeThrough, Action.run_query_bind, hcell]
  dsimp only
  rw [Action.run_bind, Workbook.run_onSheet, Workbook.run_sheet, hloaded]
  dsimp only
  rw [Action.run_query, hview]
  dsimp only
  rw [run_changeStore]
  rfl

/-- Writing through: the store fails and the sheet is forgotten, or the store gets the new text. -/
theorem Refines.run_writeThrough (h : Refines w refs) {cell id expr : String} {p : Position}
    {s ref : Sheet} (hnear : Near w w' name) (hstore : w'.store = w.store)
    (hloaded : w'.loaded.get? name = some s) (hnames : s.settings.Names cell p)
    (hid : p.id = .ok id) (hs : s.Sound) (href : ref.Sound) (halike : s.Alike ref)
    (hsettings : ref.settings = w.settings)
    (htext : ∀ x, s.table.text x = if x = id then expr else (refs name).table.text x) :
    (∃ reason v, (writeThrough name cell).run w' = (.error (.store .save name reason), v) ∧
      Refines v refs ∧ v.store = w.store) ∨
    ∃ v, (writeThrough name cell).run w' = (.ok (), v) ∧
      Refines v (Function.update refs name ref) := by
  rw [Workbook.run_writeThrough hloaded hnames hid]
  generalize hchange : (if (s.table.text id).isEmpty then w'.store.remove name id
    else w'.store.set name id (s.table.text id)) = outcome
  cases outcome with
  | error reason =>
    have hforget : Near w ((w'.hold name s).forget name) name :=
      (hnear.trans (.hold w' name s)).trans (.forget _ name)
    exact Or.inl ⟨reason, _, rfl, h.forgotten hforget hstore (get?_forget _ name), hstore⟩
  | ok store =>
    -- an empty text is taken out of the store, any other is kept there
    have hself : s.table.text id = expr := by rw [htext, if_pos rfl]
    have hcells : (∀ other, other ≠ name → store.cells other = w.store.cells other) ∧
        s.Lists (store.cells name).entries := by
      rw [hstore, hself] at hchange
      split at hchange
      · rename_i hempty
        rw [String.isEmpty_iff] at hempty
        have hremoved := Store.cells_of_remove hchange
        refine ⟨fun other hne ↦ by rw [hremoved, if_neg hne], ?_⟩
        rw [hremoved, if_pos rfl]
        exact (h.stored name).erase (hempty ▸ htext)
      · rename_i hne
        rw [String.isEmpty_iff] at hne
        have hset := Store.cells_of_set hchange
        refine ⟨fun other hne ↦ by rw [hset, if_neg hne], ?_⟩
        rw [hset, if_pos rfl]
        exact (h.stored name).insert hne htext
    have hnear' := (hnear.trans (.hold w' name s)).withStore hcells.1
    refine Or.inr ⟨_, rfl, h.update hnear' href hsettings (hcells.2.of_text_eq halike.text.symm)
      fun s' hs' ↦ ?_⟩
    change (w'.hold name s).loaded.get? name = some s' at hs'
    rw [get?_hold, Option.some_inj] at hs'
    exact hs' ▸ ⟨hs, halike⟩

/-- **An edit in a workbook** comes to what it comes to in the reference, or fails with the
store. -/
theorem Refines.serves_edit (h : Refines w refs) (name : String) {cell : String}
    {act : Action Sheet Updates}
    (houtcome : ∀ s : Sheet, s.Sound → Sheet.EditOutcome s cell (act.run s))
    (hagree : ∀ s u : Sheet, s.Alike u → s.Sound → u.Sound → Sheet.Agree (act.run s) (act.run u)) :
    Serves w refs name act ((edit name cell act).run w) := by
  have href := h.sound name
  obtain ⟨hsound, hsettings⟩ := (houtcome _ href).sound href
  rw [h.settings] at hsettings
  rw [edit, Action.run_bind]
  rcases h.run_onSheet name act with
    ⟨reason, w', hrun, hnear, hstore, hnone⟩ | ⟨s, w', hrun, hnear, hstore, hloaded, hs, halike⟩
  · rw [hrun]
    exact .failed (h.forgotten hnear hstore hnone) hstore
  · obtain ⟨hresult, halike'⟩ := hagree s (refs name) halike hs href
    have hs' := ((houtcome s hs).sound hs).1
    rw [hrun]
    have houtcome' := houtcome s hs
    generalize hact : act.run s = outcome at houtcome' hresult halike' hs' hloaded ⊢
    cases houtcome' with
    | failed fault =>
      dsimp only at hresult halike' hloaded ⊢
      rw [hresult]
      refine .served (h.update hnear hsound hsettings ?_ fun s' hs' ↦ ?_) fun _ _ ↦ hstore
      · rw [hstore]
        exact (h.stored name).of_text_eq (halike'.text.symm.trans halike.text)
      · rw [hloaded, Option.some_inj] at hs'
        exact hs' ▸ ⟨hs, halike'⟩
    | @edited p id expr updates t hnames hid hedited =>
      dsimp only at hresult halike' hs' hloaded ⊢
      have htext : ∀ x, t.text x = if x = id then expr else (refs name).table.text x := fun x ↦ by
        rw [hedited.text, halike.text]
      -- the sheet has been edited, and whether the reference is to be depends on the store
      rw [Action.run_bind]
      rcases h.run_writeThrough hnear hstore hloaded hnames hid hs' hsound halike'
        hsettings htext with
        ⟨reason, v, hwrite, hrefines, hkept⟩ | ⟨v, hwrite, hrefines⟩
      · rw [hwrite]
        exact .failed hrefines hkept
      · rw [hwrite]
        dsimp only
        rw [Action.run_pure, hresult]
        refine .served hrefines fun fault hfault ↦ ?_
        rw [← hresult] at hfault
        cases hfault

theorem Refines.serves_clear (h : Refines w refs) (name : String) :
    Serves w refs name (Sheet.answer .clear) ((carryOut name .clear).run w) := by
  rw [carryOut, Action.run_bind]
  rcases h.run_onSheet name Sheet.clear with
    ⟨reason, w', hrun, hnear, hstore, hnone⟩ | ⟨s, w', hrun, hnear, hstore, hloaded, hs, halike⟩
  · rw [hrun]
    exact .failed (h.forgotten hnear hstore hnone) hstore
  · rw [hrun]
    change Serves w refs name (Sheet.answer .clear)
      (((changeStore .clear name (·.clear name)) >>= fun _ ↦ pure .nothing).run w')
    rw [Action.run_bind, run_changeStore]
    cases hclear : w'.store.clear name with
    | error reason =>
      exact .failed (h.forgotten (hnear.trans (.forget w' name))
        hstore (get?_forget w' name)) hstore
    | ok store =>
      have hcells := Store.cells_of_clear hclear
      have hnear' := hnear.withStore fun other hne ↦ by rw [hcells, if_neg hne, hstore]
      refine .served (h.update hnear' (Table.sound_empty _) (h.settings name) ?_ fun s' hs' ↦ ?_)
        fun fault hfault ↦ by cases hfault
      · rw [hcells, if_pos rfl]
        exact fun x expr ↦ iff_of_false List.not_mem_nil fun ⟨hne, heq⟩ ↦ hne heq.symm
      · change w'.loaded.get? name = some s' at hs'
        rw [hloaded, Option.some_inj] at hs'
        exact hs' ▸ ⟨Table.sound_empty _, halike.settings, rfl⟩

/-- **Every request is served as the reference serves it**, unless the store fails. -/
theorem Refines.serves (h : Refines w refs) (name : String) (request : Request) :
    Serves w refs name (Sheet.answer request) ((carryOut name request).run w) := by
  cases request with
  | evaluate cell expr =>
    exact (h.serves_edit name (fun s hs ↦ Sheet.outcome_evaluate hs cell expr)
      fun s u halike hs hu ↦ halike.evaluate hs hu cell expr).map _
  | remove cell =>
    exact (h.serves_edit name (fun s hs ↦ Sheet.outcome_remove hs cell)
      fun s u halike hs hu ↦ halike.remove hs hu cell).map _
  | copy source target =>
    exact (h.serves_edit name (fun s hs ↦ Sheet.outcome_copy hs source target)
      fun s u halike hs hu ↦ halike.copy hs hu source target).map _
  | query cell =>
    exact (h.serves_query name (·.view cell) fun s u halike hs hu ↦
      halike.view_eq hs hu cell).map _
  | clear => exact h.serves_clear name
  | dump =>
    exact (h.serves_query name (·.dump) fun s u halike hs hu ↦ (halike.dump_eq hs hu).1).map _
  | dumpValues =>
    exact (h.serves_query name (·.dumpValues) fun s u halike hs hu ↦
      (halike.dump_eq hs hu).2).map _

/-! ## Replies -/

/-- What a caller gets to see of a result. -/
def reported (result : Except Fault α) : Except Fault (Reply α) :=
  match result with
  | .ok value => .ok (.done value)
  | .error fault =>
    match fault.report? with
    | some report => .ok (.failed report)
    | none => .error fault

theorem run_reporting (act : Action Workbook α) (w : Workbook) :
    (reporting act).run w = (reported (act.run w).1, (act.run w).2) := by
  change reporting act w = _
  unfold reporting reported
  obtain ⟨fault | value, w'⟩ := act.run w
  · dsimp only
    cases fault.report? <;> rfl
  · rfl

/-- Whether a caller gets to see that the store has failed. -/
def storeFailed : Except Fault (Reply α) → Bool
  | .ok (.failed report) => report.code == Code.store.text
  | _ => false

theorem storeFailed_reported_ok (value : α) : storeFailed (reported (.ok value)) = false := rfl

theorem storeFailed_reported_store (action : StoreAction) (name reason : String) :
    storeFailed (reported (.error (.store action name reason) : Except Fault α)) = true := by
  change (Code.store.text == Code.store.text) = true
  exact beq_self_eq_true _

theorem reported_ne_done {fault : Fault} (value : α) :
    reported (.error fault) ≠ .ok (.done value) := by
  unfold reported
  dsimp only
  cases fault.report? <;> nofun

/-! ## Runs -/

/-- What can happen to a workbook. -/
inductive Event
  /-- It is asked about a sheet. -/
  | request (name : String) (request : Request)
  /-- It is started anew over its store. -/
  | restart
  /-- A method of its store goes out of order, or is in order again. -/
  | outage (method : StoreMethod) (reason : Option String)

/-- A workbook with a reference for every sheet. -/
structure Tracked where
  workbook : Workbook
  reference : String → Sheet

namespace Tracked

/-- A workbook over an empty store. -/
def start (settings : Settings) : Tracked :=
  ⟨overStore settings {}, fun name ↦ Sheet.empty name settings⟩

/-- One event. The reference is asked what the workbook is asked, unless the store has failed. -/
def step (t : Tracked) : Event → Tracked
  | .request name request =>
    let (outcome, workbook) := (perform name request).run t.workbook
    ⟨workbook, if storeFailed outcome then t.reference
      else Function.update t.reference name ((Sheet.answer request).run (t.reference name)).2⟩
  | .restart => { t with workbook := t.workbook.restarted }
  | .outage method reason =>
    { t with workbook.store := t.workbook.store.withOutage method reason }

/-- Events, one after the other. -/
def run (t : Tracked) (events : List Event) : Tracked := events.foldl step t

end Tracked

variable {t : Tracked}

theorem refines_start (settings : Settings) :
    Refines (Tracked.start settings).workbook (Tracked.start settings).reference where
  sound name := Sheet.sound_empty name settings
  settings _ := rfl
  stored _ _ _ := iff_of_false List.not_mem_nil fun ⟨hne, heq⟩ ↦ hne heq.symm
  loaded _ _ hs := by cases hs

/-- What a caller sees of a request: the reply of the reference, unless the store fails. -/
theorem Refines.perform (h : Refines w refs) (name : String) (request : Request) :
    (storeFailed ((perform name request).run w).1 = true ∧
      Refines ((perform name request).run w).2 refs ∧
      ((perform name request).run w).2.store = w.store) ∨
    (((perform name request).run w).1
        = reported ((Sheet.answer request).run (refs name)).1 ∧
      Refines ((perform name request).run w).2
        (Function.update refs name ((Sheet.answer request).run (refs name)).2) ∧
      ∀ fault, ((Sheet.answer request).run (refs name)).1 = .error fault →
        ((perform name request).run w).2.store = w.store) := by
  have hserves := h.serves name request
  rw [Workbook.perform, run_reporting]
  generalize (carryOut name request).run w = outcome at hserves ⊢
  cases hserves with
  | failed refines store => exact Or.inl ⟨storeFailed_reported_store .., refines, store⟩
  | served refines store => exact Or.inr ⟨rfl, refines, store⟩

/-- **An event keeps the relation.** -/
theorem Refines.step (h : Refines t.workbook t.reference) (event : Event) :
    Refines (t.step event).workbook (t.step event).reference := by
  cases event with
  | request name request =>
    change Refines ((Workbook.perform name request).run t.workbook).2
      (if storeFailed ((Workbook.perform name request).run t.workbook).1 then t.reference
        else Function.update t.reference name
          ((Sheet.answer request).run (t.reference name)).2)
    rcases h.perform name request with ⟨hfailed, hrefines, -⟩ | ⟨hreply, hrefines, -⟩
    · rw [if_pos hfailed]
      exact hrefines
    · split
      · rename_i hfailed
        -- the reference refused as well, and is as it was
        cases hanswer : ((Sheet.answer request).run (t.reference name)).1 with
        | ok value =>
          rw [hreply, hanswer, storeFailed_reported_ok] at hfailed
          cases hfailed
        | error fault =>
          rwa [Sheet.state_eq_of_answer (h.sound name) hanswer, Function.update_eq_self] at hrefines
      · exact hrefines
  | restart =>
    exact ⟨h.sound, h.settings, h.stored, fun name s hs ↦ by cases hs⟩
  | outage method reason => exact ⟨h.sound, h.settings, h.stored, h.loaded⟩

theorem Refines.run (h : Refines t.workbook t.reference) (events : List Event) :
    Refines (t.run events).workbook (t.run events).reference := by
  induction events generalizing t with
  | nil => exact h
  | cons event rest ih => exact ih (h.step event)

/-- **A workbook gives the answers of sheets in memory**, after any requests, restarts and failures
of the store. What the store has is what the references list. A reply that is no failure of the
store is the reply of the reference, and a request that is not carried out changes neither the
store nor the reference. -/
theorem reply_eq_of_run (settings : Settings) (events : List Event) :
    (∀ name, ∃ rows, (((Tracked.start settings).run events).reference name).dump = .ok rows ∧
      ∀ entry, entry ∈ (((Tracked.start settings).run events).workbook.store.cells name).entries ↔
        entry ∈ rows) ∧
    ∀ name request,
      (storeFailed
          ((perform name request).run ((Tracked.start settings).run events).workbook).1 = false →
        ((perform name request).run ((Tracked.start settings).run events).workbook).1
          = reported ((Sheet.answer request).run
              (((Tracked.start settings).run events).reference name)).1) ∧
      ((∀ value, ((perform name request).run ((Tracked.start settings).run events).workbook).1
            ≠ .ok (.done value)) →
        ((perform name request).run ((Tracked.start settings).run events).workbook).2.store
            = ((Tracked.start settings).run events).workbook.store ∧
          (((Tracked.start settings).run events).step (.request name request)).reference
            = ((Tracked.start settings).run events).reference) := by
  have h := (refines_start settings).run events
  generalize (Tracked.start settings).run events = t at h ⊢
  refine ⟨fun name ↦ ?_, fun name request ↦ ⟨fun hnot ↦ ?_, fun hnot ↦ ?_⟩⟩
  · obtain ⟨ids, -, -, -, hdump, -⟩ := (h.sound name).exists_dump
    refine ⟨_, hdump, fun ⟨x, expr⟩ ↦ ?_⟩
    rw [h.stored name x expr, Sheet.lists_of_dump (h.sound name) hdump x expr]
  · rcases h.perform name request with ⟨hfailed, -⟩ | ⟨hreply, -⟩
    · rw [hnot] at hfailed
      cases hfailed
    · exact hreply
  · change _ ∧ (if storeFailed ((perform name request).run t.workbook).1 then t.reference
      else Function.update t.reference name
        ((Sheet.answer request).run (t.reference name)).2) = t.reference
    rcases h.perform name request with ⟨hfailed, -, hstore⟩ | ⟨hreply, -, hstore⟩
    · exact ⟨hstore, if_pos hfailed⟩
    · cases hanswer : ((Sheet.answer request).run (t.reference name)).1 with
      | ok value =>
        rw [hreply, hanswer] at hnot
        exact absurd rfl (hnot value)
      | error fault =>
        refine ⟨hstore fault hanswer, ?_⟩
        rw [Sheet.state_eq_of_answer (h.sound name) hanswer, Function.update_eq_self, ite_self]

/-- The store fails to keep a new formula of `a1`. After a restart the sheet is made from the old
one, and `c1` is computed from that. Then a formula that closes a circle is refused. -/
theorem reply_eq_of_run_reload :
    let stored : List Event := [.request "s" (.evaluate "a1" "2"),
      .request "s" (.evaluate "b1" "a1*3"), .outage .set (some "down")]
    let events := stored ++ [.request "s" (.evaluate "a1" "5"), .outage .set none, .restart,
      .request "s" (.evaluate "c1" "b1+1")]
    let before := (Tracked.start .standard).run stored
    let after := (Tracked.start .standard).run events
    storeFailed ((perform "s" (.evaluate "a1" "5")).run before.workbook).1 = true ∧
    ((perform "s" (.evaluate "a1" "5")).run before.workbook).2.store = before.workbook.store ∧
    (∀ entry, entry ∈ (after.workbook.store.cells "s").entries ↔
      entry ∈ [("a1", "2"), ("b1", "a1*3"), ("c1", "b1+1")]) ∧
    ((perform "s" (.query "c1")).run after.workbook).1 = .ok (.done (.view ⟨"b1+1", 7.0⟩)) ∧
    ((perform "s" (.evaluate "a1" "c1")).run after.workbook).2.store = after.workbook.store ∧
    (after.step (.request "s" (.evaluate "a1" "c1"))).reference = after.reference := by
  intro stored events before after
  have hdown : ((perform "s" (.evaluate "a1" "5")).run before.workbook).1
      = reported (.error (.store .save "s" "down")) := by decide +kernel
  have hcircular : ((perform "s" (.evaluate "a1" "c1")).run after.workbook).1
      = reported (.error (.circular (.path ["a1", "b1", "c1", "a1"]))) := by decide +kernel
  have hserved : storeFailed ((perform "s" (.query "c1")).run after.workbook).1 = false := by
    decide +kernel
  have hanswer : ((Sheet.answer (.query "c1")).run (after.reference "s")).1
      = .ok (.view ⟨"b1+1", 7.0⟩) := by decide +kernel
  have hdump : (after.reference "s").dump = .ok [("a1", "2"), ("b1", "a1*3"), ("c1", "b1+1")] := by
    decide +kernel
  obtain ⟨-, hbefore⟩ := reply_eq_of_run .standard stored
  obtain ⟨hrows, hafter⟩ := reply_eq_of_run .standard events
  obtain ⟨-, hlost⟩ := hbefore "s" (.evaluate "a1" "5")
  obtain ⟨-, hrefused⟩ := hafter "s" (.evaluate "a1" "c1")
  obtain ⟨rows, hreference, hentries⟩ := hrows "s"
  refine ⟨?_, ?_, ?_, ?_, ?_⟩
  · rw [hdown]
    rfl
  · exact (hlost fun value ↦ hdown ▸ reported_ne_done value).1
  · rw [hdump, Except.ok.injEq] at hreference
    exact hreference ▸ hentries
  · rw [(hafter "s" (.query "c1")).1 hserved, hanswer]
    rfl
  · exact hrefused fun value ↦ hcircular ▸ reported_ne_done value

end Workbook

end Spreadsheet
