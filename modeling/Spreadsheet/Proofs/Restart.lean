import Spreadsheet.Proofs.Effects
import Spreadsheet.Proofs.Loading
import Spreadsheet.Proofs.Refinement

/-!
# Restarting over a store

A workbook that is started anew makes its sheets from what the store has: the texts that were
written through, and whatever else was there before. A saved text stays in the store until the cell
is edited again or the sheet is cleared, but that is not enough to get it back. A text that the
first workbook had to leave out can go in when the sheet is made again, because an edit has opened
the circle that it was in, and then it may be the saved text that closes one (`query_restarted_ne`).

If the texts at the start are orderly, the sheet keeps them from the start, edits keep it so, and
the new workbook answers what the old one would have answered (`query_restarted_of_run`).
-/

namespace Spreadsheet

open Text

/-! ## Writing through a store in order -/

namespace Store

variable {store : Store}

theorem cells_of_written {store' : Store} {name id text : String}
    (h : (if text.isEmpty then store.remove name id else store.set name id text) = .ok store') :
    store'.outage = store.outage ∧ ∀ other, store'.cells other
      = if other = name then Sheet.written (store.cells name) id text else store.cells other := by
  by_cases hempty : text = ""
  · have hremove : store.remove name id = .ok store' := by
      rwa [if_pos (String.isEmpty_iff.mpr hempty)] at h
    refine ⟨?_, fun other ↦ ?_⟩
    · obtain ⟨-, rfl⟩ := attempt_eq_ok_iff.mp hremove
      rfl
    · rw [cells_of_remove hremove, Sheet.written, if_pos hempty]
  · have hset : store.set name id text = .ok store' := by
      rwa [if_neg (String.isEmpty_iff.not.mpr hempty)] at h
    refine ⟨?_, fun other ↦ ?_⟩
    · obtain ⟨-, rfl⟩ := attempt_eq_ok_iff.mp hset
      rfl
    · rw [cells_of_set hset, Sheet.written, if_neg hempty]

theorem exists_written (hup : ∀ method, store.outage method = none) (name id text : String) :
    ∃ store' : Store,
      (if text.isEmpty then store.remove name id else store.set name id text) = .ok store' := by
  split
  · exact ⟨_, attempt_eq_ok_iff.mpr ⟨hup .remove, rfl⟩⟩
  · exact ⟨_, attempt_eq_ok_iff.mpr ⟨hup .set, rfl⟩⟩

end Store

namespace Workbook

/-! ## What a request is about -/

/-- The cell that a request edits. -/
def Request.target? : Request → Option String
  | .evaluate cell _ => some cell
  | .remove cell => some cell
  | .copy _ target => some target
  | .query _ => none
  | .clear => none
  | .dump => none
  | .dumpValues => none

/-- A request that changes what a cell has, if it is carried out: it edits the cell, however it
spells it, or clears the sheet. -/
def Request.Concerns (request : Request) (settings : Settings) (cell : String) : Prop :=
  request = .clear ∨
    ∃ other p, request.target? = some other ∧ settings.Names other p ∧ settings.Names cell p

/-- The workbook after requests on its sheets, whether they are carried out or not. -/
def after (w : Workbook) (requests : List (String × Request)) : Workbook :=
  requests.foldl (fun w r ↦ ((perform r.1 r.2).run w).2) w

/-- The store is in order, and the sheets in memory are sound. -/
structure Working (w : Workbook) : Prop where
  up : ∀ method, w.store.outage method = none
  loaded : ∀ name s, w.loaded.get? name = some s → s.Sound ∧ s.settings = w.settings

/-- The sheet that a request gets to work on: the one in memory, or else the one that is made from
the texts in the store. -/
def Has (w : Workbook) (name : String) (s : Sheet) : Prop :=
  w.loaded.get? name = some s ∨ w.loaded.get? name = none ∧
    Sheet.ofEntries name w.settings (w.store.cells name).entries = .ok s

/-- One sheet is in memory as `s` and in the store as `cells`. All else is as it was. -/
structure Changed (w w' : Workbook) (name : String) (s : Sheet)
    (cells : OrderedMap String String) : Prop where
  settings : w'.settings = w.settings
  outage : w'.store.outage = w.store.outage
  loaded : ∀ other, w'.loaded.get? other = if other = name then some s else w.loaded.get? other
  cells : ∀ other, w'.store.cells other = if other = name then cells else w.store.cells other

variable {w w' : Workbook} {name other cell expr id text : String} {s u : Sheet} {p : Position}
  {cells : OrderedMap String String} {α : Type} {request : Request} {answer : Answer}
  {settings : Settings} {requests : List (String × Request)}

theorem Has.unique (h : w.Has name s) (h' : w.Has name u) : s = u := by
  rcases h with h | ⟨hnone, h⟩ <;> rcases h' with h' | ⟨hnone', h'⟩
  · exact Option.some_inj.mp (h.symm.trans h')
  · rw [hnone'] at h
    cases h
  · rw [hnone] at h'
    cases h'
  · exact Except.ok.inj (h.symm.trans h')

/-- The sheets in memory are sound, and have the settings of the workbook. -/
def LoadedSound (w : Workbook) : Prop :=
  ∀ name s, w.loaded.get? name = some s → s.Sound ∧ s.settings = w.settings

theorem Has.sound_of_loaded (h : w.Has name s) (hw : w.LoadedSound) :
    s.Sound ∧ s.settings = w.settings := by
  rcases h with h | ⟨-, h⟩
  · exact hw name s h
  · obtain ⟨hsound, hsettings, -⟩ := (Sheet.sound_empty name w.settings).foldlM_absorb h
    exact ⟨hsound, hsettings⟩

theorem Has.sound (h : w.Has name s) (hw : w.Working) : s.Sound ∧ s.settings = w.settings :=
  h.sound_of_loaded hw.loaded

namespace Changed

theorem hold (w : Workbook) (name : String) (s : Sheet) :
    Changed w (w.hold name s) name s (w.store.cells name) where
  settings := rfl
  outage := rfl
  loaded other := OrderedMap.get?_insert ..
  cells other := by
    split
    · rename_i heq
      rw [heq]
      rfl
    · rfl

theorem trans {v : Workbook} {cells' : OrderedMap String String} (h : Changed w w' name s cells)
    (h' : Changed w' v name u cells') : Changed w v name u cells' where
  settings := h'.settings.trans h.settings
  outage := h'.outage.trans h.outage
  loaded other := by
    rw [h'.loaded, h.loaded]
    split <;> rfl
  cells other := by
    rw [h'.cells, h.cells]
    split <;> rfl

theorem loadedSound (h : Changed w w' name s cells) (hw : w.LoadedSound) (hs : s.Sound)
    (hsettings : s.settings = w.settings) : w'.LoadedSound := by
  intro other u hu
  rw [h.loaded] at hu
  rw [h.settings]
  split at hu
  · cases hu
    exact ⟨hs, hsettings⟩
  · exact hw other u hu

theorem working (h : Changed w w' name s cells) (hw : w.Working) (hs : s.Sound)
    (hsettings : s.settings = w.settings) : w'.Working where
  up method := by
    rw [h.outage]
    exact hw.up method
  loaded := h.loadedSound hw.loaded hs hsettings

theorem has_iff (h : Changed w w' name s cells) :
    w'.Has other u ↔ if other = name then u = s else w.Has other u := by
  rw [Has, h.loaded, h.cells, h.settings]
  split
  · simp [eq_comm]
  · rfl

end Changed

/-! ## Requests -/

theorem Working.load_eq (hw : w.Working) (name : String) :
    w.store.load name = .ok (w.store.cells name).entries :=
  Store.attempt_eq_ok_iff.mpr ⟨hw.up .load, rfl⟩

theorem Has.run_onSheet_of_load (hhas : w.Has name s)
    (hload : w.loaded.get? name = none → w.store.load name = .ok (w.store.cells name).entries)
    (act : Action Sheet α) :
    ∃ w', (onSheet name act).run w = ((act.run s).1, w') ∧
      Changed w w' name (act.run s).2 (w.store.cells name) ∧ w'.store = w.store := by
  rw [Workbook.run_onSheet, Workbook.run_sheet]
  rcases hhas with hloaded | ⟨hnone, hmade⟩
  · rw [hloaded]
    exact ⟨_, rfl, .hold w name _, rfl⟩
  · rw [hnone, hload hnone]
    dsimp only
    rw [hmade]
    exact ⟨_, rfl, (Changed.hold w name s).trans (.hold _ name _), rfl⟩

theorem Has.run_onSheet (hhas : w.Has name s) (hw : w.Working) (act : Action Sheet α) :
    ∃ w', (onSheet name act).run w = ((act.run s).1, w') ∧
      Changed w w' name (act.run s).2 (w.store.cells name) := by
  obtain ⟨w', hrun, hchanged, -⟩ := hhas.run_onSheet_of_load (fun _ ↦ hw.load_eq name) act
  exact ⟨w', hrun, hchanged⟩

/-- There is a sheet to do something to, or the texts in the store keep it from being made. -/
theorem Working.run_onSheet (hw : w.Working) (name : String) (act : Action Sheet α) :
    (∃ s w', w.Has name s ∧ (onSheet name act).run w = ((act.run s).1, w') ∧
      Changed w w' name (act.run s).2 (w.store.cells name)) ∨
    ∃ fault, (onSheet name act).run w = (.error fault, w) := by
  by_cases hhas : ∃ s, w.Has name s
  · obtain ⟨s, hhas⟩ := hhas
    obtain ⟨w', hrun, hchanged⟩ := hhas.run_onSheet hw act
    exact Or.inl ⟨s, w', hhas, hrun, hchanged⟩
  · have hnone : w.loaded.get? name = none :=
      Option.eq_none_iff_forall_ne_some.mpr fun s hs ↦ hhas ⟨s, Or.inl hs⟩
    rw [Workbook.run_onSheet, Workbook.run_sheet, hnone, hw.load_eq]
    dsimp only
    cases hmade : Sheet.ofEntries name w.settings (w.store.cells name).entries with
    | ok made => exact absurd ⟨made, Or.inr ⟨hnone, hmade⟩⟩ hhas
    | error fault => exact Or.inr ⟨fault, rfl⟩

/-- What can come of a request if the store is in order. -/
inductive RequestOutcome (w : Workbook) (name : String) (request : Request) :
    Except Fault Answer × Workbook → Prop
  /-- The sheet cannot be made from the texts in the store. -/
  | unloaded (fault : Fault) : RequestOutcome w name request (.error fault, w)
  /-- Nothing changes in the sheet. An edit has failed then. -/
  | kept {s : Sheet} {w' : Workbook} (result : Except Fault Answer) (has : w.Has name s)
      (failed : request.target?.isSome → ∃ fault, result = .error fault)
      (changed : Changed w w' name s (w.store.cells name)) :
      RequestOutcome w name request (result, w')
  /-- A cell is edited, and its new text is written through. -/
  | edited {s : Sheet} {w' : Workbook} {cell id expr : String} {p : Position} {updates : Updates}
      {t : Table} (has : w.Has name s)
      (ran : (Sheet.answer request).run s = (.ok (.updates updates), { s with table := t }))
      (target : request.target? = some cell) (names : s.settings.Names cell p)
      (id_eq : p.id = .ok id) (edited : s.table.Edited t s.settings id expr updates)
      (changed : Changed w w' name { s with table := t }
        (Sheet.written (w.store.cells name) id expr)) :
      RequestOutcome w name request (.ok (.updates updates), w')
  /-- The sheet is cleared. -/
  | cleared {s : Sheet} {w' : Workbook} (has : w.Has name s) (request_eq : request = .clear)
      (changed : Changed w w' name { s with table := ∅ } ∅) :
      RequestOutcome w name request (.ok .nothing, w')

theorem Changed.written (h : Changed w w' name s (w.store.cells name)) {store : Store}
    (hstore : (if text.isEmpty then w'.store.remove name id
      else w'.store.set name id text) = .ok store) :
    Changed w { w'.hold name s with store := store } name s
      (Sheet.written (w.store.cells name) id text) := by
  obtain ⟨houtage, hcells⟩ := Store.cells_of_written hstore
  refine h.trans ⟨rfl, houtage, fun other ↦ OrderedMap.get?_insert .., fun other ↦ ?_⟩
  refine (hcells other).trans ?_
  rw [h.cells name, if_pos rfl]

theorem Changed.cleared (h : Changed w w' name s cells) {store : Store}
    (hstore : w'.store.clear name = .ok store) : Changed w { w' with store := store } name s ∅ := by
  have houtage : store.outage = w'.store.outage := by
    obtain ⟨-, rfl⟩ := Store.attempt_eq_ok_iff.mp hstore
    rfl
  refine h.trans ⟨rfl, houtage, fun other ↦ ?_, Store.cells_of_clear hstore⟩
  rw [h.loaded]
  split <;> rfl

theorem Changed.exists_writeThrough (h : Changed w w' name s (w.store.cells name))
    (hw : w.Working) (hnames : s.settings.Names cell p) (hid : p.id = .ok id) :
    ∃ v, (writeThrough name cell).run w' = (.ok (), v) ∧
      Changed w v name s (Sheet.written (w.store.cells name) id (s.table.text id)) := by
  have hloaded : w'.loaded.get? name = some s := by rw [h.loaded, if_pos rfl]
  have hup : ∀ method, w'.store.outage method = none := fun method ↦ by
    rw [h.outage]
    exact hw.up method
  obtain ⟨store, hstore⟩ := Store.exists_written hup name id (s.table.text id)
  rw [Workbook.run_writeThrough hloaded hnames hid, hstore]
  exact ⟨_, rfl, h.written hstore⟩

theorem Working.outcome_edit (hw : w.Working) (name : String) {act : Action Sheet Updates}
    (htarget : request.target? = some cell)
    (hanswer : Sheet.answer request = act >>= fun updates ↦ pure (.updates updates))
    (houtcome : ∀ s : Sheet, s.Sound → Sheet.EditOutcome s cell (act.run s)) :
    RequestOutcome w name request
      ((edit name cell act >>= fun updates ↦ pure (.updates updates)).run w) := by
  rw [Action.run_bind_pure, edit, Action.run_bind]
  rcases hw.run_onSheet name act with ⟨s, w', hhas, hrun, hchanged⟩ | ⟨fault, hrun⟩
  · have hanswered := Action.run_bind_pure Answer.updates act s
    rw [← hanswer] at hanswered
    rw [hrun]
    obtain ⟨hs, -⟩ := hhas.sound hw
    have hedit := houtcome s hs
    generalize act.run s = outcome at hedit hchanged hanswered ⊢
    cases hedit with
    | failed fault => exact .kept _ hhas (fun _ ↦ ⟨fault, rfl⟩) hchanged
    | @edited p id expr updates t hnames hid hedited =>
      dsimp only at hchanged hanswered ⊢
      obtain ⟨v, hwrite, hwritten⟩ := hchanged.exists_writeThrough hw hnames hid
      have hself : t.text id = expr := (hedited.text id).trans (if_pos rfl)
      rw [hself] at hwritten
      rw [Action.run_bind, hwrite]
      exact .edited hhas hanswered htarget hnames hid hedited hwritten
  · rw [hrun]
    exact .unloaded fault

theorem Working.outcome_look (hw : w.Working) (name : String) (htarget : request.target? = none)
    {look : Sheet → Except Fault α} {g : α → Answer} :
    RequestOutcome w name request
      ((onSheet name (Action.query look) >>= fun a ↦ pure (g a)).run w) := by
  rw [Action.run_bind_pure]
  rcases hw.run_onSheet name (Action.query look) with
    ⟨s, w', hhas, hrun, hchanged⟩ | ⟨fault, hrun⟩
  · rw [hrun]
    exact .kept _ hhas (fun hsome ↦ by rw [htarget] at hsome; cases hsome) hchanged
  · rw [hrun]
    exact .unloaded fault

/-- **What a request does to a workbook whose store is in order.** -/
theorem Working.outcome (hw : w.Working) (name : String) (request : Request) :
    RequestOutcome w name request ((carryOut name request).run w) := by
  cases request with
  | evaluate cell expr =>
    exact hw.outcome_edit name rfl rfl fun s hs ↦ Sheet.outcome_evaluate hs cell expr
  | remove cell => exact hw.outcome_edit name rfl rfl fun s hs ↦ Sheet.outcome_remove hs cell
  | copy source target =>
    exact hw.outcome_edit name rfl rfl fun s hs ↦ Sheet.outcome_copy hs source target
  | query cell => exact hw.outcome_look name rfl
  | clear =>
    rw [carryOut, Action.run_bind]
    rcases hw.run_onSheet name Sheet.clear with ⟨s, w', hhas, hrun, hchanged⟩ | ⟨fault, hrun⟩
    · have hup : w'.store.outage .clear = none := by
        rw [hchanged.outage]
        exact hw.up .clear
      have hclear : w'.store.clear name = .ok _ := Store.attempt_eq_ok_iff.mpr ⟨hup, rfl⟩
      rw [hrun]
      change RequestOutcome w name .clear
        (((changeStore .clear name (·.clear name)) >>= fun _ ↦ pure .nothing).run w')
      rw [Action.run_bind, run_changeStore, hclear]
      exact .cleared hhas rfl (hchanged.cleared hclear)
    · rw [hrun]
      exact .unloaded fault
  | dump => exact hw.outcome_look name rfl
  | dumpValues => exact hw.outcome_look name rfl

/-! ## What a request keeps -/

/-- A text that a sheet in memory has for a cell is in the store as well. -/
structure Saved (w : Workbook) (name id text : String) : Prop where
  loaded : ∃ s, w.loaded.get? name = some s ∧ s.table.text id = text
  stored : (w.store.cells name).get? id = some text

/-- The sheet that a request gets to work on keeps what the store has. -/
def Faithful (w : Workbook) (name : String) : Prop :=
  ∀ s, w.Has name s → s.Keeps (w.store.cells name)

theorem Saved.text_eq (h : w.Saved name id text) (hhas : w.Has name s) :
    s.table.text id = text := by
  obtain ⟨u, hloaded, htext⟩ := h.loaded
  rw [hhas.unique (Or.inl hloaded)]
  exact htext

theorem Changed.saved (h : Changed w w' name s cells) (htext : s.table.text id = text)
    (hget : cells.get? id = some text) : w'.Saved name id text := by
  refine ⟨⟨s, ?_, htext⟩, ?_⟩
  · rw [h.loaded, if_pos rfl]
  · rw [h.cells, if_pos rfl]
    exact hget

theorem Saved.of_changed (h : w.Saved name id text) (hchanged : Changed w w' other s cells)
    (hne : name ≠ other) : w'.Saved name id text := by
  obtain ⟨⟨u, hloaded, htext⟩, hstored⟩ := h
  refine ⟨⟨u, ?_, htext⟩, ?_⟩
  · rw [hchanged.loaded, if_neg hne]
    exact hloaded
  · rw [hchanged.cells, if_neg hne]
    exact hstored

/-- A workbook stays faithful to what the store has of other sheets, and is faithful to what it has
of the sheet that changes if that sheet keeps it. -/
theorem Faithful.of_changed (h : w.Faithful name) (hchanged : Changed w w' other s cells)
    (hkeeps : name = other → s.Keeps cells) : w'.Faithful name := by
  intro u hu
  rw [hchanged.has_iff] at hu
  rw [hchanged.cells]
  split at hu
  · rename_i heq
    rw [if_pos heq, hu]
    exact hkeeps heq
  · rename_i hne
    rw [if_neg hne]
    exact h u hu

namespace RequestOutcome

variable {outcome : Except Fault Answer × Workbook}

theorem working (h : RequestOutcome w name request outcome) (hw : w.Working) :
    outcome.2.Working ∧ outcome.2.settings = w.settings := by
  cases h with
  | unloaded fault => exact ⟨hw, rfl⟩
  | kept result has failed changed =>
    obtain ⟨hs, hsettings⟩ := has.sound hw
    exact ⟨changed.working hw hs hsettings, changed.settings⟩
  | edited has ran target names id_eq edited changed =>
    exact ⟨changed.working hw edited.sound (has.sound hw).2, changed.settings⟩
  | cleared has request_eq changed =>
    exact ⟨changed.working hw (Table.sound_empty _) (has.sound hw).2, changed.settings⟩

/-- **A saved text stays saved** under every request that is not about its cell. -/
theorem saved (h : RequestOutcome w other request outcome) (hw : w.Working)
    (hsaved : w.Saved name id text) (hnames : w.settings.Names cell p) (hid : p.id = .ok id)
    (hspared : name = other → request.Concerns w.settings cell → ∀ answer, outcome.1 ≠ .ok answer) :
    outcome.2.Saved name id text := by
  cases h with
  | unloaded fault => exact hsaved
  | kept result has failed changed =>
    by_cases hname : name = other
    · subst hname
      have hstored := hsaved.stored
      exact changed.saved (hsaved.text_eq has) hstored
    · exact hsaved.of_changed changed hname
  | @edited s w' cell' id' expr p' updates t has ran target names id_eq edited changed =>
    by_cases hname : name = other
    · subst hname
      have hne : id ≠ id' := by
        -- otherwise the request edits the very cell
        rintro rfl
        rw [(has.sound hw).2] at names
        obtain rfl := Position.id_injective hid id_eq
        exact hspared rfl (Or.inr ⟨cell', p, target, names, hnames⟩) _ rfl
      refine changed.saved ?_ (Sheet.get?_written_eq_some_iff.mpr (Or.inr ⟨hne, hsaved.stored⟩))
      exact (edited.text id).trans ((if_neg hne).trans (hsaved.text_eq has))
    · exact hsaved.of_changed changed hname
  | cleared has request_eq changed =>
    by_cases hname : name = other
    · exact absurd rfl (hspared hname (Or.inl request_eq) .nothing)
    · exact hsaved.of_changed changed hname

/-- **Requests keep a workbook faithful to its store.** -/
theorem faithful (h : RequestOutcome w other request outcome) (hf : w.Faithful name) :
    outcome.2.Faithful name := by
  cases h with
  | unloaded fault => exact hf
  | @kept s w' result has failed changed =>
    exact hf.of_changed changed fun hname ↦ hname ▸ hf s (hname ▸ has)
  | edited has ran target names id_eq edited changed =>
    refine hf.of_changed changed fun hname ↦ ?_
    subst hname
    exact (hf _ has).edited edited
  | @cleared s w' has request_eq changed =>
    exact hf.of_changed changed fun _ ↦ Sheet.keeps_empty s.name s.settings

end RequestOutcome

/-! ## Runs -/

theorem run_perform (name : String) (request : Request) (w : Workbook) :
    (perform name request).run w
      = (reported ((carryOut name request).run w).1, ((carryOut name request).run w).2) := by
  rw [perform, run_reporting]

theorem reported_eq_done_iff {result : Except Fault α} {value : α} :
    reported result = .ok (.done value) ↔ result = .ok value := by
  cases result with
  | ok value' => simp [reported]
  | error fault => exact iff_of_false (reported_ne_done value) nofun

theorem Working.step (hw : w.Working) (name : String) (request : Request) :
    ((perform name request).run w).2.Working ∧
      ((perform name request).run w).2.settings = w.settings := by
  rw [run_perform]
  exact (hw.outcome name request).working hw

theorem Working.after (hw : w.Working) (requests : List (String × Request)) :
    (w.after requests).Working ∧ (w.after requests).settings = w.settings := by
  induction requests generalizing w with
  | nil => exact ⟨hw, rfl⟩
  | cons r rest ih =>
    obtain ⟨hstep, hsettings⟩ := hw.step r.1 r.2
    obtain ⟨hrest, hsettings'⟩ := ih hstep
    exact ⟨hrest, hsettings'.trans hsettings⟩

theorem Faithful.after (hf : w.Faithful name) (hw : w.Working)
    (requests : List (String × Request)) : (w.after requests).Faithful name := by
  induction requests generalizing w with
  | nil => exact hf
  | cons r rest ih =>
    have hstep : ((perform r.1 r.2).run w).2.Faithful name := by
      rw [run_perform]
      exact (hw.outcome r.1 r.2).faithful hf
    exact ih hstep (hw.step r.1 r.2).1

/-- No request on the sheet is carried out that is about the cell. -/
def Spares (w : Workbook) (requests : List (String × Request)) (name cell : String) : Prop :=
  ∀ earlier request rest, requests = earlier ++ (name, request) :: rest →
    request.Concerns w.settings cell →
    ∀ answer, ((perform name request).run (w.after earlier)).1 ≠ .ok (.done answer)

theorem spares_of_not_concerns (hsettings : w.settings = settings)
    (h : ∀ r ∈ requests, r.1 = name → ¬ r.2.Concerns settings cell) :
    w.Spares requests name cell := by
  rintro earlier request rest rfl hconcerns
  exact absurd (hsettings ▸ hconcerns) (h (name, request) (by simp) rfl)

theorem Request.not_concerns_of_ne {q : Position} (htarget : request.target? = some other)
    (hother : settings.locate other = .ok q) (hcell : settings.locate cell = .ok p) (hne : q ≠ p) :
    ¬ request.Concerns settings cell := by
  rintro (rfl | ⟨other', p', htarget', hnames, hnames'⟩)
  · cases htarget
  · rw [htarget] at htarget'
    cases htarget'
    have hq := hnames.unique (Settings.locate_eq_ok_iff.mp hother)
    exact hne (hq.symm.trans (hnames'.unique (Settings.locate_eq_ok_iff.mp hcell)))

theorem Saved.after (hsaved : w.Saved name id text) (hw : w.Working)
    (hnames : w.settings.Names cell p) (hid : p.id = .ok id)
    (hspares : w.Spares requests name cell) : (w.after requests).Saved name id text := by
  induction requests generalizing w with
  | nil => exact hsaved
  | cons r rest ih =>
    obtain ⟨other, request⟩ := r
    obtain ⟨hstep, hsettings⟩ := hw.step other request
    have hsaved' : ((perform other request).run w).2.Saved name id text := by
      rw [run_perform]
      refine (hw.outcome other request).saved hw hsaved hnames hid fun hname hconcerns answer ↦ ?_
      have hnot := hspares [] request rest (by rw [hname]; rfl) hconcerns answer
      rw [run_perform, hname] at hnot
      exact reported_eq_done_iff.not.mp hnot
    refine ih hsaved' hstep (hsettings ▸ hnames) fun earlier request' rest' heq hconcerns ↦ ?_
    rw [hsettings] at hconcerns
    exact hspares ((other, request) :: earlier) request' rest' (by rw [heq]; rfl) hconcerns

/-! ## Restarting -/

theorem Has.query_eq (hhas : w.Has name s) (hw : w.Working) (cell : String) :
    ((perform name (.query cell)).run w).1 = reported ((s.view cell).map .view) := by
  rw [run_perform]
  have hcarry : (carryOut name (.query cell)).run w
      = (onSheet name (Action.query (·.view cell)) >>= fun view ↦
          pure (Answer.view view)).run w := rfl
  obtain ⟨w', hrun, -⟩ := hhas.run_onSheet hw (Action.query (·.view cell))
  rw [hcarry, Action.run_bind_pure, hrun]
  rfl

theorem Has.query_saved (hhas : w.Has name s) (hw : w.Working) (hnames : w.settings.Names cell p)
    (hid : p.id = .ok id) (htext : s.table.text id = text) :
    ((perform name (.query cell)).run w).1
      = .ok (.done (.view ⟨text, s.table.valueOf id⟩)) := by
  rw [hhas.query_eq hw, Sheet.view_eq, (hhas.sound hw).2, Settings.locate_eq_ok_iff.mpr hnames,
    Outcome.ok_bind, hid, ← htext]
  rfl

theorem working_overStore {store : Store} (hup : ∀ method, store.outage method = none)
    (settings : Settings) : (overStore settings store).Working :=
  ⟨hup, fun name s hs ↦ by cases hs⟩

theorem has_overStore_iff {store : Store} : (overStore settings store).Has name s ↔
    Sheet.ofEntries name settings (store.cells name).entries = .ok s := by
  constructor
  · rintro (h | ⟨-, h⟩)
    · cases h
    · exact h
  · exact fun h ↦ Or.inr ⟨rfl, h⟩

theorem faithful_overStore {store : Store} (h : Sheet.Orderly settings (store.cells name)) :
    (overStore settings store).Faithful name :=
  fun _ hs ↦ h.keeps (has_overStore_iff.mp hs)

/-- **A restart does not show** in a sheet that keeps what the store has. -/
theorem Faithful.exists_has_restarted (hf : w.Faithful name) (hw : w.Working)
    (hhas : w.Has name s) :
    ∃ made, w.restarted.Has name made ∧ made.Sound ∧ made.Alike s := by
  obtain ⟨hs, hsettings⟩ := hhas.sound hw
  obtain ⟨made, hmade, hsound, halike⟩ := (hf s hhas).exists_ofEntries hs name
  rw [hsettings] at hmade
  exact ⟨made, has_overStore_iff.mpr hmade, hsound, halike⟩

theorem Working.saved_of_evaluate (hw : w.Working)
    (hdone : ((perform name (.evaluate cell expr)).run w).1 = .ok (.done answer)) :
    ∃ p id, w.settings.Names cell p ∧ p.id = .ok id ∧
      ((perform name (.evaluate cell expr)).run w).2.Saved name id (strip expr) := by
  have houtcome := hw.outcome name (.evaluate cell expr)
  rw [run_perform] at hdone ⊢
  rw [reported_eq_done_iff] at hdone
  generalize (carryOut name (.evaluate cell expr)).run w = outcome at houtcome hdone ⊢
  cases houtcome with
  | unloaded fault => cases hdone
  | kept result has failed changed =>
    obtain ⟨fault, rfl⟩ := failed rfl
    cases hdone
  | @edited s w' cell' id' expr' p' updates t has ran target names id_eq edited changed =>
    obtain ⟨hs, hsettings⟩ := has.sound hw
    have hanswer :=
      (Action.run_bind_pure Answer.updates (Sheet.evaluate cell expr) s).symm.trans ran
    obtain ⟨updates', hupdates, -⟩ := Outcome.map_eq_ok_iff.mp (congrArg Prod.fst hanswer)
    have hsheet : ((Sheet.evaluate cell expr).run s).2 = { s with table := t } :=
      congrArg Prod.snd hanswer
    have hrun : (Sheet.evaluate cell expr).run s = (.ok updates', { s with table := t }) :=
      Prod.ext hupdates hsheet
    obtain ⟨p, id, f, hnames, hid, hread, heffect, -⟩ := Sheet.effect_of_evaluate hs hrun
    -- the cell that is written through is the one that was evaluated
    cases target
    obtain rfl := names.unique hnames
    obtain rfl := Except.ok.inj (hid.symm.trans id_eq)
    have htext : t.text id = strip expr := (heffect.text id).trans (if_pos rfl)
    have hself : t.text id = expr' := (edited.text id).trans (if_pos rfl)
    have hne : strip expr ≠ "" :=
      Formula.ne_empty_of_read ((Formula.read_strip expr).trans hread)
    refine ⟨p', id, hsettings ▸ hnames, hid, changed.saved htext ?_⟩
    rw [hself] at htext
    exact Sheet.get?_written_eq_some_iff.mpr (Or.inl ⟨rfl, htext ▸ hne, htext.symm⟩)
  | cleared has request_eq changed => cases request_eq

/-- **What a saved text needs to survive a restart.** Once a text has been evaluated, and until a
request about the cell is carried out, the cell shows the text and the store has it, whatever else
the store had at the start. If what it had for the sheet at the start was orderly, a workbook that
is started anew over the store shows the same. -/
theorem query_restarted_of_run (settings : Settings) (store : Store)
    (hup : ∀ method, store.outage method = none) (before later : List (String × Request))
    (hdone : ((perform name (.evaluate cell expr)).run ((overStore settings store).after before)).1
      = .ok (.done answer))
    (hspares : ((overStore settings store).after (before ++ [(name, .evaluate cell expr)])).Spares
      later name cell) :
    let final := (overStore settings store).after (before ++ (name, .evaluate cell expr) :: later)
    ∃ p id view, settings.Names cell p ∧ p.id = .ok id ∧ view.expr = strip expr ∧
      ((perform name (.query cell)).run final).1 = .ok (.done (.view view)) ∧
      final.store.text name id = strip expr ∧
      (Sheet.Orderly settings (store.cells name) →
        ((perform name (.query cell)).run final.restarted).1 = .ok (.done (.view view))) := by
  intro final
  have hstart := working_overStore hup settings
  obtain ⟨hbefore, hsettings⟩ : ((overStore settings store).after before).Working ∧
    ((overStore settings store).after before).settings = settings := hstart.after before
  obtain ⟨p, id, hnames, hid, hsaved⟩ := hbefore.saved_of_evaluate hdone
  obtain ⟨hstep, hsettings'⟩ := hbefore.step name (.evaluate cell expr)
  have happend : ∀ requests, (overStore settings store).after (before ++ requests)
      = ((overStore settings store).after before).after requests := fun requests ↦ List.foldl_append
  have hsplit : final = ((perform name (.evaluate cell expr)).run
      ((overStore settings store).after before)).2.after later := happend _
  rw [happend] at hspares
  obtain ⟨hfinal, hkept⟩ := hstep.after later
  have hsaved' := hsaved.after hstep (hsettings' ▸ hnames) hid hspares
  rw [← hsplit] at hfinal hkept hsaved'
  have hnames' : final.settings.Names cell p := by
    rw [hkept, hsettings']
    exact hnames
  obtain ⟨s, hloaded, htext⟩ := hsaved'.loaded
  have hhas : final.Has name s := Or.inl hloaded
  refine ⟨p, id, ⟨strip expr, s.table.valueOf id⟩, hsettings ▸ hnames, hid, rfl,
    hhas.query_saved hfinal hnames' hid htext, ?_, fun horderly ↦ ?_⟩
  · rw [Store.text, hsaved'.stored]
    rfl
  · have hf : final.Faithful name := (faithful_overStore horderly).after hstart _
    obtain ⟨hs, hset⟩ := hhas.sound hfinal
    obtain ⟨made, hmade, hsound, halike⟩ := hf.exists_has_restarted hfinal hhas
    have hrestarted : final.restarted.Working := working_overStore hfinal.up final.settings
    rw [hmade.query_eq hrestarted, halike.view_eq hsound hs, ← hhas.query_eq hfinal]
    exact hhas.query_saved hfinal hnames' hid htext

/-- The store has an entry that is no cell. A text with blanks around it is saved between requests
on other cells and on another sheet. -/
theorem query_restarted_of_run_blanks :
    let store : Store :=
      { sheets := (∅ : OrderedMap String (OrderedMap String String)).insert "s"
          ((∅ : OrderedMap String String).insert "7x" "1") }
    let final := (overStore .standard store).after
      ([("s", .evaluate "a1" "7")] ++ ("s", .evaluate "A2" " a1 * 2 ") ::
        [("s", .remove "a1"), ("t", .clear)])
    ∃ view, view.expr = "a1 * 2" ∧
      ((perform "s" (.query "A2")).run final).1 = .ok (.done (.view view)) ∧
      ((perform "s" (.query "A2")).run final.restarted).1 = .ok (.done (.view view)) := by
  intro store final
  have hup : ∀ method, store.outage method = none := fun _ ↦ rfl
  have hdone : ((perform "s" (.evaluate "A2" " a1 * 2 ")).run
      ((overStore .standard store).after [("s", .evaluate "a1" "7")])).1
        = .ok (.done (.updates [("a2", 14.0)])) := by decide +kernel
  have hspares : ((overStore .standard store).after
      ([("s", .evaluate "a1" "7")] ++ [("s", .evaluate "A2" " a1 * 2 ")])).Spares
        [("s", .remove "a1"), ("t", .clear)] "s" "A2" := by
    have hlocate : Settings.standard.locate "a1" = .ok ⟨1, 1⟩ ∧
        Settings.standard.locate "A2" = .ok ⟨1, 2⟩ := by decide +kernel
    refine spares_of_not_concerns ((working_overStore hup .standard).after _).2 fun r hr hname ↦ ?_
    rcases List.mem_pair.mp hr with rfl | rfl
    · exact Request.not_concerns_of_ne rfl hlocate.1 hlocate.2 (by decide)
    · exact absurd hname (by decide)
  have horderly : Sheet.Orderly .standard (store.cells "s") := by
    -- nothing is let through
    have hnone : ∀ cell expr result, (store.cells "s").get? cell = some expr →
        Settings.standard.accept cell expr ≠ .ok result := by
      intro cell expr result hget hok
      obtain ⟨rfl, rfl⟩ : cell = "7x" ∧ expr = "1" := by
        simpa using List.mem_singleton.mp (OrderedMap.get?_eq_some_iff.mp hget)
      have herror : (Settings.standard.accept "7x" "1").toOption = none := by decide +kernel
      rw [hok] at herror
      cases herror
    refine ⟨fun cell expr id f base hget haccept ↦ absurd haccept (hnone cell expr _ hget), ?_⟩
    intro x hcycle
    obtain ⟨y, ⟨cell, expr, f, base, hget, haccept, -⟩, -⟩ := Relation.TransGen.head'_iff.mp hcycle
    exact hnone cell expr _ hget haccept
  obtain ⟨p, id, view, -, -, hexpr, hfinal, -, hrestarted⟩ :=
    query_restarted_of_run .standard store hup [("s", .evaluate "a1" "7")]
      [("s", .remove "a1"), ("t", .clear)] hdone hspares
  exact ⟨view, hexpr.trans (by decide +kernel), hfinal, hrestarted horderly⟩

/-- **A saved text can be lost in a restart.** The store has two cells that read each other, of
which the second one is left out. When the first one has another text the second one can go in
again, and what was saved in between closes a circle with them. -/
theorem query_restarted_ne :
    let store : Store :=
      { sheets := (∅ : OrderedMap String (OrderedMap String String)).insert "s"
          (((∅ : OrderedMap String String).insert "c1" "b1").insert "b1" "c1") }
    let saved := (overStore .standard store).after [("s", .evaluate "a1" "b1")]
    let final := saved.after [("s", .evaluate "c1" "a1")]
    ((perform "s" (.evaluate "a1" "b1")).run (overStore .standard store)).1
        = .ok (.done (.updates [("a1", 0.0)])) ∧
      saved.Spares [("s", .evaluate "c1" "a1")] "s" "a1" ∧
      ((perform "s" (.query "a1")).run final).1 = .ok (.done (.view ⟨"b1", 0.0⟩)) ∧
      ((perform "s" (.query "a1")).run final.restarted).1 = .ok (.done (.view ⟨"", 0.0⟩)) := by
  intro store saved final
  refine ⟨by decide +kernel, ?_, by decide +kernel, by decide +kernel⟩
  have hlocate : Settings.standard.locate "c1" = .ok ⟨3, 1⟩ ∧
      Settings.standard.locate "a1" = .ok ⟨1, 1⟩ := by decide +kernel
  have hup : ∀ method, store.outage method = none := fun _ ↦ rfl
  refine spares_of_not_concerns ((working_overStore hup .standard).after _).2 fun r hr _ ↦ ?_
  obtain rfl := List.mem_singleton.mp hr
  exact Request.not_concerns_of_ne rfl hlocate.1 hlocate.2 (by decide)

end Workbook

end Spreadsheet
