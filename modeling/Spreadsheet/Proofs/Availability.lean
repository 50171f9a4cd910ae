import Spreadsheet.Proofs.Copying
import Spreadsheet.Proofs.Isolation
import Spreadsheet.Proofs.Restart

/-!
# Every request is answered

Most faults are not meant to be seen: a formula without a meaning, an operator with the wrong number
of operands, a number that cannot be written, a column before the first one. A workbook does not
turn them into replies, and a caller who met one would have found a mistake in the library. No
caller does. A request is carried out, or it is refused as malformed or circular, or a method of the
store has failed while it was carried out, whatever the store had at the start, whatever was asked
before, and however often the store has failed.

The one condition is that no text has more digits in a row than a numeral can have. It is put on
the texts that the store had at the start and on those of the request. What is asked in between
need not meet it: an edit that fails keeps nothing, and the text of one that does not fail is good
enough to be evaluated again.

Three things are kept between requests (`Ready`): the sheets in memory are sound, they have the
settings of the workbook, and the store has no text that would keep a sheet from being made.
-/

namespace Spreadsheet

open Text Numeral

/-! ## Numbers that can be written -/

theorem Numeral.isWritable_of_natAbs_le {m n : Int} (h : m.natAbs ≤ n.natAbs)
    (hn : isWritable n = true) : isWritable m = true := by
  rw [isWritable_iff] at hn ⊢
  exact h.trans_lt hn

namespace Settings

variable {s : Settings} {f : Formula} {p q : Position}

/-- Numbers of twice the size of the bounds can be written. -/
structure Modest (s : Settings) : Prop where
  rows : isWritable (2 * s.maxRows) = true
  cols : isWritable (2 * s.maxCols) = true

theorem modest_standard : standard.Modest := ⟨by decide +kernel, by decide +kernel⟩

/-- A formula that is covered in one cell has short numbers in every other one: copied inside the
bounds, a reference moves by less than the bounds. -/
theorem Modest.shortAt (h : s.Modest) (hcovers : s.Covers f p) (hp : s.inBounds p = true)
    (hq : s.inBounds q = true) : f.ShortAt q := by
  intro r hr
  have hin := inBounds_iff.mp (hcovers r hr)
  simp only [CellRef.position] at hin
  rw [inBounds_iff] at hp hq
  rw [r.resolve_eq_moved p q]
  constructor
  · refine isWritable_of_natAbs_le ?_ h.cols
    rw [CellRef.moved]
    dsimp only
    split <;> omega
  · refine isWritable_of_natAbs_le ?_ h.rows
    rw [CellRef.moved]
    dsimp only
    split <;> omega

end Settings

/-! ## What a sheet refuses -/

namespace Workbook

/-- The texts of a request that are read. -/
def Request.texts : Request → List String
  | .evaluate cell expr => [cell, expr]
  | .remove cell => [cell]
  | .copy source target => [source, target]
  | .query cell => [cell]
  | .clear => []
  | .dump => []
  | .dumpValues => []

/-- No text of a request has too many digits in a row. -/
def Request.Short (request : Request) : Prop :=
  ∀ text ∈ request.texts, ¬ HasLongRun text.toList

end Workbook

/-- The faults that a sheet answers a request with: something is malformed, or a cell
would depend on itself. -/
inductive Fault.Refusal : Fault → Prop
  | malformed (cause : Malformed) : Refusal (.malformed cause)
  | circular (cause : Circular) : Refusal (.circular cause)

namespace Settings

variable {s : Settings} {cell : String} {fault : Fault}

theorem refusal_of_locate (h : s.locate cell = .error fault) (hcell : ¬ HasLongRun cell.toList) :
    fault.Refusal := by
  obtain ⟨cause, rfl⟩ := (fault_of_locate h).resolve_right hcell
  exact .malformed cause

theorem refusal_of_locate_id (h : (s.locate cell >>= Position.id) = .error fault)
    (hcell : ¬ HasLongRun cell.toList) : fault.Refusal := by
  rcases Outcome.bind_eq_error_iff.mp h with hlocate | ⟨p, hlocate, hid⟩
  · exact refusal_of_locate hlocate hcell
  · obtain ⟨id, hok⟩ := (locate_eq_ok_iff.mp hlocate).named.exists_id
    rw [hok] at hid
    cases hid

end Settings

namespace Sheet

variable {s : Sheet} {cell expr source target : String} {fault : Fault}

theorem refusal_of_evaluate (hs : s.Sound) (hcell : ¬ HasLongRun cell.toList)
    (hexpr : ¬ HasLongRun expr.toList) (h : ((evaluate cell expr).run s).1 = .error fault) :
    fault.Refusal := by
  rcases fault_of_evaluate hs hcell hexpr (Prod.ext h rfl) with ⟨cause, rfl⟩ | ⟨cause, rfl⟩
  · exact .malformed cause
  · exact .circular cause

theorem refusal_of_remove (hs : s.Sound) (hcell : ¬ HasLongRun cell.toList)
    (h : ((remove cell).run s).1 = .error fault) : fault.Refusal := by
  cases hlocate : s.settings.locate cell with
  | error fault' =>
    rw [run_remove, hlocate] at h
    cases h
    exact Settings.refusal_of_locate hlocate hcell
  | ok p =>
    have hnames := Settings.locate_eq_ok_iff.mp hlocate
    obtain ⟨id, hid⟩ := hnames.named.exists_id
    obtain ⟨updates, t, hrun, -⟩ := exists_remove hs hnames hid
    rw [hrun] at h
    cases h

theorem refusal_of_copy_named {p q : Position} (hs : s.Sound) (hmodest : s.settings.Modest)
    (hsource : s.settings.Names source p) (hnames : s.settings.Names target q)
    (htarget : ¬ HasLongRun target.toList) (h : ((copy source target).run s).1 = .error fault) :
    fault.Refusal := by
  obtain ⟨sourceId, hsourceId⟩ := hsource.named.exists_id
  obtain ⟨id, hid⟩ := hnames.named.exists_id
  cases hf : s.table.formula? sourceId with
  | none =>
    rw [run_copy_of_empty hsource hsourceId hnames hid hf] at h
    exact refusal_of_remove hs htarget h
  | some f =>
    have hcovers := Table.Sound.covers hs hf (Position.read_id hsourceId)
    have hshort := hmodest.shortAt hcovers hsource.inBounds hnames.inBounds
    rcases run_copy_cases hs hsource hsourceId hnames hid hf hshort with
      ⟨-, cause, hrun⟩ | ⟨-, -, cause, hrun⟩ | ⟨-, -, updates, s', hrun⟩
    · rw [hrun] at h
      cases h
      exact .malformed cause
    · rw [hrun] at h
      cases h
      exact .circular cause
    · rw [hrun] at h
      cases h

theorem refusal_of_copy (hs : s.Sound) (hmodest : s.settings.Modest)
    (hsource : ¬ HasLongRun source.toList) (htarget : ¬ HasLongRun target.toList)
    (h : ((copy source target).run s).1 = .error fault) : fault.Refusal := by
  cases hp : s.settings.locate source with
  | error fault' =>
    rw [run_copy, copied, hp] at h
    cases h
    exact Settings.refusal_of_locate hp hsource
  | ok p =>
    cases hq : s.settings.locate target with
    | error fault' =>
      rw [run_copy, copied, hp, Outcome.ok_bind, hq] at h
      cases h
      exact Settings.refusal_of_locate hq htarget
    | ok q =>
      exact refusal_of_copy_named hs hmodest (Settings.locate_eq_ok_iff.mp hp)
        (Settings.locate_eq_ok_iff.mp hq) htarget h

theorem eq_error_of_bind_pure {α : Type} {act : Action Sheet α} {g : α → Workbook.Answer}
    (h : ((act >>= fun a ↦ pure (g a)).run s).1 = .error fault) : (act.run s).1 = .error fault := by
  rw [Action.run_bind_pure] at h
  exact Outcome.map_eq_error_iff.mp h

/-- **A sheet answers, or refuses a request as malformed or circular.** -/
theorem refusal_of_answer {request : Workbook.Request} (hs : s.Sound) (hmodest : s.settings.Modest)
    (hshort : request.Short) (h : ((answer request).run s).1 = .error fault) : fault.Refusal := by
  rw [Workbook.Request.Short] at hshort
  cases request with
  | evaluate cell expr =>
    obtain ⟨hcell, hexpr⟩ : ¬ HasLongRun cell.toList ∧ ¬ HasLongRun expr.toList := by
      simpa [Workbook.Request.texts] using hshort
    exact refusal_of_evaluate hs hcell hexpr (eq_error_of_bind_pure h)
  | remove cell =>
    exact refusal_of_remove hs (hshort cell (List.mem_singleton_self cell))
      (eq_error_of_bind_pure h)
  | copy source target =>
    obtain ⟨hsource, htarget⟩ : ¬ HasLongRun source.toList ∧ ¬ HasLongRun target.toList := by
      simpa [Workbook.Request.texts] using hshort
    exact refusal_of_copy hs hmodest hsource htarget (eq_error_of_bind_pure h)
  | query cell =>
    have hview : s.view cell = .error fault := eq_error_of_bind_pure h
    rw [view_eq, Outcome.map_eq_error_iff] at hview
    exact Settings.refusal_of_locate_id hview (hshort cell (List.mem_singleton_self cell))
  | clear => cases h
  | dump =>
    obtain ⟨ids, -, -, -, hdump, -⟩ := hs.exists_dump
    have hfault : s.dump = .error fault := eq_error_of_bind_pure h
    rw [hdump] at hfault
    cases hfault
  | dumpValues =>
    obtain ⟨ids, -, -, -, -, hdump⟩ := hs.exists_dump
    have hfault : s.dumpValues = .error fault := eq_error_of_bind_pure h
    rw [hdump] at hfault
    cases hfault

end Sheet

/-- No text of a store has too many digits in a row. -/
def Store.Short (store : Store) : Prop :=
  ∀ name cell expr, (store.cells name).get? cell = some expr →
    ¬ HasLongRun cell.toList ∧ ¬ HasLongRun expr.toList

namespace Workbook

variable {w w' : Workbook} {settings : Settings} {name cell : String} {request : Request}
  {s : Sheet} {cells : OrderedMap String String} {α : Type}

/-! ## What is kept between requests -/

/-- A workbook is ready for requests: its sheets are sound, and new ones can be made from what the
store has. -/
structure Ready (w : Workbook) (settings : Settings) : Prop where
  settings_eq : w.settings = settings
  loaded : w.LoadedSound
  stored : ∀ name cell expr, (w.store.cells name).get? cell = some expr →
    Sheet.Reportable settings cell expr

theorem Ready.sound (hw : w.Ready settings) (h : w.Has name s) :
    s.Sound ∧ s.settings = settings := by
  obtain ⟨hs, hsettings⟩ := h.sound_of_loaded hw.loaded
  exact ⟨hs, hsettings.trans hw.settings_eq⟩

theorem Changed.ready (h : Changed w w' name s cells) (hw : w.Ready settings) (hs : s.Sound)
    (hsettings : s.settings = settings)
    (hcells : ∀ cell expr, cells.get? cell = some expr → Sheet.Reportable settings cell expr) :
    w'.Ready settings where
  settings_eq := h.settings.trans hw.settings_eq
  loaded := h.loadedSound hw.loaded hs (hsettings.trans hw.settings_eq.symm)
  stored other cell expr hget := by
    rw [h.cells] at hget
    split at hget
    · exact hcells cell expr hget
    · exact hw.stored other cell expr hget

theorem Ready.reportable_written (hw : w.Ready settings) (hsettings : s.settings = settings)
    {t : Table} {id expr : String} {updates : Updates}
    (hedited : s.table.Edited t s.settings id expr updates) (cell text : String)
    (hget : (Sheet.written (w.store.cells name) id expr).get? cell = some text) :
    Sheet.Reportable settings cell text := by
  rcases Sheet.get?_written_eq_some_iff.mp hget with ⟨rfl, hne, rfl⟩ | ⟨-, hget⟩
  · -- the sheet has let it through
    obtain ⟨f, base, haccept, -⟩ := Sheet.accept_of_edited hedited hne
    exact hsettings ▸ Sheet.reportable_of_accept haccept
  · exact hw.stored name cell text hget

theorem Ready.forget (hw : w.Ready settings) (name : String) : (w.forget name).Ready settings where
  settings_eq := hw.settings_eq
  loaded other s hs := by
    rw [Workbook.forget, OrderedMap.get?_erase] at hs
    split at hs
    · cases hs
    · exact hw.loaded other s hs
  stored := hw.stored

/-! ## What comes of a request -/

/-- A request gets to work on a sheet: the one in memory, or the one that is made from
what the store gives out. -/
def Gets (w : Workbook) (name : String) (s : Sheet) : Prop :=
  w.Has name s ∧ (w.loaded.get? name = none → w.store.outage .load = none)

/-- A method of the store fails while a request is carried out: what the sheet is to be made from
cannot be loaded, the new text of an edited cell is not saved, or the sheet is not cleared. -/
inductive StoreFails (w : Workbook) (name : String) (request : Request) :
    StoreAction → String → Prop
  | load {reason : String} (missing : w.loaded.get? name = none)
      (fails : w.store.load name = .error reason) : StoreFails w name request .load reason
  | save {s s' : Sheet} {cell id reason : String} {p : Position} {answer : Answer}
      (gets : w.Gets name s) (ran : (Sheet.answer request).run s = (.ok answer, s'))
      (target : request.target? = some cell) (names : s.settings.Names cell p)
      (id_eq : p.id = .ok id)
      (fails : (if (s'.table.text id).isEmpty then w.store.remove name id
        else w.store.set name id (s'.table.text id)) = .error reason) :
      StoreFails w name request .save reason
  | clear {s : Sheet} {reason : String} (gets : w.Gets name s) (request_eq : request = .clear)
      (fails : w.store.clear name = .error reason) : StoreFails w name request .clear reason

/-- What can come of a request: the answer of the sheet, or a failure of the store. -/
inductive Handled (w : Workbook) (settings : Settings) (name : String) (request : Request) :
    Except Fault Answer × Workbook → Prop
  | answered {s s' : Sheet} {result : Except Fault Answer} {w' : Workbook} (gets : w.Gets name s)
      (ran : (Sheet.answer request).run s = (result, s')) (ready : w'.Ready settings) :
      Handled w settings name request (result, w')
  | storeFailed {action : StoreAction} {reason : String} {w' : Workbook}
      (fails : w.StoreFails name request action reason) (ready : w'.Ready settings) :
      Handled w settings name request (.error (.store action name reason), w')

/-- **A sheet can always be made** from what the store has. -/
theorem Ready.exists_has (hw : w.Ready settings) (name : String) : ∃ s, w.Has name s := by
  cases hloaded : w.loaded.get? name with
  | some s => exact ⟨s, Or.inl hloaded⟩
  | none =>
    obtain ⟨made, hmade⟩ := (Sheet.sound_empty name w.settings).exists_foldlM_absorb
      fun e he ↦ hw.settings_eq ▸ hw.stored name e.1 e.2 (OrderedMap.get?_eq_some_iff.mpr he)
    exact ⟨made, Or.inr ⟨hloaded, hmade⟩⟩

/-- There is a sheet to do something to, unless the store does not give out what it has. -/
theorem Ready.run_onSheet (hw : w.Ready settings) (name : String) (act : Action Sheet α) :
    (∃ reason, w.loaded.get? name = none ∧ w.store.load name = .error reason ∧
      (onSheet name act).run w = (.error (.store .load name reason), w.forget name)) ∨
    ∃ s w', w.Gets name s ∧ (onSheet name act).run w = ((act.run s).1, w') ∧
      Changed w w' name (act.run s).2 (w.store.cells name) ∧ w'.store = w.store := by
  cases hload : w.store.load name with
  | error reason =>
    cases hloaded : w.loaded.get? name with
    | some s =>
      have hnot : w.loaded.get? name ≠ none := by simp [hloaded]
      have hhas : w.Has name s := Or.inl hloaded
      obtain ⟨w', hrun⟩ := hhas.run_onSheet_of_load (fun hnone ↦ absurd hnone hnot) act
      exact Or.inr ⟨s, w', ⟨hhas, fun hnone ↦ absurd hnone hnot⟩, hrun⟩
    | none =>
      refine Or.inl ⟨reason, rfl, rfl, ?_⟩
      rw [Workbook.run_onSheet, Workbook.run_sheet, hloaded, hload]
  | ok entries =>
    obtain ⟨hup, rfl⟩ := Store.attempt_eq_ok_iff.mp hload
    obtain ⟨s, hhas⟩ := hw.exists_has name
    obtain ⟨w', hrun⟩ := hhas.run_onSheet_of_load (fun _ ↦ hload) act
    exact Or.inr ⟨s, w', ⟨hhas, fun _ ↦ hup⟩, hrun⟩

/-- An edit is saved, or the store fails and the sheet is forgotten. -/
theorem Ready.handled_edit (hw : w.Ready settings) (name : String) {act : Action Sheet Updates}
    (htarget : request.target? = some cell)
    (hanswer : Sheet.answer request = act >>= fun updates ↦ pure (.updates updates))
    (houtcome : ∀ s : Sheet, s.Sound → Sheet.EditOutcome s cell (act.run s)) :
    Handled w settings name request
      ((edit name cell act >>= fun updates ↦ pure (.updates updates)).run w) := by
  rw [Action.run_bind_pure, edit, Action.run_bind]
  rcases hw.run_onSheet name act with
    ⟨reason, hnone, hfails, hrun⟩ | ⟨s, w', hgets, hrun, hchanged, hstore⟩
  · rw [hrun]
    exact .storeFailed (.load hnone hfails) (hw.forget name)
  · obtain ⟨hs, hsettings⟩ := hw.sound hgets.1
    have hanswered := Action.run_bind_pure Answer.updates act s
    rw [← hanswer] at hanswered
    have hedit := houtcome s hs
    rw [hrun]
    generalize act.run s = outcome at hedit hchanged hanswered ⊢
    cases hedit with
    | failed fault =>
      exact .answered hgets hanswered (hchanged.ready hw hs hsettings (hw.stored name))
    | @edited p id expr updates t hnames hid hedited =>
      dsimp only at hchanged hanswered ⊢
      have hsound : Sheet.Sound { s with table := t } := hedited.sound
      have hloaded : w'.loaded.get? name = some { s with table := t } := by
        rw [hchanged.loaded, if_pos rfl]
      rw [Action.run_bind, Workbook.run_writeThrough hloaded hnames hid]
      generalize hwrite : (if (t.text id).isEmpty then w'.store.remove name id
        else w'.store.set name id (t.text id)) = outcome
      cases outcome with
      | error reason =>
        have hready := hchanged.ready hw hsound hsettings (hw.stored name)
        have hheld : (w'.hold name { s with table := t }).Ready settings :=
          (Changed.hold w' name _).ready hready hsound hsettings (hready.stored name)
        rw [hstore] at hwrite
        exact .storeFailed (.save hgets hanswered htarget hnames hid hwrite) (hheld.forget name)
      | ok store =>
        have hself : t.text id = expr := (hedited.text id).trans (if_pos rfl)
        have hwritten := hchanged.written hwrite
        rw [hself] at hwritten
        exact .answered hgets hanswered (hwritten.ready hw hsound hsettings
          (hw.reportable_written hsettings hedited))

theorem Ready.handled_look (hw : w.Ready settings) (name : String) {look : Sheet → Except Fault α}
    {g : α → Answer}
    (hanswer : Sheet.answer request = Action.query look >>= fun a ↦ pure (g a)) :
    Handled w settings name request
      ((onSheet name (Action.query look) >>= fun a ↦ pure (g a)).run w) := by
  rw [Action.run_bind_pure]
  rcases hw.run_onSheet name (Action.query look) with
    ⟨reason, hnone, hfails, hrun⟩ | ⟨s, w', hgets, hrun, hchanged, -⟩
  · rw [hrun]
    exact .storeFailed (.load hnone hfails) (hw.forget name)
  · obtain ⟨hs, hsettings⟩ := hw.sound hgets.1
    have hanswered := Action.run_bind_pure g (Action.query look) s
    rw [← hanswer] at hanswered
    rw [hrun]
    exact .answered hgets hanswered (hchanged.ready hw hs hsettings (hw.stored name))

/-- **A request comes to what the sheet answers, or a method of the store fails.** Either way the
workbook is ready for the next one. -/
theorem Ready.handled (hw : w.Ready settings) (name : String) (request : Request) :
    Handled w settings name request ((carryOut name request).run w) := by
  cases request with
  | evaluate cell expr =>
    exact hw.handled_edit name rfl rfl fun s hs ↦ Sheet.outcome_evaluate hs cell expr
  | remove cell => exact hw.handled_edit name rfl rfl fun s hs ↦ Sheet.outcome_remove hs cell
  | copy source target =>
    exact hw.handled_edit name rfl rfl fun s hs ↦ Sheet.outcome_copy hs source target
  | query cell => exact hw.handled_look name rfl
  | clear =>
    rw [carryOut, Action.run_bind]
    rcases hw.run_onSheet name Sheet.clear with
      ⟨reason, hnone, hfails, hrun⟩ | ⟨s, w', hgets, hrun, hchanged, hstore⟩
    · rw [hrun]
      exact .storeFailed (.load hnone hfails) (hw.forget name)
    · obtain ⟨-, hsettings⟩ := hw.sound hgets.1
      have hempty : Sheet.Sound { s with table := ∅ } := Table.sound_empty s.settings
      rw [hrun]
      change Handled w settings name .clear
        (((changeStore .clear name (·.clear name)) >>= fun _ ↦ pure .nothing).run w')
      rw [Action.run_bind, run_changeStore]
      cases hclear : w'.store.clear name with
      | error reason =>
        have hready := hchanged.ready hw hempty hsettings (hw.stored name)
        rw [hstore] at hclear
        exact .storeFailed (.clear hgets rfl hclear) (hready.forget name)
      | ok store =>
        have hready := (hchanged.cleared hclear).ready hw hempty hsettings fun _ _ hget ↦ by
          cases hget
        exact .answered hgets rfl hready
  | dump => exact hw.handled_look name rfl
  | dumpValues => exact hw.handled_look name rfl

theorem Handled.ready {outcome : Except Fault Answer × Workbook}
    (h : Handled w settings name request outcome) : outcome.2.Ready settings := by
  cases h with
  | answered gets ran ready => exact ready
  | storeFailed fails ready => exact ready

/-! ## Runs -/

theorem ready_overStore {store : Store} (hshort : store.Short) (settings : Settings) :
    (overStore settings store).Ready settings where
  settings_eq := rfl
  loaded _ _ hs := by cases hs
  stored name cell expr hget fault haccept := by
    obtain ⟨hcell, hexpr⟩ := hshort name cell expr hget
    rcases Settings.fault_of_accept haccept with ⟨cause, rfl⟩ | hlong | hlong
    · rfl
    · exact absurd hlong hcell
    · exact absurd hlong hexpr

/-- **An event leaves a workbook ready.** -/
theorem Ready.react (hw : w.Ready settings) (event : Event) : (w.react event).2.Ready settings := by
  cases event with
  | request name request =>
    change ((perform name request).run w).2.Ready settings
    rw [run_perform]
    exact (hw.handled name request).ready
  | restart => exact ⟨hw.settings_eq, fun _ _ hs ↦ (by cases hs), hw.stored⟩
  | outage method reason => exact ⟨hw.settings_eq, hw.loaded, hw.stored⟩

theorem Ready.through (hw : w.Ready settings) (events : List Event) :
    (w.through events).Ready settings := by
  induction events generalizing w with
  | nil => exact hw
  | cons event rest ih => exact ih (hw.react event)

/-- A reply that refuses a request is in order: it has one of the codes that callers know, and
blames the store only for a failure of the store. -/
structure Justified (w : Workbook) (name : String) (request : Request) (report : Report) :
    Prop where
  code : report.code = Code.malformed.text ∨ report.code = Code.circular.text ∨
    report.code = Code.store.text
  blame : report.code = Code.store.text → ∃ action reason,
    w.StoreFails name request action reason ∧
      report.message = (Fault.store action name reason).message

theorem exists_report_of_refusal {fault : Fault} (h : fault.Refusal) (w : Workbook) (name : String)
    (request : Request) :
    ∃ report, fault.report? = some report ∧ w.Justified name request report := by
  cases h with
  | malformed cause =>
    have hne : Code.malformed.text ≠ Code.store.text := by decide
    exact ⟨_, rfl, Or.inl rfl, fun hcode ↦ absurd hcode hne⟩
  | circular cause =>
    have hne : Code.circular.text ≠ Code.store.text := by decide
    exact ⟨_, rfl, Or.inr (Or.inl rfl), fun hcode ↦ absurd hcode hne⟩

theorem reported_of_report? {fault : Fault} {report : Report} (h : fault.report? = some report) :
    (reported (.error fault) : Except Fault (Reply α)) = .ok (.failed report) := by
  unfold reported
  dsimp only
  rw [h]

theorem Ready.exists_justified (hw : w.Ready settings) (hmodest : settings.Modest) (name : String)
    (hshort : request.Short) : ∃ reply, ((perform name request).run w).1 = .ok reply ∧
      ∀ report, reply = .failed report → w.Justified name request report := by
  have hhandled := hw.handled name request
  rw [run_perform]
  generalize (carryOut name request).run w = outcome at hhandled ⊢
  cases hhandled with
  | @answered s s' result w' gets ran ready =>
    obtain ⟨hs, hsettings⟩ := hw.sound gets.1
    cases result with
    | ok value => exact ⟨.done value, rfl, nofun⟩
    | error fault =>
      have hrefusal := Sheet.refusal_of_answer hs (hsettings ▸ hmodest) hshort
        (congrArg Prod.fst ran)
      obtain ⟨report, hreport, hjustified⟩ := exists_report_of_refusal hrefusal w name request
      refine ⟨.failed report, reported_of_report? hreport, fun report' heq ↦ ?_⟩
      cases heq
      exact hjustified
  | storeFailed fails ready =>
    refine ⟨.failed _, rfl, fun report heq ↦ ?_⟩
    cases heq
    exact ⟨Or.inr (Or.inr rfl), fun _ ↦ ⟨_, _, fails, rfl⟩⟩

/-- **Every request is answered.** A workbook starts with the usual settings over a store
with any texts, and any requests, restarts and failures of the store go before. The next
request gets a reply. If it is refused, the code is that of a malformed text, of a circular
reference or of the store, and that of the store only if a method of the store fails while
the request is carried out. -/
theorem exists_reply (store : Store) (hstore : store.Short) (events : List Event) (name : String)
    (request : Request) (hrequest : request.Short) :
    let w := (overStore .standard store).through events
    ∃ reply, ((perform name request).run w).1 = .ok reply ∧
      ∀ report, reply = .failed report → w.Justified name request report := by
  intro w
  have hready : w.Ready .standard := (ready_overStore hstore .standard).through events
  exact hready.exists_justified Settings.modest_standard name hrequest

/-- The store has a text under no cell, and its disk is full when an edit is to be saved. -/
theorem exists_reply_full :
    let store : Store :=
      { sheets := (∅ : OrderedMap String (OrderedMap String String)).insert "s"
          ((∅ : OrderedMap String String).insert "7x" "b1 +") }
    let w := (overStore .standard store).through
      [.request "s" (.evaluate "a1" "7"), .outage .set (some "disk full"), .restart]
    ∃ report, ((perform "s" (.evaluate "B2" "a1*2")).run w).1 = .ok (.failed report) ∧
      report.code = "STORE" ∧ ∃ action reason,
        w.StoreFails "s" (.evaluate "B2" "a1*2") action reason ∧
          report.message = (Fault.store action "s" reason).message := by
  intro store w
  have hshort {text : String} (h : text.toList.length ≤ maxDigits) : ¬ HasLongRun text.toList :=
    Numeral.not_hasLongRun_of_length_le h
  have hstore : store.Short := by
    intro name cell expr hget
    rw [Store.cells, OrderedMap.get?_insert] at hget
    split at hget
    · obtain ⟨rfl, rfl⟩ : cell = "7x" ∧ expr = "b1 +" := by
        simpa using List.mem_singleton.mp (OrderedMap.get?_eq_some_iff.mp hget)
      exact ⟨hshort (by decide), hshort (by decide)⟩
    · cases hget
  have hrequest : Request.Short (.evaluate "B2" "a1*2") := by
    intro text htext
    rcases List.mem_pair.mp htext with rfl | rfl
    · exact hshort (by decide)
    · exact hshort (by decide)
  obtain ⟨reply, hreply, hjustified⟩ := exists_reply store hstore
    [.request "s" (.evaluate "a1" "7"), .outage .set (some "disk full"), .restart] "s"
    (.evaluate "B2" "a1*2") hrequest
  have hrun : ((perform "s" (.evaluate "B2" "a1*2")).run w).1
      = .ok (.failed ⟨"STORE", "cannot save spreadsheet 's': disk full"⟩) := by decide +kernel
  rw [hrun, Except.ok.injEq] at hreply
  exact ⟨_, hrun, rfl, (hjustified _ hreply.symm).blame rfl⟩

end Workbook

end Spreadsheet
