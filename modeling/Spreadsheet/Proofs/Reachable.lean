import Spreadsheet.Proofs.Editing
import Spreadsheet.Workbook

/-!
# Reachable sheets

Every edit of a sound sheet either fails and leaves the sheet alone, or gives one cell a new text
and leaves the sheet sound (`EditOutcome`). So whatever a sheet is asked to do, in whatever order
and with whatever texts, it stays sound.

What a sheet answers to a request is `answer`. It is what a workbook answers as well, as long as its
store does not fail, and the sheets that requests lead to are those that `after` gives.
-/

namespace Spreadsheet

open Text Numeral Workbook

/-! ## Letting formulas through -/

namespace Settings

variable {s : Settings} {cell expr id : String} {f : Formula} {base : Position} {fault : Fault}

/-- What `Sheet.evaluate` does before it looks at the table: it finds the cell, reads the formula
and checks what it references. -/
def accept (s : Settings) (cell expr : String) : Except Fault (String × Formula × Position) := do
  let base ← s.locate cell
  let f ← Formula.read (strip expr) base
  s.checkReferences f base
  return (← base.id, f, base)

theorem accept_eq_ok_iff : s.accept cell expr = .ok (id, f, base) ↔
    s.Names cell base ∧ s.Accepts id (strip expr) f base := by
  constructor
  · intro h
    obtain ⟨base', hlocate, h⟩ := Outcome.bind_eq_ok_iff.mp h
    obtain ⟨f', hread, h⟩ := Outcome.bind_eq_ok_iff.mp h
    obtain ⟨_, hcheck, h⟩ := Outcome.bind_eq_ok_iff.mp h
    obtain ⟨id', hid, h⟩ := Outcome.bind_eq_ok_iff.mp h
    cases h
    have hnames := locate_eq_ok_iff.mp hlocate
    exact ⟨hnames, hid, hnames.inBounds, strip_strip expr, hread,
      (checkReferences_eq_ok_iff (Formula.wellRead_of_read hread)).mp hcheck⟩
  · rintro ⟨hnames, hacc⟩
    rw [accept, locate_eq_ok_iff.mpr hnames, Outcome.ok_bind, hacc.read_eq, Outcome.ok_bind,
      (checkReferences_eq_ok_iff hacc.wellRead).mpr hacc.covers, Outcome.ok_bind, hacc.id_eq]
    rfl

theorem fault_of_accept (h : s.accept cell expr = .error fault) :
    (∃ cause, fault = .malformed cause) ∨ HasLongRun cell.toList ∨ HasLongRun expr.toList := by
  rcases Outcome.bind_eq_error_iff.mp h with hlocate | ⟨base, hlocate, h⟩
  · exact (fault_of_locate hlocate).imp_right Or.inl
  rcases Outcome.bind_eq_error_iff.mp h with hread | ⟨f, hread, h⟩
  · rw [Formula.read_strip] at hread
    exact (Formula.fault_of_read hread).imp_right Or.inr
  rcases Outcome.bind_eq_error_iff.mp h with hcheck | ⟨_, -, h⟩
  · exact Or.inl (fault_of_checkReferences (Formula.wellRead_of_read hread) hcheck)
  rcases Outcome.bind_eq_error_iff.mp h with hid | ⟨_, -, h⟩
  · obtain ⟨id, hok⟩ := (locate_eq_ok_iff.mp hlocate).named.exists_id
    rw [hok] at hid
    cases hid
  · cases h

end Settings

namespace Sheet

variable {s u : Sheet} {cell expr id : String} {f : Formula} {base p : Position} {fault : Fault}
  {updates : Updates}

/-- The invariant of a sheet. -/
def Sound (s : Sheet) : Prop := s.table.Sound s.settings

theorem sound_empty (name : String) (settings : Settings) : (empty name settings).Sound :=
  Table.sound_empty settings

/-! ## Edits as runs on the table -/

theorem run_apply (id expr : String) (f : Formula) (base : Position) (s : Sheet) :
    (apply id expr f base).run s = match (Table.put id expr f base).run s.table with
      | (.ok updates, t) => (.ok updates, { s with table := t })
      | (.error fault, _) => (.error fault, s) := by
  change (Action.atomically (onTable (Table.put id expr f base))).run s = _
  rw [Action.run_atomically, onTable, Action.run_zoom]
  obtain ⟨_ | updates, t⟩ := (Table.put id expr f base).run s.table <;> rfl

theorem run_evaluate (cell expr : String) (s : Sheet) :
    (evaluate cell expr).run s = match s.settings.accept cell expr with
      | .ok (id, f, base) => (apply id (strip expr) f base).run s
      | .error fault => (.error fault, s) := by
  have hevaluate : evaluate cell expr = Action.query (·.settings.accept cell expr) >>=
      fun a ↦ apply a.1 (strip expr) a.2.1 a.2.2 := rfl
  rw [hevaluate, Action.run_query_bind]
  cases s.settings.accept cell expr <;> rfl

theorem run_remove (cell : String) (s : Sheet) :
    (remove cell).run s = match s.settings.locate cell >>= Position.id with
      | .ok id =>
        if s.table.contains id then (Action.atomically (onTable (vacate id))).run s
        else (.ok [(id, 0.0)], s)
      | .error fault => (.error fault, s) := by
  rw [remove, Action.run_query_bind]
  cases s.settings.locate cell >>= Position.id with
  | error fault => rfl
  | ok id =>
    simp only [Action.run_bind, Action.run_get]
    split <;> rfl

/-- The cell that `copy` writes to, with the text that it writes. -/
def copied (s : Sheet) (source target : String) : Except Fault (String × Option String) := do
  let source ← s.settings.locate source
  let target ← s.settings.locate target
  match s.table.formula? (← source.id) with
  | none => return (← target.id, none)
  | some f => return (← target.id, some (← f.write target))

theorem run_copy (source target : String) (s : Sheet) :
    (copy source target).run s = match s.copied source target with
      | .ok (id, none) => (remove id).run s
      | .ok (id, some expr) => (evaluate id expr).run s
      | .error fault => (.error fault, s) := by
  have hcopy : copy source target = Action.query (·.copied source target) >>=
      fun a ↦ a.2.elim (remove a.1) (evaluate a.1) := by
    refine congrArg₂ (· >>= ·) rfl (funext fun ⟨id, expr⟩ ↦ ?_)
    cases expr <;> rfl
  rw [hcopy, Action.run_query_bind]
  cases s.copied source target with
  | error fault => rfl
  | ok result =>
    obtain ⟨id, _ | expr⟩ := result <;> rfl

/-! ## What comes of an edit -/

/-- What an edit of a cell can come to: a fault that leaves the sheet alone, or a new text for the
cell, with everything that follows from it. -/
inductive EditOutcome (s : Sheet) (cell : String) : Except Fault Updates × Sheet → Prop
  | failed (fault : Fault) : EditOutcome s cell (.error fault, s)
  | edited {p : Position} {id expr : String} {updates : Updates} {t : Table}
      (names : s.settings.Names cell p) (id_eq : p.id = .ok id)
      (edited : s.table.Edited t s.settings id expr updates) :
      EditOutcome s cell (.ok updates, { s with table := t })

theorem run_evaluate_of_closes (hs : s.Sound)
    (haccept : s.settings.accept cell expr = .ok (id, f, base))
    (hcloses : s.table.Closes id f base) :
    ∃ cause, (evaluate cell expr).run s = (.error (.circular cause), s) := by
  obtain ⟨-, hacc⟩ := Settings.accept_eq_ok_iff.mp haccept
  obtain ⟨cause, v, hput⟩ := Table.run_put_of_closes hs hacc hcloses
  refine ⟨cause, ?_⟩
  rw [run_evaluate, haccept]
  simp only
  rw [run_apply, hput]

theorem exists_evaluate (hs : s.Sound)
    (haccept : s.settings.accept cell expr = .ok (id, f, base))
    (hno : ¬ s.table.Closes id f base) :
    ∃ updates t, (evaluate cell expr).run s = (.ok updates, { s with table := t }) ∧
      s.table.Edited t s.settings id (strip expr) updates := by
  obtain ⟨-, hacc⟩ := Settings.accept_eq_ok_iff.mp haccept
  obtain ⟨updates, v, hput, hedited⟩ := Table.exists_put hs hacc hno
  refine ⟨updates, v, ?_, hedited⟩
  rw [run_evaluate, haccept]
  simp only
  rw [run_apply, hput]

theorem outcome_evaluate (hs : s.Sound) (cell expr : String) :
    EditOutcome s cell ((evaluate cell expr).run s) := by
  cases haccept : s.settings.accept cell expr with
  | error fault =>
    rw [run_evaluate, haccept]
    exact .failed fault
  | ok result =>
    obtain ⟨id, f, base⟩ := result
    obtain ⟨hnames, hacc⟩ := Settings.accept_eq_ok_iff.mp haccept
    by_cases hcloses : s.table.Closes id f base
    · obtain ⟨cause, hrun⟩ := run_evaluate_of_closes hs haccept hcloses
      rw [hrun]
      exact .failed _
    · obtain ⟨updates, t, hrun, hedited⟩ := exists_evaluate hs haccept hcloses
      rw [hrun]
      exact .edited hnames hacc.id_eq hedited

/-- A cell without a record is as empty as an edit can make it. -/
theorem edited_of_not_contains (hs : s.Sound) (hnot : s.table.contains id = false) :
    s.table.Edited s.table s.settings id "" [(id, 0.0)] := by
  have hmem : id ∉ s.table.ids := fun hmem ↦ by
    rw [OrderedMap.contains_iff.mpr hmem] at hnot
    cases hnot
  have hrecord := Table.record_of_not_mem hmem
  have hvalue : s.table.valueOf id = 0.0 := by
    rw [← Table.record_value, hrecord]
    rfl
  refine ⟨hs, fun x ↦ ?_, [], ?_, ?_⟩
  · split
    · rename_i hx
      rw [Table.text, hx, hrecord]
      rfl
    · rfl
  · exact Table.Sound.affected_of_not_mem hs hmem
  · rw [List.map_singleton, hvalue]

/-- **A formula can always be taken out.** -/
theorem exists_remove (hs : s.Sound) (hnames : s.settings.Names cell p) (hid : p.id = .ok id) :
    ∃ updates t, (remove cell).run s = (.ok updates, { s with table := t }) ∧
      s.table.Edited t s.settings id "" updates := by
  have hlocate : (s.settings.locate cell >>= Position.id) = .ok id := by
    rw [Settings.locate_eq_ok_iff.mpr hnames, Outcome.ok_bind, hid]
  rw [run_remove, hlocate]
  dsimp only
  by_cases hcontains : s.table.contains id = true
  · obtain ⟨updates, v, hvacate, hedited⟩ := Table.exists_vacate hs id
    refine ⟨updates, v, ?_, hedited⟩
    rw [if_pos hcontains, Action.run_atomically, onTable, Action.run_zoom, hvacate]
  · rw [if_neg hcontains]
    exact ⟨_, s.table, rfl, edited_of_not_contains hs (Bool.eq_false_iff.mpr hcontains)⟩

theorem outcome_remove (hs : s.Sound) (cell : String) :
    EditOutcome s cell ((remove cell).run s) := by
  cases hlocate : s.settings.locate cell with
  | error fault =>
    rw [run_remove, hlocate]
    exact .failed fault
  | ok p =>
    have hnames := Settings.locate_eq_ok_iff.mp hlocate
    obtain ⟨id, hid⟩ := hnames.named.exists_id
    obtain ⟨updates, t, hrun, hedited⟩ := exists_remove hs hnames hid
    rw [hrun]
    exact .edited hnames hid hedited

theorem EditOutcome.of_id {result : Except Fault Updates × Sheet} (h : EditOutcome s id result)
    (hnames : s.settings.Names cell p) (hid : p.id = .ok id) : EditOutcome s cell result := by
  cases h with
  | failed fault => exact .failed fault
  | edited names id_eq edited =>
    cases names.eq_of_id hid
    exact .edited hnames id_eq edited

theorem copied_eq_ok {source target : String} {expr : Option String}
    (h : s.copied source target = .ok (id, expr)) :
    ∃ p, s.settings.Names target p ∧ p.id = .ok id := by
  obtain ⟨p, -, h⟩ := Outcome.bind_eq_ok_iff.mp h
  obtain ⟨q, hq, h⟩ := Outcome.bind_eq_ok_iff.mp h
  obtain ⟨sourceId, -, h⟩ := Outcome.bind_eq_ok_iff.mp h
  refine ⟨q, Settings.locate_eq_ok_iff.mp hq, ?_⟩
  split at h
  · obtain ⟨_, hid, h⟩ := Outcome.bind_eq_ok_iff.mp h
    cases h
    exact hid
  · obtain ⟨_, hid, h⟩ := Outcome.bind_eq_ok_iff.mp h
    obtain ⟨_, -, h⟩ := Outcome.bind_eq_ok_iff.mp h
    cases h
    exact hid

theorem outcome_copy (hs : s.Sound) (source target : String) :
    EditOutcome s target ((copy source target).run s) := by
  rw [run_copy]
  split
  · rename_i id hcopied
    obtain ⟨p, hnames, hid⟩ := copied_eq_ok hcopied
    exact (outcome_remove hs id).of_id hnames hid
  · rename_i id expr hcopied
    obtain ⟨p, hnames, hid⟩ := copied_eq_ok hcopied
    exact (outcome_evaluate hs id expr).of_id hnames hid
  · exact .failed _

/-! ## Requests -/

/-- What a sheet answers to a request. -/
def answer : Request → Action Sheet Answer
  | .evaluate cell expr => return .updates (← evaluate cell expr)
  | .remove cell => return .updates (← remove cell)
  | .copy source target => return .updates (← copy source target)
  | .query cell => return .view (← Action.query (·.view cell))
  | .clear => do
    clear
    return .nothing
  | .dump => return .entries (← Action.query (·.dump))
  | .dumpValues => return .values (← Action.query (·.dumpValues))

/-- The sheet after requests, answered one after the other, whether they fail or not. -/
def after (s : Sheet) (requests : List Request) : Sheet :=
  requests.foldl (fun s request ↦ ((answer request).run s).2) s

theorem EditOutcome.sound (hs : s.Sound) {result : Except Fault Updates × Sheet}
    (h : EditOutcome s cell result) : result.2.Sound ∧ result.2.settings = s.settings := by
  cases h with
  | failed fault => exact ⟨hs, rfl⟩
  | edited names id_eq edited => exact ⟨edited.sound, rfl⟩

/-- What can become of a sheet that is asked for something: it is as it was, an edit has been made,
or it is empty. Only what does not fail makes a difference. -/
inductive AnswerOutcome (s : Sheet) : Except Fault Answer × Sheet → Prop
  | kept (result : Except Fault Answer) : AnswerOutcome s (result, s)
  | edited {id expr : String} {updates : Updates} {t : Table}
      (edited : s.table.Edited t s.settings id expr updates) :
      AnswerOutcome s (.ok (.updates updates), { s with table := t })
  | cleared : AnswerOutcome s (.ok .nothing, { s with table := ∅ })

theorem EditOutcome.answer {act : Action Sheet Updates} (h : EditOutcome s cell (act.run s)) :
    AnswerOutcome s ((act >>= fun updates ↦ pure (Answer.updates updates)).run s) := by
  rw [Action.run_bind_pure]
  generalize act.run s = outcome at h
  cases h with
  | failed fault => exact .kept (.error fault)
  | edited names id_eq edited => exact .edited edited

theorem outcome_answer (hs : s.Sound) (request : Request) :
    AnswerOutcome s ((answer request).run s) := by
  cases request with
  | evaluate cell expr => exact (outcome_evaluate hs cell expr).answer
  | remove cell => exact (outcome_remove hs cell).answer
  | copy source target => exact (outcome_copy hs source target).answer
  | query cell =>
    rw [answer, Action.run_bind_pure]
    exact .kept _
  | clear => exact .cleared
  | dump =>
    rw [answer, Action.run_bind_pure]
    exact .kept _
  | dumpValues =>
    rw [answer, Action.run_bind_pure]
    exact .kept _

/-- **A request keeps a sheet sound.** -/
theorem Sound.answer (hs : s.Sound) (request : Request) :
    ((answer request).run s).2.Sound ∧ ((answer request).run s).2.settings = s.settings := by
  have houtcome := outcome_answer hs request
  generalize (Sheet.answer request).run s = outcome at houtcome ⊢
  cases houtcome with
  | kept result => exact ⟨hs, rfl⟩
  | edited edited => exact ⟨edited.sound, rfl⟩
  | cleared => exact ⟨Table.sound_empty s.settings, rfl⟩

theorem state_eq_of_answer (hs : s.Sound) {request : Request}
    (h : ((answer request).run s).1 = .error fault) : ((answer request).run s).2 = s := by
  have houtcome := outcome_answer hs request
  generalize (answer request).run s = outcome at houtcome h ⊢
  cases houtcome with
  | kept result => rfl
  | edited edited => cases h
  | cleared => cases h

theorem Sound.after (hs : s.Sound) (requests : List Request) :
    (s.after requests).Sound ∧ (s.after requests).settings = s.settings := by
  induction requests generalizing s with
  | nil => exact ⟨hs, rfl⟩
  | cons request rest ih =>
    obtain ⟨hsound, hsettings⟩ := hs.answer request
    obtain ⟨hrest, hkept⟩ := ih hsound
    exact ⟨hrest, hkept.trans hsettings⟩

/-- **Every reachable sheet is sound**: keys, texts, edges and values are in step after any requests
with any texts, whether they fail or not. -/
theorem sound_of_requests (name : String) (settings : Settings) (requests : List Request) :
    ((empty name settings).after requests).table.Sound settings := by
  obtain ⟨hsound, hsettings⟩ := (sound_empty name settings).after requests
  rw [Sound, hsettings] at hsound
  exact hsound

end Sheet

end Spreadsheet
