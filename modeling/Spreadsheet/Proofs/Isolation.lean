import Spreadsheet.Proofs.Refinement

/-!
# Sheets do not interfere

All sheets of a workbook share one store and one memory, and a request may load a sheet, hold it,
write it through, clear it or forget it. It does all of this to its own sheet. So a sheet cannot
tell which requests are made on the others: strike them from a run, and every request that is left
gets the reply it got before, and finds and leaves its sheet as before, in memory and in the store.

Two workbooks are the same at a sheet if they agree on what a request on it can see: the
settings, which methods of the store are out of order, the sheet in memory and its stored texts.
An action is local to a sheet if it cannot tell such workbooks apart and changes nothing that a
request on another sheet can see. The parts that requests are made of are local, and so is what
is put together from them.
-/

namespace Spreadsheet

/-! ## Stores that are the same at a sheet -/

namespace Store

variable {s t : Store} {name other : String}

/-- Two stores agree on what they have for a sheet, and fail alike. -/
structure SameAt (s t : Store) (name : String) : Prop where
  outage : s.outage = t.outage
  sheet : s.sheets.get? name = t.sheets.get? name

namespace SameAt

theorem refl (s : Store) (name : String) : s.SameAt s name := ⟨rfl, rfl⟩

theorem cells (h : s.SameAt t name) : s.cells name = t.cells name := by
  rw [Store.cells, Store.cells, h.sheet]

theorem load (h : s.SameAt t name) : s.load name = t.load name := by
  rw [Store.load, Store.load, attempt, attempt, h.outage, h.cells]

end SameAt

/-- A change of a store that is local to a sheet: it depends on nothing that the store has for other
sheets, and leaves that as it is. -/
structure Local (name : String) (change : Store → Except String Store) : Prop where
  depends : ∀ {s t : Store}, s.SameAt t name →
    (∃ reason, change s = .error reason ∧ change t = .error reason) ∨
      ∃ s' t', change s = .ok s' ∧ change t = .ok t' ∧ s'.SameAt t' name
  spares : ∀ {s s' : Store} {other : String}, other ≠ name → change s = .ok s' → s.SameAt s' other

theorem local_attempt (method : StoreMethod)
    (change : OrderedMap String (OrderedMap String String) →
      OrderedMap String (OrderedMap String String))
    (hdepends : ∀ {sheets sheets' : OrderedMap String (OrderedMap String String)},
      sheets.get? name = sheets'.get? name → (change sheets).get? name = (change sheets').get? name)
    (hspares : ∀ {sheets : OrderedMap String (OrderedMap String String)} {other : String},
      other ≠ name → sheets.get? other = (change sheets).get? other) :
    Local name fun s ↦ s.attempt method { s with sheets := change s.sheets } where
  depends {s t} h := by
    have hsame :
        SameAt { s with sheets := change s.sheets } { t with sheets := change t.sheets } name :=
      ⟨h.outage, hdepends h.sheet⟩
    unfold attempt
    rw [h.outage] at hsame ⊢
    cases t.outage method with
    | some reason => exact Or.inl ⟨reason, rfl, rfl⟩
    | none => exact Or.inr ⟨_, _, rfl, rfl, hsame⟩
  spares hne h := by
    obtain ⟨-, rfl⟩ := attempt_eq_ok_iff.mp h
    exact ⟨rfl, hspares hne⟩

theorem local_set (name cell text : String) : Local name (·.set name cell text) := by
  refine local_attempt .set
    (fun sheets ↦ sheets.insert name (((sheets.get? name).getD ∅).insert cell text))
    (fun h ↦ ?_) fun hne ↦ ?_
  · rw [OrderedMap.get?_insert, OrderedMap.get?_insert, h]
  · rw [OrderedMap.get?_insert, if_neg hne]

theorem local_remove (name cell : String) : Local name (·.remove name cell) := by
  refine local_attempt .remove (·.modify name (·.erase cell)) (fun h ↦ ?_) fun hne ↦ ?_
  · rw [OrderedMap.get?_modify, OrderedMap.get?_modify, h]
  · rw [OrderedMap.get?_modify, if_neg hne]

theorem local_clear (name : String) : Local name (·.clear name) := by
  refine local_attempt .clear (·.erase name) (fun h ↦ ?_) fun hne ↦ ?_
  · rw [OrderedMap.get?_erase, OrderedMap.get?_erase, h]
  · rw [OrderedMap.get?_erase, if_neg hne]

end Store

namespace Workbook

variable {w v : Workbook} {name other : String} {α β : Type}

/-! ## Workbooks that are the same at a sheet -/

/-- Two workbooks agree on all that a request on a sheet can see. -/
structure SameAt (w v : Workbook) (name : String) : Prop where
  settings : w.settings = v.settings
  store : w.store.SameAt v.store name
  loaded : w.loaded.get? name = v.loaded.get? name

namespace SameAt

theorem refl (w : Workbook) (name : String) : w.SameAt w name := ⟨rfl, .refl .., rfl⟩

theorem symm (h : w.SameAt v name) : v.SameAt w name :=
  ⟨h.settings.symm, ⟨h.store.outage.symm, h.store.sheet.symm⟩, h.loaded.symm⟩

theorem trans {u : Workbook} (h : w.SameAt v name) (h' : v.SameAt u name) : w.SameAt u name :=
  ⟨h.settings.trans h'.settings,
    ⟨h.store.outage.trans h'.store.outage, h.store.sheet.trans h'.store.sheet⟩,
    h.loaded.trans h'.loaded⟩

theorem hold (h : w.SameAt v name) (s : Sheet) : (w.hold name s).SameAt (v.hold name s) name :=
  ⟨h.settings, h.store, by rw [get?_hold, get?_hold]⟩

theorem forget (h : w.SameAt v name) : (w.forget name).SameAt (v.forget name) name :=
  ⟨h.settings, h.store, by rw [get?_forget, get?_forget]⟩

end SameAt

theorem sameAt_hold (w : Workbook) (s : Sheet) (hne : other ≠ name) :
    w.SameAt (w.hold name s) other :=
  ⟨rfl, .refl .., by rw [hold, OrderedMap.get?_insert, if_neg hne]⟩

theorem sameAt_forget (w : Workbook) (hne : other ≠ name) : w.SameAt (w.forget name) other :=
  ⟨rfl, .refl .., by rw [forget, OrderedMap.get?_erase, if_neg hne]⟩

/-! ## Local actions -/

/-- An action is local to a sheet: its result and what it makes of the sheet depend only on what a
request on the sheet can see, and what a request on another sheet can see stays as it is. -/
structure Local (name : String) (act : Action Workbook α) : Prop where
  depends : ∀ {w v : Workbook}, w.SameAt v name →
    (act.run w).1 = (act.run v).1 ∧ (act.run w).2.SameAt (act.run v).2 name
  spares : ∀ (w : Workbook) {other : String}, other ≠ name → w.SameAt (act.run w).2 other

namespace Local

variable {act : Action Workbook α} {next : α → Action Workbook β}

theorem const (result : Except Fault α) : Local name (Action.query fun _ ↦ result) where
  depends h := ⟨rfl, h⟩
  spares _ _ _ := .refl ..

theorem pure (a : α) : Local name (Pure.pure a : Action Workbook α) := const (.ok a)

theorem throw (fault : Fault) : Local name (MonadExcept.throw fault : Action Workbook α) :=
  const (.error fault)

theorem hold (s : Sheet) : Local name (modify (·.hold name s) : Action Workbook PUnit) where
  depends h := ⟨rfl, h.hold s⟩
  spares w _ hne := sameAt_hold w s hne

theorem forget : Local name (modify (·.forget name) : Action Workbook PUnit) where
  depends h := ⟨rfl, h.forget⟩
  spares w _ hne := sameAt_forget w hne

theorem bind (hact : Local name act) (hnext : ∀ a, Local name (next a)) :
    Local name (act >>= next) where
  depends {w v} h := by
    obtain ⟨hresult, hsame⟩ := hact.depends h
    rw [Action.run_bind, Action.run_bind]
    generalize act.run w = outcome at hresult hsame ⊢
    generalize act.run v = outcome' at hresult hsame ⊢
    obtain ⟨result, w'⟩ := outcome
    obtain ⟨result', v'⟩ := outcome'
    obtain rfl : result = result' := hresult
    cases result with
    | ok a => exact (hnext a).depends hsame
    | error fault => exact ⟨rfl, hsame⟩
  spares w other hne := by
    have hspared := hact.spares w hne
    rw [Action.run_bind]
    generalize act.run w = outcome at hspared ⊢
    obtain ⟨result, w'⟩ := outcome
    cases result with
    | ok a => exact hspared.trans ((hnext a).spares w' hne)
    | error fault => exact hspared

theorem get_bind {next : Workbook → Action Workbook β}
    (hchoice : ∀ {w v : Workbook}, w.SameAt v name → next w = next v)
    (hnext : ∀ w, Local name (next w)) : Local name (get >>= next) where
  depends {w v} h := by
    rw [Action.run_bind, Action.run_bind, Action.run_get, Action.run_get]
    dsimp only
    rw [hchoice h]
    exact (hnext v).depends h
  spares w other hne := by
    rw [Action.run_bind, Action.run_get]
    exact (hnext w).spares w hne

theorem reporting (h : Local name act) : Local name (reporting act) where
  depends {w v} hsame := by
    obtain ⟨hresult, hsame'⟩ := h.depends hsame
    rw [run_reporting, run_reporting, hresult]
    exact ⟨rfl, hsame'⟩
  spares w other hne := by
    rw [run_reporting]
    exact h.spares w hne

end Local

/-! ## Requests are local -/

theorem local_storing (action : StoreAction) {use : Store → Except String α}
    (huse : ∀ {s t : Store}, s.SameAt t name → use s = use t) :
    Local name (storing action name use) := by
  refine .get_bind (fun h ↦ by rw [huse h.store]) fun w ↦ ?_
  cases use w.store with
  | ok result => exact .pure result
  | error reason => exact .bind .forget fun _ ↦ .throw _

/-- A change of the store is as local as the method it uses. What it stores in two workbooks is not
the same store, which is why this is no `Local.bind`. -/
theorem local_changeStore (action : StoreAction) {change : Store → Except String Store}
    (hchange : Store.Local name change) : Local name (changeStore action name change) where
  depends {w v} h := by
    rw [run_changeStore, run_changeStore]
    rcases hchange.depends h.store with ⟨reason, hw, hv⟩ | ⟨s, t, hw, hv, hsame⟩
    · rw [hw, hv]
      exact ⟨rfl, h.forget⟩
    · rw [hw, hv]
      exact ⟨rfl, h.settings, hsame, h.loaded⟩
  spares w other hne := by
    rw [run_changeStore]
    cases hrun : change w.store with
    | ok store => exact ⟨rfl, hchange.spares hne hrun, rfl⟩
    | error reason => exact sameAt_forget w hne

theorem local_sheet (name : String) : Local name (sheet name) := by
  refine .get_bind (fun h ↦ by rw [h.loaded, h.settings]) fun w ↦ ?_
  cases w.loaded.get? name with
  | some s => exact .pure s
  | none =>
    exact .bind (local_storing .load Store.SameAt.load) fun entries ↦
      .bind (.const _) fun made ↦ .bind (.hold made) fun _ ↦ .pure made

theorem local_onSheet (name : String) (act : Action Sheet α) : Local name (onSheet name act) :=
  .bind (local_sheet name) fun s ↦ .bind (.hold (act.run s).2) fun _ ↦ .const (act.run s).1

theorem local_writeThrough (name cell : String) : Local name (writeThrough name cell) := by
  refine .bind (.const _) fun id ↦ .bind (local_onSheet ..) fun view ↦ local_changeStore .save ?_
  split
  · exact Store.local_remove name id
  · exact Store.local_set name id view.expr

theorem local_edit (name cell : String) (act : Action Sheet α) : Local name (edit name cell act) :=
  .bind (local_onSheet name act) fun updates ↦
    .bind (local_writeThrough name cell) fun _ ↦ .pure updates

/-- **A request is local to its sheet**, whatever comes of it. -/
theorem local_perform (name : String) (request : Request) : Local name (perform name request) := by
  refine .reporting ?_
  cases request with
  | evaluate cell expr => exact .bind (local_edit ..) fun _ ↦ .pure _
  | remove cell => exact .bind (local_edit ..) fun _ ↦ .pure _
  | copy source target => exact .bind (local_edit ..) fun _ ↦ .pure _
  | query cell => exact .bind (local_onSheet ..) fun _ ↦ .pure _
  | clear =>
    exact .bind (local_onSheet ..) fun _ ↦
      .bind (local_changeStore .clear (Store.local_clear name)) fun _ ↦ .pure _
  | dump => exact .bind (local_onSheet ..) fun _ ↦ .pure _
  | dumpValues => exact .bind (local_onSheet ..) fun _ ↦ .pure _

/-! ## Runs -/

/-- What becomes of a workbook in an event, with the reply if the event is a request. -/
def react (w : Workbook) : Event → Option (Except Fault (Reply Answer)) × Workbook
  | .request name request =>
    let (reply, w') := (perform name request).run w
    (some reply, w')
  | .restart => (none, w.restarted)
  | .outage method reason => (none, { w with store := w.store.withOutage method reason })

/-- The workbook after events. -/
def through (w : Workbook) (events : List Event) : Workbook :=
  events.foldl (fun w event ↦ (w.react event).2) w

/-- An event with what a workbook replied to it and what it became. -/
structure Moment where
  event : Event
  reply : Option (Except Fault (Reply Answer))
  workbook : Workbook

/-- The moments of a run, from the first to the last. -/
def history (w : Workbook) : List Event → List Moment
  | [] => []
  | event :: rest => ⟨event, (w.react event).1, (w.react event).2⟩ :: (w.react event).2.history rest

/-- An event that is about a sheet: a request on it, and everything that is about the store as a
whole. -/
def Event.concerns (name : String) : Event → Bool
  | .request other _ => other == name
  | .restart => true
  | .outage _ _ => true

/-- What a moment shows of a sheet: the event and the reply, the sheet in memory if it is held, and
its stored texts, if there are any, in their order. -/
def Moment.shows (m : Moment) (name : String) :
    Event × Option (Except Fault (Reply Answer)) × Option Sheet ×
      Option (OrderedMap String String) :=
  (m.event, m.reply, m.workbook.loaded.get? name, m.workbook.store.sheets.get? name)

/-- **Workbooks that are the same at a sheet stay so** in an event that is about it, and give the
same reply. -/
theorem SameAt.react (h : w.SameAt v name) {event : Event} (hconcerns : event.concerns name) :
    (w.react event).1 = (v.react event).1 ∧ (w.react event).2.SameAt (v.react event).2 name := by
  cases event with
  | request other request =>
    obtain rfl : other = name := beq_iff_eq.mp hconcerns
    obtain ⟨hreply, hsame⟩ := (local_perform other request).depends h
    exact ⟨congrArg some hreply, hsame⟩
  | restart => exact ⟨rfl, h.settings, h.store, rfl⟩
  | outage method reason =>
    refine ⟨rfl, h.settings, ⟨?_, h.store.sheet⟩, h.loaded⟩
    exact congrArg (fun outage m ↦ if m = method then reason else outage m) h.store.outage

/-- **An event that is not about a sheet does not show in it.** -/
theorem sameAt_react {event : Event} (hconcerns : event.concerns name = false) :
    w.SameAt (w.react event).2 name := by
  cases event with
  | request other request =>
    have hne : name ≠ other := fun heq ↦ by simp [Event.concerns, heq] at hconcerns
    exact (local_perform other request).spares w hne
  | restart => cases hconcerns
  | outage method reason => cases hconcerns

theorem SameAt.through_filter (h : w.SameAt v name) (events : List Event) :
    (w.through events).SameAt (v.through (events.filter (·.concerns name))) name := by
  induction events generalizing w v with
  | nil => exact h
  | cons event rest ih =>
    cases hconcerns : event.concerns name with
    | true =>
      rw [List.filter_cons_of_pos hconcerns]
      exact ih (h.react hconcerns).2
    | false =>
      rw [List.filter_cons_of_neg (Bool.eq_false_iff.mp hconcerns)]
      exact ih ((sameAt_react hconcerns).symm.trans h)

theorem SameAt.history_filter (h : w.SameAt v name) (events : List Event) :
    ((w.history events).filter (·.event.concerns name)).map (·.shows name)
      = (v.history (events.filter (·.concerns name))).map (·.shows name) := by
  induction events generalizing w v with
  | nil => rfl
  | cons event rest ih =>
    rw [history]
    cases hconcerns : event.concerns name with
    | true =>
      obtain ⟨hreply, hsame⟩ := h.react hconcerns
      have hshows : Moment.shows ⟨event, (w.react event).1, (w.react event).2⟩ name
          = Moment.shows ⟨event, (v.react event).1, (v.react event).2⟩ name := by
        rw [Moment.shows, Moment.shows, hreply, hsame.loaded, hsame.store.sheet]
      simp only [List.filter_cons, hconcerns, if_true, history, List.map_cons, hshows, ih hsame]
    | false =>
      simp only [List.filter_cons, hconcerns, Bool.false_eq_true, if_false]
      exact ih ((sameAt_react hconcerns).symm.trans h)

/-- **Sheets do not interfere.** Strike from a run all requests on other sheets. Every event that is
left gets the reply that it got before, and after it the sheet is in memory or not as before, with
the same table, and has the same stored texts in the same order. In the end the two workbooks are
the same at the sheet. -/
theorem history_filter_concerns (w : Workbook) (events : List Event) (name : String) :
    ((w.history events).filter (·.event.concerns name)).map (·.shows name)
        = (w.history (events.filter (·.concerns name))).map (·.shows name) ∧
      (w.through events).SameAt (w.through (events.filter (·.concerns name))) name :=
  ⟨(SameAt.refl w name).history_filter events, (SameAt.refl w name).through_filter events⟩

end Workbook

end Spreadsheet
