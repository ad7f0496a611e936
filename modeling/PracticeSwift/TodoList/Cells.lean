import PracticeSwift.TodoList.Handlers

/-!
# Cells on the screen

A displayed cell keeps a copy of its task's state in its controls, set by `updateUI`, by the taps on
its check button, and left alone by `prepareForReuse`.  A cell is asked for only while the list is
the one the screen was laid out for; every change of the list calls `reloadData`, and until the next
layout the cells on screen stay what they were, each with a task of its own.  The controls therefore
agree with the variable of the handlers, and that with the stored task (`Coherent`).
-/

open Foundation FileManager Transition

namespace PracticeSwift.TodoList

@[ext]
structure IndexPath where
  sectionIndex : ℕ
  item : ℕ
  deriving DecidableEq

/-- A cell with the state of its controls; a handler is the number of the call of `cellForItemAt`
that set it.  The values are those of the storyboard. -/
structure TodoListCell where
  checkButtonSelected : Bool := true
  descriptionText : String := "🤗 Study iOS Good!!"
  descriptionAlpha : ℚ := 1
  /-- `descriptionLabel.bounds.width` -/
  descriptionWidth : ℚ := 278
  deleteButtonHidden : Bool := false
  strikeThroughwidth : ℚ := 250
  doneButtonTapHandler : Option ℕ := none
  deleteButtonTapHandler : Option ℕ := none

namespace TodoListCell

def showStrikeThrough (cell : TodoListCell) (isShown : Bool) : TodoListCell :=
  { cell with strikeThroughwidth := if isShown then cell.descriptionWidth else 0 }

def updateUI (cell : TodoListCell) (todo : Todo) : TodoListCell :=
  showStrikeThrough
    { cell with
      checkButtonSelected := todo.isDone
      descriptionText := todo.detail
      descriptionAlpha := if todo.isDone then 1 / 5 else 1
      deleteButtonHidden := todo.isDone == false }
    todo.isDone

def reset (cell : TodoListCell) : TodoListCell :=
  showStrikeThrough { cell with descriptionAlpha := 1, deleteButtonHidden := true } false

def prepareForReuse (cell : TodoListCell) : TodoListCell := cell.reset

/-- `checkButtonTapped`, up to the call of the handler. -/
def checkButtonTapped (cell : TodoListCell) : TodoListCell :=
  let isDone := !cell.checkButtonSelected
  { showStrikeThrough { cell with checkButtonSelected := isDone } isDone with
    descriptionAlpha := if isDone then 1 / 5 else 1
    deleteButtonHidden := !isDone }

/-- The controls of the cell as `updateUI` sets them for the task. -/
structure Shows (cell : TodoListCell) (todo : Todo) : Prop where
  checkButtonSelected : cell.checkButtonSelected = todo.isDone
  descriptionText : cell.descriptionText = todo.detail
  descriptionAlpha : cell.descriptionAlpha = if todo.isDone then 1 / 5 else 1
  deleteButtonHidden : cell.deleteButtonHidden = !todo.isDone
  strikeThroughwidth : cell.strikeThroughwidth = if todo.isDone then cell.descriptionWidth else 0

/-- Whatever the cell was used for before, `updateUI` makes it show the task. -/
theorem shows_updateUI (cell : TodoListCell) (todo : Todo) : (cell.updateUI todo).Shows todo where
  checkButtonSelected := rfl
  descriptionText := rfl
  descriptionAlpha := rfl
  deleteButtonHidden := by
    show (todo.isDone == false) = !todo.isDone
    cases todo.isDone <;> rfl
  strikeThroughwidth := rfl

theorem Shows.checkButtonTapped {cell : TodoListCell} {todo : Todo} (h : cell.Shows todo) :
    cell.checkButtonTapped.Shows
      { todo with isDone := cell.checkButtonTapped.checkButtonSelected } where
  checkButtonSelected := rfl
  descriptionText := h.descriptionText
  descriptionAlpha := rfl
  deleteButtonHidden := rfl
  strikeThroughwidth := rfl

end TodoListCell

/-- The controller and the cells on the screen. -/
structure TodoScreen (Data : Type) where
  controller : TodoListViewController Data
  displayed : IndexPath → Option TodoListCell := fun _ => none

inductive ScreenEvent
  | inputTextField (text : Option String)
  | isTodayButtonTapped
  | addTaskButtonTapped
  /-- The collection view asks for a cell and hands over a used one, if it has one. -/
  | cellForItemAt (indexPath : IndexPath) (used : Option TodoListCell)
  | didEndDisplaying (indexPath : IndexPath)
  /-- The collection view lays itself out, and reloads first if it was told to. -/
  | layout
  | checkButtonTapped (indexPath : IndexPath)
  | deleteButtonTapped (indexPath : IndexPath)

namespace TodoScreen

variable {Data : Type}

abbrev todos (s : TodoScreen Data) : List Todo := s.controller.todos

def dequeueReusableCell : Option TodoListCell → TodoListCell
  | none => {}
  | some used => used.prepareForReuse

/-- The cell that `cellForItemAt` returns for a task. -/
def cellForTodo (s : TodoScreen Data) (used : Option TodoListCell) (todo : Todo) : TodoListCell :=
  { (dequeueReusableCell used).updateUI todo with
    doneButtonTapHandler := some s.controller.captured.length
    deleteButtonTapHandler := some s.controller.captured.length }

variable (coder : Coder (List Todo) Data)

def perform (s : TodoScreen Data) (e : ListEvent × Faults) : Option (TodoScreen Data) :=
  (s.controller.step coder e).map fun controller => { s with controller }

/-- A cell is asked for after a pending reload only, and only for an item without one. -/
def cellForItemAt (faults : Faults) (s : TodoScreen Data) (indexPath : IndexPath)
    (used : Option TodoListCell) : Option (TodoScreen Data) :=
  if s.controller.needsReload = false ∧ indexPath.sectionIndex < numOfSection ∧
      s.displayed indexPath = none then do
    let todo ← s.controller.cellForItemAt indexPath.sectionIndex indexPath.item
    let displayed := Function.update s.displayed indexPath (some (s.cellForTodo used todo))
    perform coder { s with displayed }
      (.cellForItemAt indexPath.sectionIndex indexPath.item, faults)
  else none

def layout (faults : Faults) (s : TodoScreen Data) : Option (TodoScreen Data) :=
  let displayed := if s.controller.needsReload then fun _ => none else s.displayed
  perform coder { s with displayed } (.layout, faults)

def checkButtonTapped (faults : Faults) (s : TodoScreen Data) (indexPath : IndexPath) :
    Option (TodoScreen Data) := do
  let cell := (← s.displayed indexPath).checkButtonTapped
  let s := { s with displayed := Function.update s.displayed indexPath (some cell) }
  match cell.doneButtonTapHandler with
  | none => return s
  | some handler => perform coder s (.doneButtonTapHandler handler cell.checkButtonSelected, faults)

/-- A hidden button cannot be tapped. -/
def deleteButtonTapped (faults : Faults) (s : TodoScreen Data) (indexPath : IndexPath) :
    Option (TodoScreen Data) := do
  let cell ← s.displayed indexPath
  if cell.deleteButtonHidden then none
  else
    match cell.deleteButtonTapHandler with
    | none => return s
    | some handler => perform coder s (.deleteButtonTapHandler handler, faults)

def step (s : TodoScreen Data) : ScreenEvent × Faults → Option (TodoScreen Data)
  | (.inputTextField text, faults) => perform coder s (.inputTextField text, faults)
  | (.isTodayButtonTapped, faults) => perform coder s (.isTodayButtonTapped, faults)
  | (.addTaskButtonTapped, faults) => perform coder s (.addTaskButtonTapped, faults)
  | (.cellForItemAt indexPath used, faults) => cellForItemAt coder faults s indexPath used
  | (.didEndDisplaying indexPath, _) =>
    some { s with displayed := Function.update s.displayed indexPath none }
  | (.layout, faults) => layout coder faults s
  | (.checkButtonTapped indexPath, faults) => checkButtonTapped coder faults s indexPath
  | (.deleteButtonTapped indexPath, faults) => deleteButtonTapped coder faults s indexPath

/-- The runs of the screen from `viewDidLoad`. -/
def system : System (TodoScreen Data) (ScreenEvent × Faults) where
  start s := ∃ controller, (TodoListViewController.system coder).start controller ∧
    s = { controller }
  step s e s' := step coder s e = some s'

/-! ## Cells and their tasks -/

/-- A displayed cell, the number of its handlers and the task in their variable. -/
structure ShownAt (s : TodoScreen Data) (indexPath : IndexPath) (cell : TodoListCell)
    (handler : ℕ) (todo : Todo) : Prop where
  displayed : s.displayed indexPath = some cell
  done : cell.doneButtonTapHandler = some handler
  deleted : cell.deleteButtonTapHandler = some handler
  captured : s.controller.captured[handler]? = some todo

/-- Controls, variables and list agree: every displayed cell shows the task of its handlers, which
is the stored task if it is stored at all; no two cells share a task; and the cells that were made
for the present list are those of its items. -/
structure Coherent (s : TodoScreen Data) : Prop where
  consistent : s.controller.Consistent
  made : ∀ indexPath cell, s.displayed indexPath = some cell →
    ∃ handler todo, s.ShownAt indexPath cell handler todo
  looks : ∀ indexPath cell handler todo, s.ShownAt indexPath cell handler todo → cell.Shows todo
  stored : ∀ indexPath cell handler todo, s.ShownAt indexPath cell handler todo →
    ∀ t ∈ s.todos, t.id = todo.id → t = todo
  distinct : ∀ indexPath cell handler todo indexPath' cell' handler' todo',
    s.ShownAt indexPath cell handler todo → s.ShownAt indexPath' cell' handler' todo' →
      todo.id = todo'.id → indexPath = indexPath'
  current : s.controller.needsReload = false → ∀ indexPath cell handler todo,
    s.ShownAt indexPath cell handler todo →
      (sectionTodos s.todos indexPath.sectionIndex)[indexPath.item]? = some todo ∧
        indexPath.sectionIndex < numOfSection

/-- The next state shows cells of the present one only, over a list that has changed by tasks that
no cell shows and by tasks that are gone, or after which a reload is pending. -/
structure Restricts (s s' : TodoScreen Data) : Prop where
  consistent : s'.controller.Consistent
  captured : s'.controller.captured = s.controller.captured
  displayed : ∀ indexPath cell, s'.displayed indexPath = some cell →
    s.displayed indexPath = some cell
  stored : ∀ t ∈ s'.todos, t ∈ s.todos ∨ s.controller.app.manager.lastId < t.id
  current : ∀ indexPath cell, s'.displayed indexPath = some cell →
    s'.controller.needsReload = false →
      s.controller.needsReload = false ∧ s'.todos = s.todos

theorem Restricts.shownAt {s s' : TodoScreen Data} (h : Restricts s s') {indexPath : IndexPath}
    {cell : TodoListCell} {handler : ℕ} {todo : Todo}
    (hshown : s'.ShownAt indexPath cell handler todo) : s.ShownAt indexPath cell handler todo where
  displayed := h.displayed _ _ hshown.displayed
  done := hshown.done
  deleted := hshown.deleted
  captured := h.captured ▸ hshown.captured

theorem Coherent.restrict {s s' : TodoScreen Data} (hs : s.Coherent) (h : Restricts s s') :
    s'.Coherent where
  consistent := h.consistent
  made indexPath cell hcell := by
    obtain ⟨handler, todo, hshown⟩ := hs.made _ _ (h.displayed _ _ hcell)
    exact ⟨handler, todo, hcell, hshown.done, hshown.deleted, h.captured ▸ hshown.captured⟩
  looks _ _ _ _ hshown := hs.looks _ _ _ _ (h.shownAt hshown)
  stored _ _ _ todo hshown t ht hid := by
    rcases h.stored t ht with ht | hlt
    · exact hs.stored _ _ _ _ (h.shownAt hshown) t ht hid
    · -- a task created after the cell has another identifier
      have hagrees := hs.consistent.agrees _ (List.mem_of_getElem? (h.shownAt hshown).captured)
      have hle := hid ▸ hagrees.le_lastId
      exact absurd rfl (Int64.ne_of_lt (Int64.lt_of_le_of_lt hle hlt))
  distinct _ _ _ _ _ _ _ _ hshown hshown' :=
    hs.distinct _ _ _ _ _ _ _ _ (h.shownAt hshown) (h.shownAt hshown')
  current hreload indexPath cell handler todo hshown := by
    obtain ⟨hreload, htodos⟩ := h.current _ _ hshown.displayed hreload
    rw [htodos]
    exact hs.current hreload _ _ _ _ (h.shownAt hshown)

theorem ShownAt.eq {s : TodoScreen Data} {indexPath : IndexPath} {cell cell' : TodoListCell}
    {handler handler' : ℕ} {todo todo' : Todo} (h : s.ShownAt indexPath cell handler todo)
    (h' : s.ShownAt indexPath cell' handler' todo') :
    cell = cell' ∧ handler = handler' ∧ todo = todo' := by
  obtain rfl := Option.some.inj (h.displayed.symm.trans h'.displayed)
  obtain rfl := Option.some.inj (h.done.symm.trans h'.done)
  obtain rfl := Option.some.inj (h.captured.symm.trans h'.captured)
  exact ⟨rfl, rfl, rfl⟩

/-- The next state shows one new or changed cell, and keeps the others. -/
structure Puts (s s' : TodoScreen Data) (indexPath : IndexPath) (cell : TodoListCell)
    (handler : ℕ) (todo : Todo) : Prop where
  consistent : s'.controller.Consistent
  shown : s'.ShownAt indexPath cell handler todo
  others : ∀ indexPath', indexPath' ≠ indexPath → ∀ cell' handler' todo',
    s.ShownAt indexPath' cell' handler' todo' → s'.ShownAt indexPath' cell' handler' todo'
  displayed : ∀ indexPath', indexPath' ≠ indexPath →
    s'.displayed indexPath' = s.displayed indexPath'
  fresh : ∀ indexPath', indexPath' ≠ indexPath → ∀ cell' handler' todo',
    s.ShownAt indexPath' cell' handler' todo' → todo'.id ≠ todo.id
  looks : cell.Shows todo
  stored : ∀ t ∈ s'.todos, t = todo ∨ t.id ≠ todo.id ∧ t ∈ s.todos
  current : s'.controller.needsReload = false →
    s.controller.needsReload = false ∧ s'.todos = s.todos ∧
      (sectionTodos s.todos indexPath.sectionIndex)[indexPath.item]? = some todo ∧
        indexPath.sectionIndex < numOfSection

/-- What the next state shows is the one cell, or a cell of the present state elsewhere. -/
theorem Puts.cases {s s' : TodoScreen Data} {indexPath : IndexPath} {cell : TodoListCell}
    {handler : ℕ} {todo : Todo} (h : Puts s s' indexPath cell handler todo) (hs : s.Coherent)
    {indexPath' : IndexPath} {cell' : TodoListCell} {handler' : ℕ} {todo' : Todo}
    (hshown : s'.ShownAt indexPath' cell' handler' todo') :
    (indexPath' = indexPath ∧ cell' = cell ∧ todo' = todo) ∨
      (s.ShownAt indexPath' cell' handler' todo' ∧ todo'.id ≠ todo.id) := by
  by_cases hpath : indexPath' = indexPath
  · subst hpath
    obtain ⟨rfl, -, rfl⟩ := h.shown.eq hshown
    exact Or.inl ⟨rfl, rfl, rfl⟩
  · have hcell := (h.displayed _ hpath).symm.trans hshown.displayed
    obtain ⟨handler₀, todo₀, hshown₀⟩ := hs.made _ _ hcell
    obtain ⟨-, rfl, rfl⟩ := (h.others _ hpath _ _ _ hshown₀).eq hshown
    exact Or.inr ⟨hshown₀, h.fresh _ hpath _ _ _ hshown₀⟩

theorem Coherent.put {s s' : TodoScreen Data} {indexPath : IndexPath} {cell : TodoListCell}
    {handler : ℕ} {todo : Todo} (hs : s.Coherent) (h : Puts s s' indexPath cell handler todo) :
    s'.Coherent where
  consistent := h.consistent
  made indexPath' cell' hcell := by
    by_cases hpath : indexPath' = indexPath
    · subst hpath
      obtain rfl := Option.some.inj (h.shown.displayed.symm.trans hcell)
      exact ⟨handler, todo, h.shown⟩
    · rw [h.displayed _ hpath] at hcell
      obtain ⟨handler', todo', hshown⟩ := hs.made _ _ hcell
      exact ⟨handler', todo', h.others _ hpath _ _ _ hshown⟩
  looks indexPath' cell' handler' todo' hshown := by
    rcases h.cases hs hshown with ⟨-, rfl, rfl⟩ | ⟨hold, -⟩
    · exact h.looks
    · exact hs.looks _ _ _ _ hold
  stored indexPath' cell' handler' todo' hshown t ht hid := by
    rcases h.cases hs hshown with ⟨-, -, rfl⟩ | ⟨hold, hne⟩
    · exact (h.stored t ht).resolve_right fun hother => hother.1 hid
    · rcases h.stored t ht with rfl | ⟨-, ht⟩
      · exact absurd hid.symm hne
      · exact hs.stored _ _ _ _ hold t ht hid
  distinct path₁ cell₁ handler₁ todo₁ path₂ cell₂ handler₂ todo₂ h₁ h₂ hid := by
    rcases h.cases hs h₁ with ⟨rfl, -, rfl⟩ | ⟨hold₁, hne₁⟩
    · rcases h.cases hs h₂ with ⟨rfl, -, -⟩ | ⟨-, hne₂⟩
      · rfl
      · exact absurd hid.symm hne₂
    · rcases h.cases hs h₂ with ⟨-, -, rfl⟩ | ⟨hold₂, -⟩
      · exact absurd hid hne₁
      · exact hs.distinct _ _ _ _ _ _ _ _ hold₁ hold₂ hid
  current hreload indexPath' cell' handler' todo' hshown := by
    obtain ⟨hreload, htodos, hitem⟩ := h.current hreload
    rw [htodos]
    rcases h.cases hs hshown with ⟨rfl, -, rfl⟩ | ⟨hold, -⟩
    · exact hitem
    · exact hs.current hreload _ _ _ _ hold

/-! ## Steps -/

section

variable {coder : Coder (List Todo) Data}

theorem perform_eq_some_iff {s s' : TodoScreen Data} {e : ListEvent × Faults} :
    perform coder s e = some s' ↔
      ∃ controller, s.controller.step coder e = some controller ∧ { s with controller } = s' :=
  Option.map_eq_some_iff

/-- Everything but making a cell and tapping a check button only takes cells off the screen. -/
theorem Coherent.restricts {s : TodoScreen Data} (hs : s.Coherent)
    {controller : TodoListViewController Data} {displayed : IndexPath → Option TodoListCell}
    {e : ListEvent} (h : TodoListViewController.Step coder s.controller controller e)
    (hdisplayed : ∀ indexPath cell, displayed indexPath = some cell →
      s.displayed indexPath = some cell)
    (hmade : ∀ sectionIndex item, e ≠ .cellForItemAt sectionIndex item)
    (hdone : ∀ handler isDone, e ≠ .doneButtonTapHandler handler isDone)
    (hlayout : e = .layout → s.controller.needsReload = true → displayed = fun _ => none) :
    Restricts s { controller, displayed } := by
  have hs' := h.consistent hs.consistent
  cases h with
  | quiet e app captured needsReload =>
    have htodos : controller.todos = s.todos := by rw [TodoListViewController.todos, app]
    refine ⟨hs', captured, hdisplayed, fun t ht => Or.inl (htodos ▸ ht), ?_⟩
    intro path cell hcell hfalse
    refine ⟨?_, htodos⟩
    rcases needsReload with heq | rfl
    · exact heq.symm.trans hfalse
    · -- after a reload no cell is left
      rw [← Bool.not_eq_true]
      intro htrue
      have hnone := congrFun (hlayout rfl htrue) path
      exact absurd (hnone.symm.trans hcell) (by simp)
  | created next manager captured needsReload =>
    refine ⟨hs', captured, hdisplayed, fun t ht => ?_, fun _ _ _ hfalse => ?_⟩
    · rw [todos, TodoListViewController.todos, manager] at ht
      rcases List.mem_append.1 ht with ht | ht
      · exact Or.inl ht
      · obtain rfl := List.mem_singleton.1 ht
        exact Or.inr (lt_of_checkedAdd_one next)
    · exact absurd (needsReload.symm.trans hfalse) (by simp)
  | made _ _ _ _ => exact absurd rfl (hmade _ _)
  | done _ _ _ _ => exact absurd rfl (hdone _ _)
  | deleted _ app captured needsReload =>
    refine ⟨hs', captured, hdisplayed, fun t ht => ?_, fun _ _ _ hfalse => ?_⟩
    · rw [todos, TodoListViewController.todos, app, manager_deleteTodo] at ht
      exact Or.inl (List.mem_of_mem_filter ht)
    · exact absurd (needsReload.symm.trans hfalse) (by simp)

/-- Asking for a cell puts one that shows the item's task. -/
theorem Coherent.puts_cellForItemAt {s s' : TodoScreen Data} (hs : s.Coherent) {faults : Faults}
    {indexPath : IndexPath} {used : Option TodoListCell}
    (h : cellForItemAt coder faults s indexPath used = some s') :
    ∃ cell handler todo, Puts s s' indexPath cell handler todo := by
  unfold cellForItemAt at h
  split_ifs at h with hasked
  obtain ⟨hreload, hsection, hempty⟩ := hasked
  simp only [Option.bind_eq_bind, Option.bind_eq_some_iff, perform_eq_some_iff] at h
  obtain ⟨todo, hfound, controller, hstep, rfl⟩ := h
  have hs' := (TodoListViewController.step_cases coder hstep).consistent hs.consistent
  simp only [TodoListViewController.step, hfound, Option.map_some, Option.some.injEq] at hstep
  obtain rfl := hstep
  rw [TodoListViewController.cellForItemAt_eq] at hfound
  have hnodup := hs.consistent.identified.nodup
  have hmem : todo ∈ s.todos := (mem_sectionTodos.1 (List.mem_of_getElem? hfound)).1
  have hshows := (dequeueReusableCell used).shows_updateUI todo
  refine ⟨s.cellForTodo used todo, s.controller.captured.length, todo, ?_⟩
  constructor
  case consistent => exact hs'
  case shown =>
    exact ⟨Function.update_self .., rfl, rfl, List.getElem?_concat_length⟩
  case others =>
    intro path hne cell handler todo' hshown
    refine ⟨(Function.update_of_ne hne ..).trans hshown.displayed, hshown.done, hshown.deleted, ?_⟩
    have hlt := (List.getElem?_eq_some_iff.1 hshown.captured).1
    exact (List.getElem?_append_left hlt).trans hshown.captured
  case displayed => exact fun path hne => Function.update_of_ne hne ..
  case fresh =>
    intro path hne cell handler todo' hshown hid
    obtain ⟨hitem, hlt⟩ := hs.current hreload _ _ _ _ hshown
    obtain ⟨h₁, h₂⟩ := sectionTodos_inj hnodup hlt hsection hitem hfound hid
    exact hne (IndexPath.ext h₁ h₂)
  case looks =>
    exact ⟨hshows.checkButtonSelected, hshows.descriptionText, hshows.descriptionAlpha,
      hshows.deleteButtonHidden, hshows.strikeThroughwidth⟩
  case stored =>
    intro t ht
    by_cases hid : t.id = todo.id
    · exact Or.inl (List.inj_on_of_nodup_map hnodup ht hmem hid)
    · exact Or.inr ⟨hid, ht⟩
  case current => exact fun _ => ⟨hreload, rfl, hfound, hsection⟩

/-- Another cell has another variable. -/
theorem Coherent.handler_ne {s : TodoScreen Data} (hs : s.Coherent)
    {indexPath indexPath' : IndexPath} {cell cell' : TodoListCell} {handler handler' : ℕ} {todo todo' : Todo}
    (hshown : s.ShownAt indexPath cell handler todo)
    (hshown' : s.ShownAt indexPath' cell' handler' todo') (hne : indexPath' ≠ indexPath) :
    handler ≠ handler' := by
  rintro rfl
  obtain rfl := Option.some.inj (hshown.captured.symm.trans hshown'.captured)
  exact hne (hs.distinct _ _ _ _ _ _ _ _ hshown' hshown rfl)

/-- Ticking the task of a cell leaves the other tasks alone. -/
theorem Coherent.mem_setDone {s : TodoScreen Data} (hs : s.Coherent) {indexPath : IndexPath}
    {cell : TodoListCell} {handler : ℕ} {todo t : Todo} {isDone : Bool}
    (hshown : s.ShownAt indexPath cell handler todo) (ht : t ∈ setDone todo.id isDone s.todos) :
    t = { todo with isDone } ∨ t.id ≠ todo.id ∧ t ∈ s.todos := by
  obtain ⟨t', ht', rfl⟩ := List.mem_map.1 ht
  by_cases hid : t'.id = todo.id
  · rw [if_pos hid]
    obtain rfl := hs.stored _ _ _ _ hshown t' ht' hid
    exact Or.inl rfl
  · rw [if_neg hid]
    exact Or.inr ⟨hid, ht'⟩

/-- Tapping a check button changes the cell and its task alike. -/
theorem Coherent.puts_checkButtonTapped {s s' : TodoScreen Data} (hs : s.Coherent)
    {faults : Faults} {indexPath : IndexPath}
    (h : checkButtonTapped coder faults s indexPath = some s') :
    ∃ cell handler todo, Puts s s' indexPath cell handler todo := by
  simp only [checkButtonTapped, Option.bind_eq_bind, Option.bind_eq_some_iff] at h
  obtain ⟨cell, hcell, h⟩ := h
  obtain ⟨handler, todo, hshown⟩ := hs.made _ _ hcell
  have hhandler : cell.checkButtonTapped.doneButtonTapHandler = some handler := hshown.done
  simp only [hhandler, perform_eq_some_iff] at h
  obtain ⟨controller, hstep, rfl⟩ := h
  have hs' := (TodoListViewController.step_cases coder hstep).consistent hs.consistent
  simp only [TodoListViewController.step, TodoListViewController.doneButtonTapHandler,
    hshown.captured, Option.bind_eq_bind, Option.bind_some, Option.pure_def,
    Option.some.injEq] at hstep
  obtain rfl := hstep
  set isDone := cell.checkButtonTapped.checkButtonSelected
  have hagrees := hs.consistent.agrees _ (List.mem_of_getElem? hshown.captured)
  have hmanager := manager_updateTodo coder faults hs.consistent.identified (hagrees.done isDone)
  have hlt := (List.getElem?_eq_some_iff.1 hshown.captured).1
  refine ⟨cell.checkButtonTapped, handler, { todo with isDone }, ?_⟩
  constructor
  case consistent => exact hs'
  case shown =>
    exact ⟨Function.update_self .., hshown.done, hshown.deleted, List.getElem?_set_self hlt⟩
  case others =>
    intro path hne cell' handler' todo' hshown'
    refine ⟨(Function.update_of_ne hne ..).trans hshown'.displayed, hshown'.done,
      hshown'.deleted, ?_⟩
    exact (List.getElem?_set_ne (hs.handler_ne hshown hshown' hne)).trans hshown'.captured
  case displayed => exact fun path hne => Function.update_of_ne hne ..
  case fresh =>
    intro path hne cell' handler' todo' hshown' hid
    exact hne (hs.distinct _ _ _ _ _ _ _ _ hshown' hshown hid)
  case looks => exact (hs.looks _ _ _ _ hshown).checkButtonTapped
  case stored =>
    intro t ht
    rw [todos, TodoListViewController.todos, hmanager] at ht
    exact hs.mem_setDone hshown ht
  case current => exact fun hfalse => absurd hfalse (by simp)

/-- The inputs that neither make a cell nor tick one, and the layout aside. -/
theorem Coherent.perform {s s' : TodoScreen Data} (hs : s.Coherent) {l : ListEvent}
    {faults : Faults} (h : TodoScreen.perform coder s (l, faults) = some s')
    (hmade : ∀ sectionIndex item, l ≠ .cellForItemAt sectionIndex item)
    (hdone : ∀ handler isDone, l ≠ .doneButtonTapHandler handler isDone) (hlayout : l ≠ .layout) :
    s'.Coherent := by
  obtain ⟨controller, hstep, rfl⟩ := perform_eq_some_iff.1 h
  exact hs.restrict (hs.restricts (TodoListViewController.step_cases coder hstep)
    (fun _ _ hcell => hcell) hmade hdone (absurd · hlayout))

/-- A cell that scrolls out takes nothing along. -/
theorem Coherent.didEndDisplaying {s : TodoScreen Data} (hs : s.Coherent) (indexPath : IndexPath) :
    Coherent { s with displayed := Function.update s.displayed indexPath none } := by
  refine hs.restrict ⟨hs.consistent, rfl, fun path cell hcell => ?_, fun t ht => Or.inl ht,
    fun _ _ _ hfalse => ⟨hfalse, rfl⟩⟩
  by_cases hpath : path = indexPath
  · subst hpath
    exact absurd ((Function.update_self ..).symm.trans hcell) (by simp)
  · exact (Function.update_of_ne hpath ..).symm.trans hcell

/-- A pending reload takes all cells off. -/
theorem Coherent.layout {s s' : TodoScreen Data} (hs : s.Coherent) {faults : Faults}
    (h : TodoScreen.layout coder faults s = some s') : s'.Coherent := by
  simp only [TodoScreen.layout, perform_eq_some_iff] at h
  obtain ⟨controller, hstep, rfl⟩ := h
  refine hs.restrict (hs.restricts (TodoListViewController.step_cases coder hstep)
    (fun path cell hcell => ?_) (by simp) (by simp) fun _ htrue => if_pos htrue)
  split_ifs at hcell
  exact hcell

/-- Every step keeps controls, variables and list together. -/
theorem Coherent.step {s s' : TodoScreen Data} (hs : s.Coherent) {e : ScreenEvent}
    {faults : Faults} (h : TodoScreen.step coder s (e, faults) = some s') : s'.Coherent := by
  cases e with
  | inputTextField text => exact hs.perform h (by simp) (by simp) (by simp)
  | isTodayButtonTapped => exact hs.perform h (by simp) (by simp) (by simp)
  | addTaskButtonTapped => exact hs.perform h (by simp) (by simp) (by simp)
  | cellForItemAt indexPath used =>
    obtain ⟨_, _, _, hputs⟩ := hs.puts_cellForItemAt h
    exact hs.put hputs
  | didEndDisplaying indexPath =>
    obtain rfl := Option.some.inj h
    exact hs.didEndDisplaying indexPath
  | layout => exact hs.layout h
  | checkButtonTapped indexPath =>
    obtain ⟨_, _, _, hputs⟩ := hs.puts_checkButtonTapped h
    exact hs.put hputs
  | deleteButtonTapped indexPath =>
    simp only [TodoScreen.step, deleteButtonTapped, Option.bind_eq_bind,
      Option.bind_eq_some_iff] at h
    obtain ⟨cell, hcell, h⟩ := h
    split_ifs at h
    split at h
    · obtain rfl := Option.some.inj h
      exact hs
    · exact hs.perform h (by simp) (by simp) (by simp)

theorem coherent_of_run {past : List (ScreenEvent × Faults)} {s : TodoScreen Data}
    (h : (system coder).Run past s) : s.Coherent := by
  refine h.preserves ?_ fun _ (_, _) _ hs hstep => hs.step hstep
  rintro _ ⟨controller, hstart, rfl⟩
  have hconsistent := TodoListViewController.consistent_of_run (.start hstart)
  have hempty : ∀ indexPath cell handler todo,
      ¬ ShownAt ⟨controller, fun _ => none⟩ indexPath cell handler todo := by
    intro _ _ _ _ hshown
    exact absurd hshown.displayed (by simp)
  exact ⟨hconsistent, fun _ _ hcell => absurd hcell (by simp),
    fun _ _ _ _ hshown => absurd hshown (hempty _ _ _ _),
    fun _ _ _ _ hshown => absurd hshown (hempty _ _ _ _),
    fun _ _ _ _ _ _ _ _ hshown => absurd hshown (hempty _ _ _ _),
    fun _ _ _ _ _ hshown => absurd hshown (hempty _ _ _ _)⟩

/-- A tap on a visible delete button deletes the task that the cell shows, which is done. -/
theorem Coherent.deleteTodo {s s' : TodoScreen Data} (hs : s.Coherent) {faults : Faults}
    {indexPath : IndexPath} (h : deleteButtonTapped coder faults s indexPath = some s') :
    ∃ cell handler todo, s.ShownAt indexPath cell handler todo ∧ todo.isDone = true ∧
      s'.controller.app = App.deleteTodo coder faults s.controller.app todo := by
  simp only [deleteButtonTapped, Option.bind_eq_bind, Option.bind_eq_some_iff] at h
  obtain ⟨cell, hcell, h⟩ := h
  obtain ⟨handler, todo, hshown⟩ := hs.made _ _ hcell
  split_ifs at h with hvisible
  simp only [hshown.deleted, perform_eq_some_iff, TodoListViewController.step,
    TodoListViewController.deleteButtonTapHandler, hshown.captured, Option.bind_eq_bind,
    Option.bind_some, Option.pure_def, Option.some.injEq] at h
  obtain ⟨_, rfl, rfl⟩ := h
  refine ⟨cell, handler, todo, hshown, ?_, rfl⟩
  have hhidden := (hs.looks _ _ _ _ hshown).deleteButtonHidden
  rw [Bool.not_eq_true] at hvisible
  rwa [hvisible, eq_comm, Bool.not_eq_false'] at hhidden

/-- The controller of the next state, and that a delete handler runs for a delete button only. -/
theorem controller_of_step {s s' : TodoScreen Data} {e : ScreenEvent} {faults : Faults}
    (h : step coder s (e, faults) = some s') :
    s'.controller = s.controller ∨ ∃ l, s.controller.step coder (l, faults) = some s'.controller ∧
      ((∀ indexPath, e ≠ .deleteButtonTapped indexPath) →
        ∀ handler, l ≠ .deleteButtonTapHandler handler) := by
  have hperform : ∀ l displayed, perform coder { s with displayed } (l, faults) = some s' →
      s.controller.step coder (l, faults) = some s'.controller := by
    intro l displayed h
    obtain ⟨controller, hstep, rfl⟩ := perform_eq_some_iff.1 h
    exact hstep
  cases e with
  | inputTextField text => exact Or.inr ⟨_, hperform _ s.displayed h, by simp⟩
  | isTodayButtonTapped => exact Or.inr ⟨_, hperform _ s.displayed h, by simp⟩
  | addTaskButtonTapped => exact Or.inr ⟨_, hperform _ s.displayed h, by simp⟩
  | cellForItemAt indexPath used =>
    simp only [step, cellForItemAt] at h
    split_ifs at h
    obtain ⟨todo, -, h⟩ := Option.bind_eq_some_iff.1 h
    exact Or.inr ⟨_, hperform _ _ h, by simp⟩
  | didEndDisplaying indexPath =>
    obtain rfl := Option.some.inj h
    exact Or.inl rfl
  | layout =>
    simp only [step, layout] at h
    exact Or.inr ⟨_, hperform _ _ h, by simp⟩
  | checkButtonTapped indexPath =>
    simp only [step, checkButtonTapped, Option.bind_eq_bind, Option.bind_eq_some_iff] at h
    obtain ⟨cell, -, h⟩ := h
    split at h
    · obtain rfl := Option.some.inj h
      exact Or.inl rfl
    · exact Or.inr ⟨_, hperform _ _ h, by simp⟩
  | deleteButtonTapped indexPath =>
    obtain ⟨cell, -, h⟩ := Option.bind_eq_some_iff.1 h
    split_ifs at h
    split at h
    · obtain rfl := Option.some.inj h
      exact Or.inl rfl
    · exact Or.inr ⟨_, hperform _ s.displayed h, fun he => absurd rfl (he indexPath)⟩

/-- Everything but a delete button keeps the tasks in the list. -/
theorem Coherent.mem_todos {s s' : TodoScreen Data} (hs : s.Coherent) {e : ScreenEvent}
    {faults : Faults} (h : TodoScreen.step coder s (e, faults) = some s')
    (he : ∀ indexPath, e ≠ .deleteButtonTapped indexPath) {t : Todo} (ht : t ∈ s.todos) :
    t.id ∈ s'.todos.map Todo.id := by
  rcases controller_of_step h with heq | ⟨l, hstep, hl⟩
  · rw [todos, heq]
    exact List.mem_map_of_mem ht
  · exact (TodoListViewController.step_cases coder hstep).mem_todos hs.consistent (hl he) ht

end

/-- A displayed cell agrees with the stored task that it shows, and it shows a stored task unless
the list has changed since the last layout.  A task that leaves the list is done, and leaves it by
a tap on the visible delete button of the cell that shows it. -/
theorem only_done_deleted (coder : Coder (List Todo) Data) {past : List (ScreenEvent × Faults)}
    {s : TodoScreen Data} (h : (system coder).Run past s) :
    (∀ indexPath cell, s.displayed indexPath = some cell →
      ∃ handler todo, s.ShownAt indexPath cell handler todo ∧
        (∀ t ∈ s.todos, t.id = todo.id →
          cell.checkButtonSelected = t.isDone ∧ cell.deleteButtonHidden = !t.isDone) ∧
        (s.controller.needsReload = false → todo ∈ s.todos)) ∧
    ∀ e faults s', step coder s (e, faults) = some s' →
      (∀ t ∈ s.todos, t.id ∉ s'.todos.map Todo.id →
        t.isDone = true ∧ ∃ indexPath, e = .deleteButtonTapped indexPath) ∧
      ∀ indexPath, e = .deleteButtonTapped indexPath →
        ∃ cell handler todo, s.ShownAt indexPath cell handler todo ∧
          s'.controller.app = App.deleteTodo coder faults s.controller.app todo ∧
          (∀ t ∈ s.todos, t.id = todo.id → t.isDone = true) ∧
          (s.controller.needsReload = false → todo ∈ s.todos) := by
  have hs := coherent_of_run h
  have hmem : ∀ indexPath cell handler todo, s.ShownAt indexPath cell handler todo →
      s.controller.needsReload = false → todo ∈ s.todos := by
    intro indexPath cell handler todo hshown hreload
    obtain ⟨hitem, -⟩ := hs.current hreload _ _ _ _ hshown
    exact (mem_sectionTodos.1 (List.mem_of_getElem? hitem)).1
  refine ⟨fun indexPath cell hcell => ?_, fun e faults s' hstep => ⟨fun t ht hgone => ?_, ?_⟩⟩
  · obtain ⟨handler, todo, hshown⟩ := hs.made _ _ hcell
    refine ⟨handler, todo, hshown, fun t ht hid => ?_, hmem _ _ _ _ hshown⟩
    obtain rfl := hs.stored _ _ _ _ hshown t ht hid
    have hlooks := hs.looks _ _ _ _ hshown
    exact ⟨hlooks.checkButtonSelected, hlooks.deleteButtonHidden⟩
  · by_cases he : ∃ indexPath, e = .deleteButtonTapped indexPath
    · refine ⟨?_, he⟩
      obtain ⟨indexPath, rfl⟩ := he
      obtain ⟨cell, handler, todo, hshown, hdone, happ⟩ := hs.deleteTodo hstep
      -- the task that is gone is the one shown
      by_cases hid : t.id = todo.id
      · obtain rfl := hs.stored _ _ _ _ hshown t ht hid
        exact hdone
      · refine absurd (List.mem_map_of_mem ?_) hgone
        rw [todos, TodoListViewController.todos, happ, manager_deleteTodo]
        exact List.mem_filter.2 ⟨ht, decide_eq_true hid⟩
    · exact absurd (hs.mem_todos hstep (not_exists.1 he) ht) hgone
  · rintro indexPath rfl
    obtain ⟨cell, handler, todo, hshown, hdone, happ⟩ := hs.deleteTodo hstep
    refine ⟨cell, handler, todo, hshown, happ, fun t ht hid => ?_, hmem _ _ _ _ hshown⟩
    obtain rfl := hs.stored _ _ _ _ hshown t ht hid
    exact hdone

/-- A task is ticked and its cell made again out of the used one: its delete button is visible. -/
theorem only_done_deleted_ticked :
    ∃ s : TodoScreen Json, s.todos = [⟨1, true, "milk", false⟩] ∧
      (∃ cell, s.displayed ⟨1, 0⟩ = some cell ∧ cell.deleteButtonHidden = false) ∧
      ∀ indexPath cell, s.displayed indexPath = some cell →
        ∃ handler todo, s.ShownAt indexPath cell handler todo ∧
          (∀ t ∈ s.todos, t.id = todo.id →
            cell.checkButtonSelected = t.isDone ∧ cell.deleteButtonHidden = !t.isDone) ∧
          (s.controller.needsReload = false → todo ∈ s.todos) := by
  have h : ∃ s, (system todosCoder.toCoder).Run
      [(.cellForItemAt ⟨1, 0⟩ (some { checkButtonSelected := false }), .none), (.layout, .none),
        (.checkButtonTapped ⟨1, 0⟩, .none), (.cellForItemAt ⟨1, 0⟩ none, .none), (.layout, .none),
        (.addTaskButtonTapped, .none), (.inputTextField (some "milk"), .none)] s ∧
      s.todos = [⟨1, true, "milk", false⟩] ∧
      ∃ cell, s.displayed ⟨1, 0⟩ = some cell ∧ cell.deleteButtonHidden = false :=
    ⟨_, .step (.step (.step (.step (.step (.step (.step (.start ⟨_, ⟨∅, .none,
      App.leftByProgram_empty todosCoder.toCoder, rfl⟩, rfl⟩) rfl) rfl) rfl) rfl) rfl) rfl) rfl,
      by decide, _, rfl, rfl⟩
  obtain ⟨s, hrun, htodos, hcell⟩ := h
  exact ⟨s, htodos, hcell, (only_done_deleted todosCoder.toCoder hrun).1⟩

end TodoScreen

end PracticeSwift.TodoList
