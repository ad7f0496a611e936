import PracticeSwift.TodoList.Identity
import PracticeSwift.TodoList.Sections

/-!
# Cells and their handlers

A cell carries two handlers that share one variable: the task as it was when the cell was made.  A
handler may run much later, over a list that has changed.  It acts on the task with the identifier
of its variable and on nothing else: identifiers are unique, none is given twice by one process, and
no operation of the screen changes what a task says, so that the variable never disagrees with the
list on that (`Agrees`).
-/

open Foundation FileManager Transition

namespace PracticeSwift.TodoList

/-- The screen of a running process: the input fields, the variables captured by the handlers of
the cells made so far, and whether `reloadData` was called since the last layout. -/
structure TodoListViewController (Data : Type) where
  app : App Data
  inputText : Option String := some ""
  isTodaySelected : Bool := false
  captured : List Todo := []
  needsReload : Bool := false

inductive ListEvent
  | inputTextField (text : Option String)
  | isTodayButtonTapped
  | addTaskButtonTapped
  | cellForItemAt (sectionIndex item : ℕ)
  /-- The done handler of the cell made by the call of `cellForItemAt` with this number. -/
  | doneButtonTapHandler (handler : ℕ) (isDone : Bool)
  | deleteButtonTapHandler (handler : ℕ)
  /-- The collection view lays itself out. -/
  | layout

namespace TodoListViewController

variable {Data : Type}

/-- `todoListViewModel.todos` -/
abbrev todos (s : TodoListViewController Data) : List Todo := s.app.manager.todos

/-- The task of a cell; `none` is the trap of an index out of range. -/
def cellForItemAt (s : TodoListViewController Data) (sectionIndex item : ℕ) : Option Todo :=
  if sectionIndex = 0 then (todayTodos s.todos)[item]? else (upcomingTodos s.todos)[item]?

variable (coder : Coder (List Todo) Data)

def addTaskButtonTapped (faults : Faults) (s : TodoListViewController Data) :
    Option (TodoListViewController Data) :=
  match s.inputText with
  | none => some s
  | some detail =>
    if detail.isEmpty then some s
    else do
      let app ← App.createThenAdd coder faults s.app detail s.isTodaySelected
      return { s with app, needsReload := true, inputText := some "", isTodaySelected := false }

def doneButtonTapHandler (faults : Faults) (s : TodoListViewController Data) (handler : ℕ)
    (isDone : Bool) : Option (TodoListViewController Data) := do
  let todo ← s.captured[handler]?
  let todo := { todo with isDone }
  return { s with
    app := App.updateTodo coder faults s.app todo
    captured := s.captured.set handler todo
    needsReload := true }

def deleteButtonTapHandler (faults : Faults) (s : TodoListViewController Data) (handler : ℕ) :
    Option (TodoListViewController Data) := do
  let todo ← s.captured[handler]?
  return { s with app := App.deleteTodo coder faults s.app todo, needsReload := true }

def step (s : TodoListViewController Data) :
    ListEvent × Faults → Option (TodoListViewController Data)
  | (.inputTextField text, _) => some { s with inputText := text }
  | (.isTodayButtonTapped, _) => some { s with isTodaySelected := !s.isTodaySelected }
  | (.addTaskButtonTapped, faults) => addTaskButtonTapped coder faults s
  | (.cellForItemAt sectionIndex item, _) =>
    (s.cellForItemAt sectionIndex item).map fun todo => { s with captured := s.captured ++ [todo] }
  | (.doneButtonTapHandler handler isDone, faults) =>
    doneButtonTapHandler coder faults s handler isDone
  | (.deleteButtonTapHandler handler, faults) => deleteButtonTapHandler coder faults s handler
  | (.layout, _) => some { s with needsReload := false }

/-- The runs of the screen from `viewDidLoad`, over whatever earlier launches left on disk. -/
def system : System (TodoListViewController Data) (ListEvent × Faults) where
  start s := ∃ disk faults, App.LeftByProgram coder disk ∧
    s = { app := App.retrieveTodo coder faults (App.launch disk) }
  step s e s' := step coder s e = some s'

/-- What a step does to the app and to the captured variables; it calls `reloadData` when it touches
the list. -/
inductive Step (s s' : TodoListViewController Data) : ListEvent → Prop
  | quiet (e : ListEvent) (app : s'.app = s.app) (captured : s'.captured = s.captured)
      (needsReload : s'.needsReload = s.needsReload ∨ e = .layout) : Step s s' e
  | created {nextId : Int64} {detail : String} {isToday : Bool}
      (next : checkedAdd s.app.manager.lastId 1 = some nextId)
      (manager : s'.app.manager = ⟨s.todos ++ [⟨nextId, false, detail, isToday⟩], nextId⟩)
      (captured : s'.captured = s.captured) (needsReload : s'.needsReload = true) :
      Step s s' .addTaskButtonTapped
  | made {sectionIndex item : ℕ} {shown : Todo}
      (found : (sectionTodos s.todos sectionIndex)[item]? = some shown) (app : s'.app = s.app)
      (captured : s'.captured = s.captured ++ [shown])
      (needsReload : s'.needsReload = s.needsReload) : Step s s' (.cellForItemAt sectionIndex item)
  | done {handler : ℕ} {isDone : Bool} {todo : Todo} {faults : Faults}
      (found : s.captured[handler]? = some todo)
      (app : s'.app = App.updateTodo coder faults s.app { todo with isDone })
      (captured : s'.captured = s.captured.set handler { todo with isDone })
      (needsReload : s'.needsReload = true) : Step s s' (.doneButtonTapHandler handler isDone)
  | deleted {handler : ℕ} {todo : Todo} {faults : Faults}
      (found : s.captured[handler]? = some todo)
      (app : s'.app = App.deleteTodo coder faults s.app todo) (captured : s'.captured = s.captured)
      (needsReload : s'.needsReload = true) : Step s s' (.deleteButtonTapHandler handler)

theorem cellForItemAt_eq (s : TodoListViewController Data) (sectionIndex item : ℕ) :
    s.cellForItemAt sectionIndex item = (sectionTodos s.todos sectionIndex)[item]? := by
  unfold cellForItemAt sectionTodos
  split_ifs <;> rfl

theorem step_cases {s s' : TodoListViewController Data} {e : ListEvent} {faults : Faults}
    (h : step coder s (e, faults) = some s') : Step coder s s' e := by
  cases e with
  | inputTextField text =>
    obtain rfl := Option.some.inj h
    exact .quiet _ rfl rfl (Or.inl rfl)
  | isTodayButtonTapped =>
    obtain rfl := Option.some.inj h
    exact .quiet _ rfl rfl (Or.inl rfl)
  | addTaskButtonTapped =>
    simp only [step, addTaskButtonTapped] at h
    split at h
    · obtain rfl := Option.some.inj h
      exact .quiet _ rfl rfl (Or.inl rfl)
    · split_ifs at h
      · obtain rfl := Option.some.inj h
        exact .quiet _ rfl rfl (Or.inl rfl)
      · simp only [App.createThenAdd, TodoManager.createTodo, Option.bind_eq_bind,
          Option.bind_eq_some_iff, Option.pure_def, Option.some.injEq] at h
        obtain ⟨_, ⟨_, ⟨nextId, next, rfl⟩, rfl⟩, rfl⟩ := h
        exact .created next rfl rfl rfl
  | cellForItemAt sectionIndex item =>
    simp only [step, cellForItemAt_eq] at h
    obtain ⟨shown, found, rfl⟩ := Option.map_eq_some_iff.1 h
    exact .made found rfl rfl rfl
  | doneButtonTapHandler handler isDone =>
    simp only [step, doneButtonTapHandler, Option.bind_eq_bind, Option.bind_eq_some_iff,
      Option.pure_def, Option.some.injEq] at h
    obtain ⟨todo, found, rfl⟩ := h
    exact .done found rfl rfl rfl
  | deleteButtonTapHandler handler =>
    simp only [step, deleteButtonTapHandler, Option.bind_eq_bind, Option.bind_eq_some_iff,
      Option.pure_def, Option.some.injEq] at h
    obtain ⟨todo, found, rfl⟩ := h
    exact .deleted found rfl rfl rfl
  | layout =>
    obtain rfl := Option.some.inj h
    exact .quiet _ rfl rfl (Or.inr rfl)

end TodoListViewController

/-! ## Variables and the list -/

/-- A captured task: its identifier has been given, and the task of the list that has it says the
same. -/
structure Agrees (manager : TodoManager) (shown : Todo) : Prop where
  le_lastId : shown.id ≤ manager.lastId
  same : ∀ t ∈ manager.todos, t.id = shown.id → t.detail = shown.detail ∧ t.isToday = shown.isToday

theorem Agrees.done {manager : TodoManager} {shown : Todo} (h : Agrees manager shown)
    (isDone : Bool) : Agrees manager { shown with isDone } where
  le_lastId := h.le_lastId
  same := h.same

theorem TodoManager.Identified.nodup {manager : TodoManager} (h : manager.Identified) :
    (manager.todos.map Todo.id).Nodup :=
  h.increasing.ids.imp Int64.ne_of_lt

section

variable {Data : Type} (coder : Coder (List Todo) Data) (faults : Faults)

/-- An update by a variable that agrees with the list sets one task done or not. -/
theorem manager_updateTodo {app : App Data} (h : app.manager.Identified) {todo : Todo}
    (hagrees : Agrees app.manager todo) :
    (App.updateTodo coder faults app todo).manager =
      { app.manager with todos := setDone todo.id todo.isDone app.manager.todos } := by
  unfold App.updateTodo
  cases hfound : firstIndex app.manager.todos todo with
  | none =>
    have hunknown : setDone todo.id todo.isDone app.manager.todos = app.manager.todos :=
      List.map_ite_key_of_notMem (firstIndex_eq_none_iff.1 hfound) _
    rw [hunknown]
  | some index =>
    obtain ⟨hi, hid⟩ := id_of_firstIndex hfound
    have hmodify := List.map_ite_key_eq_modify h.nodup hi fun t =>
      t.update todo.isDone todo.detail todo.isToday
    have hset : setDone todo.id todo.isDone app.manager.todos = app.manager.todos.modify index
        fun t => t.update todo.isDone todo.detail todo.isToday := by
      rw [← hmodify, hid]
      refine List.map_congr_left fun t ht => ?_
      split_ifs with heq
      · obtain ⟨hdetail, htoday⟩ := hagrees.same t ht heq
        rw [Todo.update, ← hdetail, ← htoday]
      · rfl
    rw [hset]
    rfl

theorem manager_deleteTodo (app : App Data) (todo : Todo) :
    (App.deleteTodo coder faults app todo).manager =
      { app.manager with todos := without todo.id app.manager.todos } := by
  have hfilter : (app.manager.todos.filter fun t => t.id != todo.id) =
      without todo.id app.manager.todos :=
    List.filter_congr fun t _ => by by_cases ht : t.id = todo.id <;> simp [ht]
  rw [← hfilter]
  rfl

end

/-! ## What the screen does to the list -/

/-- What a step of the screen can do to the tasks. -/
inductive Change (manager : TodoManager) : TodoManager → Prop
  | same : Change manager manager
  | created {nextId : Int64} (detail : String) (isToday : Bool)
      (next : checkedAdd manager.lastId 1 = some nextId) :
      Change manager ⟨manager.todos ++ [⟨nextId, false, detail, isToday⟩], nextId⟩
  | done (id : Int64) (isDone : Bool) :
      Change manager { manager with todos := setDone id isDone manager.todos }
  | deleted (id : Int64) : Change manager { manager with todos := without id manager.todos }

namespace Change

variable {manager manager' : TodoManager}

theorem identified (h : Change manager manager') (hm : manager.Identified) :
    manager'.Identified := by
  cases h with
  | same => exact hm
  | created detail isToday next => exact App.Edited.identified (.create next) hm
  | done id isDone =>
    have hids := map_id_setDone id isDone manager.todos
    refine ⟨hm.increasing.of_map_id hids, fun t ht => ?_⟩
    obtain ⟨t', ht', hid, -⟩ := mem_setDone ht
    exact hid ▸ hm.le_lastId t' ht'
  | deleted id =>
    exact ⟨hm.increasing.sublist List.filter_sublist,
      fun t ht => hm.le_lastId t (List.mem_of_mem_filter ht)⟩

/-- A captured task and the list never come to disagree. -/
theorem agrees (h : Change manager manager') {shown : Todo} (hs : Agrees manager shown) :
    Agrees manager' shown := by
  cases h with
  | same => exact hs
  | created detail isToday next =>
    have hlt := lt_of_checkedAdd_one next
    refine ⟨Int64.le_trans hs.le_lastId (Int64.le_of_lt hlt), fun t ht hid => ?_⟩
    rcases List.mem_append.1 ht with ht | ht
    · exact hs.same t ht hid
    · -- the new identifier is beyond the captured one
      obtain rfl := List.mem_singleton.1 ht
      exact absurd hid.symm (Int64.ne_of_lt (Int64.lt_of_le_of_lt hs.le_lastId hlt))
  | done id isDone =>
    refine ⟨hs.le_lastId, fun t ht hid => ?_⟩
    obtain ⟨t', ht', hid', hdetail, htoday, -⟩ := mem_setDone ht
    rw [hdetail, htoday]
    exact hs.same t' ht' (hid' ▸ hid)
  | deleted id => exact ⟨hs.le_lastId, fun t ht => hs.same t (List.mem_of_mem_filter ht)⟩

/-- A task that is gone stays gone. -/
theorem notMem (h : Change manager manager') {id : Int64} (hle : id ≤ manager.lastId)
    (hgone : id ∉ manager.todos.map Todo.id) : id ∉ manager'.todos.map Todo.id := by
  cases h with
  | same => exact hgone
  | created detail isToday next =>
    have hlt := Int64.lt_of_le_of_lt hle (lt_of_checkedAdd_one next)
    rw [List.map_append, List.mem_append]
    rintro (hmem | hmem)
    · exact hgone hmem
    · exact Int64.ne_of_lt hlt (List.mem_singleton.1 hmem)
  | done id' isDone => exact (map_id_setDone id' isDone manager.todos).symm ▸ hgone
  | deleted id' => exact fun hmem => hgone ((List.filter_sublist.map Todo.id).subset hmem)

end Change

/-- A task of the list agrees with it. -/
theorem TodoManager.Identified.agrees {manager : TodoManager} (h : manager.Identified) {t : Todo}
    (ht : t ∈ manager.todos) : Agrees manager t where
  le_lastId := h.le_lastId t ht
  same t' ht' hid := by
    obtain rfl := List.inj_on_of_nodup_map h.nodup ht' ht hid
    exact ⟨rfl, rfl⟩

namespace TodoListViewController

variable {Data : Type} {coder : Coder (List Todo) Data}

/-- The list is identified, and every variable agrees with it. -/
structure Consistent (s : TodoListViewController Data) : Prop where
  identified : s.app.manager.Identified
  agrees : ∀ shown ∈ s.captured, Agrees s.app.manager shown

theorem Step.change {s s' : TodoListViewController Data} {e : ListEvent} (h : Step coder s s' e)
    (hs : s.Consistent) : Change s.app.manager s'.app.manager := by
  cases h with
  | quiet e app _ _ => exact app ▸ .same
  | created next manager _ _ => exact manager ▸ .created _ _ next
  | made _ app _ _ => exact app ▸ .same
  | @done _ isDone _ _ found app _ _ =>
    have hagrees := (hs.agrees _ (List.mem_of_getElem? found)).done isDone
    rw [app, manager_updateTodo coder _ hs.identified hagrees]
    exact .done _ _
  | deleted found app _ _ =>
    rw [app, manager_deleteTodo]
    exact .deleted _

theorem Step.consistent {s s' : TodoListViewController Data} {e : ListEvent}
    (h : Step coder s s' e) (hs : s.Consistent) : s'.Consistent where
  identified := (h.change hs).identified hs.identified
  agrees shown hmem := by
    refine (h.change hs).agrees ?_
    cases h with
    | quiet e _ captured _ => exact hs.agrees shown (captured ▸ hmem)
    | created _ _ captured _ => exact hs.agrees shown (captured ▸ hmem)
    | made found _ captured _ =>
      rw [captured, List.mem_append, List.mem_singleton] at hmem
      rcases hmem with hmem | rfl
      · exact hs.agrees shown hmem
      · exact hs.identified.agrees (mem_sectionTodos.1 (List.mem_of_getElem? found)).1
    | @done _ isDone _ _ found _ captured _ =>
      rw [captured] at hmem
      rcases List.mem_or_eq_of_mem_set hmem with hmem | rfl
      · exact hs.agrees shown hmem
      · exact (hs.agrees _ (List.mem_of_getElem? found)).done isDone
    | deleted _ _ captured _ => exact hs.agrees shown (captured ▸ hmem)

/-- Only a delete handler takes tasks out of the list. -/
theorem Step.mem_todos {s s' : TodoListViewController Data} {e : ListEvent} (h : Step coder s s' e)
    (hs : s.Consistent) (he : ∀ handler, e ≠ .deleteButtonTapHandler handler) {t : Todo}
    (ht : t ∈ s.todos) : t.id ∈ s'.todos.map Todo.id := by
  have hid : t.id ∈ s.todos.map Todo.id := List.mem_map_of_mem ht
  cases h with
  | quiet e app _ _ => rwa [todos, app]
  | created _ manager _ _ =>
    rw [todos, manager, List.map_append]
    exact List.mem_append_left _ hid
  | made _ app _ _ => rwa [todos, app]
  | @done _ isDone _ _ found app _ _ =>
    have hagrees := (hs.agrees _ (List.mem_of_getElem? found)).done isDone
    rw [todos, app, manager_updateTodo coder _ hs.identified hagrees]
    exact (map_id_setDone _ _ s.todos).symm ▸ hid
  | deleted _ _ _ _ => exact absurd rfl (he _)

/-- A handler's variable keeps what the task says. -/
theorem Step.captured_getElem? {s s' : TodoListViewController Data} {e : ListEvent}
    (h : Step coder s s' e) {handler : ℕ} {todo : Todo}
    (hfound : s.captured[handler]? = some todo) :
    ∃ isDone, s'.captured[handler]? = some { todo with isDone } := by
  cases h with
  | quiet e _ captured _ => exact ⟨todo.isDone, captured ▸ hfound⟩
  | created _ _ captured _ => exact ⟨todo.isDone, captured ▸ hfound⟩
  | made _ _ captured _ =>
    refine ⟨todo.isDone, ?_⟩
    rw [captured, List.getElem?_append_left (List.getElem?_eq_some_iff.1 hfound).1]
    exact hfound
  | @done handler' isDone _ _ found _ captured _ =>
    rw [captured, List.getElem?_set]
    split_ifs with heq hlt
    · subst heq
      obtain rfl := Option.some.inj (found.symm.trans hfound)
      exact ⟨isDone, rfl⟩
    · exact absurd (List.getElem?_eq_some_iff.1 found).1 (heq ▸ hlt)
    · exact ⟨todo.isDone, hfound⟩
  | deleted _ _ captured _ => exact ⟨todo.isDone, captured ▸ hfound⟩

theorem consistent_of_run {past : List (ListEvent × Faults)} {s : TodoListViewController Data}
    (h : (system coder).Run past s) : s.Consistent := by
  refine h.preserves ?_ fun _ (_, _) _ hs hstep => (step_cases coder hstep).consistent hs
  rintro _ ⟨disk, faults, hdisk, rfl⟩
  exact ⟨(App.safe_of_leftByProgram hdisk faults).identified,
    fun _ hmem => absurd hmem List.not_mem_nil⟩

/-! ## The handlers of a cell -/

/-- The handlers of the cell made `handler`-th act on the task with the identifier of `shown`: they
change nothing of it but `isDone`, and no other task, and change no task once it is gone. -/
structure ActsOnShown (coder : Coder (List Todo) Data) (s : TodoListViewController Data)
    (handler : ℕ) (shown : Todo) : Prop where
  done : ∀ faults isDone, ∃ s', step coder s (.doneButtonTapHandler handler isDone, faults) = some s' ∧
    s'.app.manager = { s.app.manager with todos := setDone shown.id isDone s.todos } ∧
    (shown.id ∉ s.todos.map Todo.id → s'.app = s.app)
  deleted : ∀ faults, ∃ s', step coder s (.deleteButtonTapHandler handler, faults) = some s' ∧
    s'.app.manager = { s.app.manager with todos := without shown.id s.todos } ∧
    (shown.id ∉ s.todos.map Todo.id → s'.app.manager = s.app.manager)

/-- The handlers of the cell made `handler`-th act on one item of one section. -/
structure ActsOnItem (coder : Coder (List Todo) Data) (s : TodoListViewController Data)
    (handler sectionIndex item : ℕ) : Prop where
  done : ∀ faults isDone, ∃ s', step coder s (.doneButtonTapHandler handler isDone, faults) = some s' ∧
    sectionTodos s'.todos sectionIndex =
      (sectionTodos s.todos sectionIndex).modify item (fun t => { t with isDone }) ∧
    ∀ other, (other = 0 ↔ sectionIndex ≠ 0) →
      sectionTodos s'.todos other = sectionTodos s.todos other
  deleted : ∀ faults, ∃ s', step coder s (.deleteButtonTapHandler handler, faults) = some s' ∧
    sectionTodos s'.todos sectionIndex = (sectionTodos s.todos sectionIndex).eraseIdx item ∧
    ∀ other, (other = 0 ↔ sectionIndex ≠ 0) →
      sectionTodos s'.todos other = sectionTodos s.todos other

theorem Consistent.actsOnShown {s : TodoListViewController Data} (hs : s.Consistent) {handler : ℕ}
    {shown : Todo} (found : ∃ isDone, s.captured[handler]? = some { shown with isDone }) :
    ActsOnShown coder s handler shown := by
  obtain ⟨wasDone, found⟩ := found
  have hagrees := hs.agrees _ (List.mem_of_getElem? found)
  constructor
  · intro faults isDone
    refine ⟨_, by rw [step, doneButtonTapHandler, found]; rfl, ?_, fun hgone => ?_⟩
    · exact manager_updateTodo coder faults hs.identified (hagrees.done isDone)
    · have hnone : firstIndex s.todos { shown with isDone } = none :=
        firstIndex_eq_none_iff.2 hgone
      show App.updateTodo coder faults s.app { shown with isDone } = s.app
      rw [App.updateTodo, hnone]
  · intro faults
    refine ⟨_, by rw [step, deleteButtonTapHandler, found]; rfl, ?_, fun hgone => ?_⟩
    · exact manager_deleteTodo coder faults s.app _
    · have hsame : without shown.id s.todos = s.todos := List.filter_key_ne_of_notMem hgone
      refine (manager_deleteTodo coder faults s.app _).trans ?_
      show ({ s.app.manager with todos := without shown.id s.todos } : TodoManager) = _
      rw [hsame]

/-- Acting on a task is acting on the item of its section that shows it. -/
theorem ActsOnShown.actsOnItem {s : TodoListViewController Data} {handler : ℕ} {shown : Todo}
    (h : ActsOnShown coder s handler shown) (hs : s.Consistent) {sectionIndex item : ℕ}
    (hshown : (sectionTodos s.todos sectionIndex)[item]? = some shown) :
    ActsOnItem coder s handler sectionIndex item := by
  constructor
  · intro faults isDone
    obtain ⟨s', hstep, hmanager, -⟩ := h.done faults isDone
    refine ⟨s', hstep, ?_⟩
    rw [todos, hmanager]
    exact sectionTodos_setDone hs.identified.nodup hshown isDone
  · intro faults
    obtain ⟨s', hstep, hmanager, -⟩ := h.deleted faults
    refine ⟨s', hstep, ?_⟩
    rw [todos, hmanager]
    exact sectionTodos_without hs.identified.nodup hshown

/-- In a run that continues another, a handler's variable keeps what the task says. -/
theorem captured_of_run {later : List (ListEvent × Faults)} {s s' : TodoListViewController Data}
    (h : ((system coder).after s).Run later s') {handler : ℕ} {shown : Todo}
    (found : s.captured[handler]? = some shown) :
    ∃ isDone, s'.captured[handler]? = some { shown with isDone } := by
  refine h.carries (I := fun s => ∃ isDone, s.captured[handler]? = some { shown with isDone })
    (fun _ (_, _) _ => ?_) ⟨shown.isDone, found⟩
  rintro ⟨_, hfound⟩ hstep
  obtain ⟨isDone, hfound⟩ := (step_cases coder hstep).captured_getElem? hfound
  exact ⟨isDone, hfound⟩

/-- A task that is gone stays gone. -/
theorem Consistent.notMem_of_run {later : List (ListEvent × Faults)}
    {s s' : TodoListViewController Data} (hs : s.Consistent)
    (h : ((system coder).after s).Run later s') {shown : Todo}
    (hagrees : Agrees s.app.manager shown) (hgone : shown.id ∉ s.todos.map Todo.id) :
    shown.id ∉ s'.todos.map Todo.id := by
  have hinv : s'.Consistent ∧ Agrees s'.app.manager shown ∧
      shown.id ∉ s'.todos.map Todo.id := by
    refine h.carries (I := fun s => s.Consistent ∧ Agrees s.app.manager shown ∧
      shown.id ∉ s.todos.map Todo.id) (fun _ (_, _) _ => ?_) ⟨hs, hagrees, hgone⟩
    rintro ⟨hs, hagrees, hgone⟩ hstep
    have hcases := step_cases coder hstep
    have hchange := hcases.change hs
    exact ⟨hcases.consistent hs, hchange.agrees hagrees, hchange.notMem hagrees.le_lastId hgone⟩
  exact hinv.2.2

/-- The sections partition the tasks; a cell can be made for each of their items, and its handlers
act on that item while the list is the one it was made from.  In every later state they act on the
task that was shown, and on none once that task is gone, which it stays. -/
theorem handlers_act_on_shown (coder : Coder (List Todo) Data)
    {past : List (ListEvent × Faults)} {s : TodoListViewController Data}
    (h : (system coder).Run past s) :
    Partitioned s.todos ∧
      ∀ sectionIndex item, item < numberOfItemsInSection s.todos sectionIndex →
        ∃ shown s₁, (sectionTodos s.todos sectionIndex)[item]? = some shown ∧
          (∀ faults, step coder s (.cellForItemAt sectionIndex item, faults) = some s₁) ∧
          s₁.app = s.app ∧ ActsOnItem coder s₁ s.captured.length sectionIndex item ∧
          ∀ later s₂, ((system coder).after s₁).Run later s₂ →
            ActsOnShown coder s₂ s.captured.length shown ∧
              (shown.id ∉ s₂.todos.map Todo.id →
                ∀ latest s₃, ((system coder).after s₂).Run latest s₃ →
                  shown.id ∉ s₃.todos.map Todo.id) := by
  have hs := consistent_of_run h
  refine ⟨partitioned_of_nodup hs.identified.nodup, fun sectionIndex item hitem => ?_⟩
  rw [← length_sectionTodos] at hitem
  have hshown := List.getElem?_eq_getElem hitem
  set shown := (sectionTodos s.todos sectionIndex)[item]
  let s₁ : TodoListViewController Data := { s with captured := s.captured ++ [shown] }
  have hmade : ∀ faults, step coder s (.cellForItemAt sectionIndex item, faults) = some s₁ := by
    intro faults
    rw [step, cellForItemAt_eq, hshown]
    rfl
  have hrun₁ : (system coder).Run ((.cellForItemAt sectionIndex item, .none) :: past) s₁ :=
    h.step (hmade .none)
  have hfound : s₁.captured[s.captured.length]? = some shown := List.getElem?_concat_length
  have hs₁ := consistent_of_run hrun₁
  have hacts : ActsOnShown coder s₁ s.captured.length shown :=
    hs₁.actsOnShown ⟨shown.isDone, hfound⟩
  refine ⟨shown, s₁, hshown, hmade, rfl, hacts.actsOnItem hs₁ hshown, fun later s₂ h₂ => ?_⟩
  have hs₂ := consistent_of_run (hrun₁.append h₂)
  have hkept := captured_of_run h₂ hfound
  refine ⟨hs₂.actsOnShown hkept, fun hgone latest s₃ h₃ => hs₂.notMem_of_run h₃ ?_ hgone⟩
  obtain ⟨isDone, hkept⟩ := hkept
  exact (hs₂.agrees _ (List.mem_of_getElem? hkept)).done shown.isDone

/-- With one task in each section, a cell made for the second section acts on the older task. -/
theorem handlers_act_on_shown_upcoming :
    ∃ s s₁ : TodoListViewController Json, Partitioned s.todos ∧
      sectionTodos s.todos 0 = [⟨2, false, "bread", true⟩] ∧
      sectionTodos s.todos 1 = [⟨1, false, "milk", false⟩] ∧
      step todosCoder.toCoder s (.cellForItemAt 1 0, .none) = some s₁ ∧
      ActsOnItem todosCoder.toCoder s₁ 0 1 0 ∧
      ActsOnShown todosCoder.toCoder s₁ 0 ⟨1, false, "milk", false⟩ := by
  have h : ∃ s, (system todosCoder.toCoder).Run
      [(.addTaskButtonTapped, .none), (.isTodayButtonTapped, .none),
        (.inputTextField (some "bread"), .none), (.addTaskButtonTapped, .none),
        (.inputTextField (some "milk"), .none)] s ∧
      s.todos = [⟨1, false, "milk", false⟩, ⟨2, false, "bread", true⟩] ∧ s.captured = [] :=
    ⟨_, .step (.step (.step (.step (.step (.start
      ⟨∅, .none, App.leftByProgram_empty todosCoder.toCoder, rfl⟩) rfl) rfl) rfl) rfl) rfl,
      by decide, rfl⟩
  obtain ⟨s, hrun, htodos, hcaptured⟩ := h
  obtain ⟨hpartitioned, hitems⟩ := handlers_act_on_shown todosCoder.toCoder hrun
  have hitem : 0 < numberOfItemsInSection s.todos 1 := by rw [htodos]; decide
  obtain ⟨shown, s₁, hshown, hmade, -, hitem, hlater⟩ := hitems 1 0 hitem
  have hone : sectionTodos s.todos 1 = [⟨1, false, "milk", false⟩] := by rw [htodos]; decide
  rw [hone] at hshown
  obtain rfl := Option.some.inj hshown
  rw [hcaptured] at hitem hlater
  exact ⟨s, s₁, hpartitioned, by rw [htodos]; decide, hone, hmade .none, hitem,
    (hlater [] s₁ (.start rfl)).1⟩

end TodoListViewController

end PracticeSwift.TodoList
