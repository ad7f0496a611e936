import PracticeSwift.Library.Json
import PracticeSwift.Library.Transition
import PracticeSwift.TodoList.Storage

/-!
# Todos and their manager

The data model of the todo app and `TodoManager`, which keeps the tasks and the last identifier in
memory and the tasks alone in `todos.json`.  A run of the app is a sequence of `Operation`s on the
memory and the disk together; a `restart` forgets the memory and loads the file again, as
`viewDidLoad` does.
-/

open Foundation FileManager Transition

namespace PracticeSwift.TodoList

/-- One task; `id` tells tasks apart. -/
structure Todo where
  id : Int64
  isDone : Bool
  detail : String
  isToday : Bool
  deriving DecidableEq

namespace Todo

/-- Everything but the identifier. -/
def update (todo : Todo) (isDone : Bool) (detail : String) (isToday : Bool) : Todo :=
  { todo with isDone, detail, isToday }

/-- `==` of `Equatable`: the identifiers alone are compared. -/
def equal (lhs rhs : Todo) : Bool := lhs.id == rhs.id

/-- `encode(to:)` of the synthesized `Codable`. -/
def encode (todo : Todo) : Json :=
  .object [("id", .ofInt todo.id), ("isDone", .bool todo.isDone), ("detail", .string todo.detail),
    ("isToday", .bool todo.isToday)]

/-- `init(from:)` of the synthesized `Codable`. -/
def decode (json : Json) : Option Todo := do
  let id ← (← json.field "id").int?
  let isDone ← (← json.field "isDone").bool?
  let detail ← (← json.field "detail").string?
  let isToday ← (← json.field "isToday").bool?
  return ⟨id, isDone, detail, isToday⟩

theorem decode_encode (todo : Todo) : decode (encode todo) = some todo := by
  simp [decode, encode, Json.field, List.lookup_cons, Json.bool?, Json.string?]

end Todo

/-- The coder of `[Todo]`, with JSON trees for the bytes of the file. -/
def todosCoder : TotalCoder (List Todo) Json :=
  Json.arrayCoder Todo.encode Todo.decode Todo.decode_encode

/-- The state of `TodoManager.shared` and of the static counter; these are the values at launch. -/
structure TodoManager where
  todos : List Todo := []
  lastId : Int64 := 0

/-- The manager of the running process, and the disk. -/
structure App (Data : Type) where
  manager : TodoManager
  disk : Storage.Disk Data

/-- `todos.firstIndex(of: todo)` -/
def firstIndex (todos : List Todo) (todo : Todo) : Option ℕ :=
  todos.findIdx? fun t => t.equal todo

theorem firstIndex_eq_none_iff {todos : List Todo} {todo : Todo} :
    firstIndex todos todo = none ↔ todo.id ∉ todos.map Todo.id := by
  simp only [firstIndex, List.findIdx?_eq_none_iff, Todo.equal, beq_eq_false_iff_ne, List.mem_map,
    not_exists, not_and, ne_eq]

theorem id_of_firstIndex {todos : List Todo} {todo : Todo} {index : ℕ}
    (h : firstIndex todos todo = some index) :
    ∃ hi : index < todos.length, todos[index].id = todo.id := by
  obtain ⟨hi, heq, -⟩ := List.findIdx?_eq_some_iff_getElem.1 h
  exact ⟨hi, by simpa [Todo.equal] using heq⟩

namespace TodoManager

/-- `none` when the counter overflows and the process traps. -/
def createTodo (manager : TodoManager) (detail : String) (isToday : Bool) :
    Option (Todo × TodoManager) := do
  let nextId ← checkedAdd manager.lastId 1
  return (⟨nextId, false, detail, isToday⟩, { manager with lastId := nextId })

end TodoManager

namespace App

variable {Data : Type} (coder : Coder (List Todo) Data) (faults : Faults)

/-- `todos.json` in the documents directory. -/
def file : URL Directory := Storage.url .documets "todos.json"

/-- A freshly launched process. -/
def launch (disk : Storage.Disk Data) : App Data := ⟨{}, disk⟩

def saveTodo (app : App Data) : App Data :=
  { app with disk := Storage.store coder faults app.disk app.manager.todos .documets "todos.json" }

def addTodo (app : App Data) (todo : Todo) : App Data :=
  saveTodo coder faults
    { app with manager := { app.manager with todos := app.manager.todos ++ [todo] } }

def deleteTodo (app : App Data) (todo : Todo) : App Data :=
  saveTodo coder faults
    { app with
      manager := { app.manager with todos := app.manager.todos.filter fun t => t.id != todo.id } }

def updateTodo (app : App Data) (todo : Todo) : App Data :=
  match firstIndex app.manager.todos todo with
  | none => app
  | some index =>
    saveTodo coder faults
      { app with
        manager :=
          { app.manager with
            todos := app.manager.todos.modify index fun t =>
              t.update todo.isDone todo.detail todo.isToday } }

def retrieveTodo (app : App Data) : App Data :=
  let todos := (Storage.retrive coder faults app.disk "todos.json" .documets).getD []
  let lastId := (todos.getLast?.map Todo.id).getD 0
  { app with manager := ⟨todos, lastId⟩ }

/-- `createTodo` followed by `addTodo` of its result, as `addTaskButtonTapped` does. -/
def createThenAdd (app : App Data) (detail : String) (isToday : Bool) : Option (App Data) := do
  let (todo, manager) ← app.manager.createTodo detail isToday
  return addTodo coder faults { app with manager } todo

end App

/-- What can happen to the app. -/
inductive Operation
  | create (detail : String) (isToday : Bool)
  | update (todo : Todo)
  | delete (todo : Todo)
  | restart
  | retrieve

namespace App

variable {Data : Type} (coder : Coder (List Todo) Data) (faults : Faults)

def perform (app : App Data) : Operation → Option (App Data)
  | .create detail isToday => createThenAdd coder faults app detail isToday
  | .update todo => some (updateTodo coder faults app todo)
  | .delete todo => some (deleteTodo coder faults app todo)
  | .restart => some (retrieveTodo coder faults (launch app.disk))
  | .retrieve => some (retrieveTodo coder faults app)

/-- How an operation that saves changes the memory. -/
inductive Edited : TodoManager → Operation → TodoManager → Prop
  | create {manager : TodoManager} {detail : String} {isToday : Bool} {nextId : Int64}
      (next : checkedAdd manager.lastId 1 = some nextId) :
      Edited manager (.create detail isToday)
        ⟨manager.todos ++ [⟨nextId, false, detail, isToday⟩], nextId⟩
  | update {manager : TodoManager} {todo : Todo} {index : ℕ}
      (found : firstIndex manager.todos todo = some index) :
      Edited manager (.update todo)
        { manager with
          todos := manager.todos.modify index fun t =>
            t.update todo.isDone todo.detail todo.isToday }
  | delete {manager : TodoManager} {todo : Todo} :
      Edited manager (.delete todo)
        { manager with todos := manager.todos.filter fun t => t.id != todo.id }

/-- An operation edits the memory and saves it, or does nothing because the task to update is
unknown, or loads the file. -/
theorem perform_cases {app app' : App Data} {op : Operation}
    (h : perform coder faults app op = some app') :
    (∃ manager, Edited app.manager op manager ∧
        app' = saveTodo coder faults ⟨manager, app.disk⟩) ∨
      (∃ todo, op = .update todo ∧ firstIndex app.manager.todos todo = none ∧ app' = app) ∨
      ((op = .restart ∨ op = .retrieve) ∧ app' = retrieveTodo coder faults app) := by
  cases op with
  | create detail isToday =>
    simp only [perform, createThenAdd, TodoManager.createTodo, Option.bind_eq_bind,
      Option.bind_eq_some_iff, Option.pure_def, Option.some.injEq] at h
    obtain ⟨_, ⟨nextId, next, rfl⟩, rfl⟩ := h
    exact Or.inl ⟨_, .create next, rfl⟩
  | update todo =>
    simp only [perform, Option.some.injEq] at h
    subst h
    unfold updateTodo
    cases found : firstIndex app.manager.todos todo with
    | none => exact Or.inr (Or.inl ⟨todo, rfl, found, rfl⟩)
    | some index => exact Or.inl ⟨_, .update found, rfl⟩
  | delete todo =>
    obtain rfl := Option.some.inj h
    exact Or.inl ⟨_, .delete, rfl⟩
  | restart =>
    obtain rfl := Option.some.inj h
    exact Or.inr (Or.inr ⟨Or.inl rfl, rfl⟩)
  | retrieve =>
    obtain rfl := Option.some.inj h
    exact Or.inr (Or.inr ⟨Or.inr rfl, rfl⟩)

/-- A load brings the tasks of the file. -/
theorem todos_retrieveTodo_of_contents (app : App Data) {data : Data} {todos : List Todo}
    (hdata : contents app.disk file = some data) (hdecode : coder.decode data = some todos) :
    (retrieveTodo coder .none app).manager.todos = todos := by
  simp only [retrieveTodo]
  rw [Storage.retrive_of_contents _ _ _ _ hdata, hdecode]
  rfl

/-- Without a file a load brings no task. -/
theorem todos_retrieveTodo_of_absent (app : App Data) (habsent : contents app.disk file = none) :
    (retrieveTodo coder faults app).manager.todos = [] := by
  simp only [retrieveTodo]
  rw [Storage.retrive_of_absent _ _ _ _ _ habsent]
  rfl

/-- The runs without failures from a launch on one of the given disks followed by `viewDidLoad`. -/
def session (disks : Storage.Disk Data → Prop) : System (App Data) Operation where
  start app := ∃ disk, disks disk ∧ app = retrieveTodo coder .none (launch disk)
  step app op app' := perform coder .none app op = some app'

/-- The runs from a launch without `todos.json` in which any call may fail. -/
def faultySession : System (App Data) (Operation × Faults) where
  start app := ∃ disk, contents disk file = none ∧ app = launch disk
  step app op app' := perform coder op.2 app op.1 = some app'

end App

end PracticeSwift.TodoList
