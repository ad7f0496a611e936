import PracticeSwift.TodoList.Todo

/-!
# Durability of the todo store

Memory and disk hold two copies of the tasks.  Without failures they agree after every operation:
an operation that edits the memory saves it, an update of an unknown task touches neither, and a
load makes the memory equal to the file (`OnDisk.perform`).  A restart therefore loses nothing.
-/

open Foundation FileManager

namespace PracticeSwift.TodoList

namespace App

variable {Data : Type}

/-- The file decodes to the tasks in memory, or there is no file and no task. -/
def OnDisk (coder : Coder (List Todo) Data) (app : App Data) : Prop :=
  match contents app.disk file with
  | none => app.manager.todos = []
  | some data => coder.decode data = some app.manager.todos

/-- `todos.json` is absent or was written by the program. -/
def WrittenByProgram (coder : Coder (List Todo) Data) (disk : Storage.Disk Data) : Prop :=
  contents disk file = none ∨
    ∃ todos data, coder.encode todos = some data ∧ contents disk file = some data

theorem onDisk_saveTodo (coder : TotalCoder (List Todo) Data) (app : App Data) :
    OnDisk coder.toCoder (saveTodo coder.toCoder .none app) := by
  obtain ⟨data, hdata⟩ := coder.encodes app.manager.todos
  have hfile : contents (saveTodo coder.toCoder .none app).disk file = some data :=
    Storage.contents_store coder.toCoder app.disk _ _ _ hdata
  unfold OnDisk
  rw [hfile]
  exact coder.decode_encode hdata

/-- Loading a file that decodes, or no file, makes memory and disk agree. -/
theorem onDisk_retrieveTodo (coder : Coder (List Todo) Data) {app : App Data}
    (h : ∀ data, contents app.disk file = some data → ∃ todos, coder.decode data = some todos) :
    OnDisk coder (retrieveTodo coder .none app) := by
  unfold OnDisk
  show match contents app.disk file with
    | none => (retrieveTodo coder .none app).manager.todos = []
    | some data => coder.decode data = some (retrieveTodo coder .none app).manager.todos
  cases hdata : contents app.disk file with
  | none => exact todos_retrieveTodo_of_absent coder .none app hdata
  | some data =>
    obtain ⟨todos, htodos⟩ := h data hdata
    exact htodos.trans (congrArg some
      (todos_retrieveTodo_of_contents coder app hdata htodos).symm)

theorem OnDisk.decodes {coder : Coder (List Todo) Data} {app : App Data} (h : OnDisk coder app)
    {data : Data} (hdata : contents app.disk file = some data) :
    coder.decode data = some app.manager.todos := by
  unfold OnDisk at h
  rwa [hdata] at h

/-- When memory and disk agree, loading the file brings back the tasks in memory. -/
theorem OnDisk.todos_retrieveTodo {coder : Coder (List Todo) Data} {app : App Data}
    (h : OnDisk coder app) :
    (retrieveTodo coder .none app).manager.todos = app.manager.todos := by
  cases hdata : contents app.disk file with
  | none =>
    unfold OnDisk at h
    rw [hdata] at h
    rw [todos_retrieveTodo_of_absent coder .none app hdata]
    exact h.symm
  | some data => exact todos_retrieveTodo_of_contents coder app hdata (h.decodes hdata)

/-- Every operation keeps memory and disk in agreement. -/
theorem OnDisk.perform {coder : TotalCoder (List Todo) Data} {app app' : App Data}
    {op : Operation} (h : OnDisk coder.toCoder app)
    (hop : App.perform coder.toCoder .none app op = some app') : OnDisk coder.toCoder app' := by
  rcases perform_cases _ _ hop with ⟨manager, -, rfl⟩ | ⟨-, -, -, rfl⟩ | ⟨-, rfl⟩
  · exact onDisk_saveTodo coder _
  · exact h
  · exact onDisk_retrieveTodo _ fun data hdata => ⟨_, h.decodes hdata⟩

/-- Along every run memory and disk agree. -/
theorem onDisk_of_run (coder : TotalCoder (List Todo) Data) {past : List Operation}
    {app : App Data} (h : (session coder.toCoder (WrittenByProgram coder.toCoder)).Run past app) :
    OnDisk coder.toCoder app := by
  refine h.preserves ?_ fun _ _ _ => OnDisk.perform
  rintro _ ⟨disk, hdisk, rfl⟩
  refine onDisk_retrieveTodo _ fun data hdata => ?_
  rcases hdisk with habsent | ⟨todos, data', hencode, hdata'⟩
  · exact absurd (habsent.symm.trans hdata) (by simp)
  · obtain rfl := Option.some.inj (hdata'.symm.trans hdata)
    exact ⟨todos, coder.decode_encode hencode⟩

/-- After every step of every run the file decodes to the tasks in memory, and a restart at that
point restores them. -/
theorem todos_durable (coder : TotalCoder (List Todo) Data) {past : List Operation}
    {app : App Data} (h : (session coder.toCoder (WrittenByProgram coder.toCoder)).Run past app) :
    OnDisk coder.toCoder app ∧
      ∃ restarted, perform coder.toCoder .none app .restart = some restarted ∧
        restarted.manager.todos = app.manager.todos := by
  have hdisk := onDisk_of_run coder h
  exact ⟨hdisk, _, rfl, hdisk.todos_retrieveTodo⟩

/-- Two tasks, one of them ticked off, survive a restart. -/
theorem todos_durable_ticked :
    ∃ app, OnDisk todosCoder.toCoder app ∧
      app.manager.todos = [⟨1, true, "milk", true⟩, ⟨2, false, "bread", false⟩] ∧
      ∃ restarted, perform todosCoder.toCoder .none app .restart = some restarted ∧
        restarted.manager.todos = app.manager.todos := by
  have h : ∃ app, (session todosCoder.toCoder (WrittenByProgram todosCoder.toCoder)).Run
      [.update ⟨1, true, "milk", true⟩, .create "bread" false, .create "milk" true] app ∧
      app.manager.todos = [⟨1, true, "milk", true⟩, ⟨2, false, "bread", false⟩] :=
    ⟨_, .step (.step (.step (.start ⟨∅, Or.inl rfl, rfl⟩) rfl) rfl) rfl, by decide⟩
  obtain ⟨app, hrun, htodos⟩ := h
  obtain ⟨hdisk, hrestart⟩ := todos_durable todosCoder hrun
  exact ⟨app, hdisk, htodos, hrestart⟩

end App

end PracticeSwift.TodoList
