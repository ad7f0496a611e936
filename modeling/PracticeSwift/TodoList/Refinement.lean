import PracticeSwift.Library.OrderedMap
import PracticeSwift.TodoList.Durability
import PracticeSwift.TodoList.Identity

/-!
# The manager refines an insertion-ordered map

What `TodoManager` is for: an insertion-ordered finite map from identifiers to tasks (`taskMap`).
Updates go through `firstIndex`, which compares identifiers, and deletions through a filter that
drops every task with the identifier; both are operations of one map because identifiers are
unique in every reachable state, and a restart is the identity because memory and disk agree.
-/

open Foundation FileManager Transition

namespace PracticeSwift.TodoList

/-- What is known of a task besides its identifier. -/
structure Task where
  isDone : Bool
  detail : String
  isToday : Bool
  deriving DecidableEq

def Todo.task (todo : Todo) : Task := ⟨todo.isDone, todo.detail, todo.isToday⟩

def Todo.entry (todo : Todo) : Int64 × Task := (todo.id, todo.task)

theorem Todo.entry_injective : Function.Injective Todo.entry := by
  rintro ⟨⟩ ⟨⟩ h
  simp only [Todo.entry, Todo.task, Prod.mk.injEq, Task.mk.injEq] at h
  obtain ⟨rfl, rfl, rfl, rfl⟩ := h
  rfl

/-- The operations of the map: a new task gets some unused key and is not done. -/
inductive TaskStep : OrderedMap Int64 Task → Operation → OrderedMap Int64 Task → Prop
  | create {m : OrderedMap Int64 Task} {detail : String} {isToday : Bool} (id : Int64)
      (fresh : id ∉ m.keys) :
      TaskStep m (.create detail isToday) (m.insertLast id ⟨false, detail, isToday⟩ fresh)
  | update {m : OrderedMap Int64 Task} {todo : Todo} :
      TaskStep m (.update todo) (m.replace todo.id todo.task)
  | delete {m : OrderedMap Int64 Task} {todo : Todo} : TaskStep m (.delete todo) (m.erase todo.id)
  | restart {m : OrderedMap Int64 Task} : TaskStep m .restart m
  | retrieve {m : OrderedMap Int64 Task} : TaskStep m .retrieve m

/-- The abstract task list. -/
def taskMap : System (OrderedMap Int64 Task) Operation where
  start m := m = .empty
  step := TaskStep

namespace App

variable {Data : Type}

/-- The map holds the tasks in memory, in order. -/
def Represents (app : App Data) (m : OrderedMap Int64 Task) : Prop :=
  m.entries = app.manager.todos.map Todo.entry

theorem Represents.keys {app : App Data} {m : OrderedMap Int64 Task} (h : Represents app m) :
    m.keys = app.manager.todos.map Todo.id := by
  rw [OrderedMap.keys, h, List.map_map]
  rfl

theorem Represents.mem_iff {app : App Data} {m : OrderedMap Int64 Task} (h : Represents app m)
    (t : Todo) : t.entry ∈ m.entries ↔ t ∈ app.manager.todos := by
  rw [h, List.mem_map_of_injective Todo.entry_injective]

/-- Writing the fields of `todo` at the index found for it is a replacement in the map. -/
theorem Represents.update {app : App Data} {m : OrderedMap Int64 Task} (h : Represents app m)
    {todo : Todo} {index : ℕ} (found : firstIndex app.manager.todos todo = some index) :
    (m.replace todo.id todo.task).entries =
      (app.manager.todos.modify index fun t =>
        t.update todo.isDone todo.detail todo.isToday).map Todo.entry := by
  obtain ⟨hi, hid⟩ := id_of_firstIndex found
  have he : m.entries = app.manager.todos.map Todo.entry := h
  have hi' : index < m.entries.length := by rw [he, List.length_map]; exact hi
  have hkey : (m.entries[index]).1 = todo.id := by
    simp only [he, List.getElem_map]
    exact hid
  rw [← hkey, m.entries_replace _ hi', hkey]
  refine List.ext_getElem (by simp [he]) fun i h₁ h₂ => ?_
  simp only [he, List.getElem_set, List.getElem_map, List.getElem_modify]
  split_ifs with hij
  · subst hij
    exact Prod.ext hid.symm rfl
  · rfl

/-- An edit of the memory is the same operation of the map. -/
theorem Edited.simulated {app : App Data} {manager : TodoManager} {op : Operation}
    (h : Edited app.manager op manager) {m : OrderedMap Int64 Task} (hm : Represents app m)
    (hid : app.manager.Identified) (disk : Storage.Disk Data) :
    ∃ m', TaskStep m op m' ∧ Represents ⟨manager, disk⟩ m' := by
  cases h with
  | @create detail isToday nextId next =>
    have fresh : nextId ∉ m.keys := by
      rw [hm.keys, List.mem_map]
      rintro ⟨t, ht, heq⟩
      have hlt := Int64.lt_of_le_of_lt (hid.le_lastId t ht) (lt_of_checkedAdd_one next)
      exact Int64.ne_of_lt hlt heq
    refine ⟨_, .create nextId fresh, ?_⟩
    show m.entries ++ _ = _
    rw [hm, List.map_append]
    rfl
  | update found => exact ⟨_, .update, hm.update found⟩
  | @delete todo =>
    refine ⟨_, .delete, ?_⟩
    show m.entries.filter _ = _
    rw [hm, List.filter_map]
    refine congrArg _ (List.filter_congr fun t _ => ?_)
    by_cases ht : t.id = todo.id <;> simp [Todo.entry, ht]

/-- What an operation does to the tasks: an update changes the task with the given identifier and
no other, and no position; a deletion removes at most one task and moves none. -/
def Effect (app app' : App Data) : Operation → Prop
  | .create detail isToday => ∃ id, id ∉ app.manager.todos.map Todo.id ∧
      app'.manager.todos = app.manager.todos ++ [⟨id, false, detail, isToday⟩]
  | .update todo =>
      app'.manager.todos.map Todo.id = app.manager.todos.map Todo.id ∧
      (∀ t : Todo, t.id ≠ todo.id → (t ∈ app'.manager.todos ↔ t ∈ app.manager.todos)) ∧
      (todo.id ∈ app.manager.todos.map Todo.id → todo ∈ app'.manager.todos)
  | .delete todo =>
      app'.manager.todos = app.manager.todos.filter (fun t => t.id ≠ todo.id) ∧
      app.manager.todos.length ≤ app'.manager.todos.length + 1
  | .restart | .retrieve => app'.manager.todos = app.manager.todos

/-- Between states that represent the two maps of a step, the tasks change as the step says. -/
theorem effect_of_taskStep {app app' : App Data} {m m' : OrderedMap Int64 Task} {op : Operation}
    (hm : Represents app m) (hm' : Represents app' m') (h : TaskStep m op m') :
    Effect app app' op := by
  have injective : Function.Injective (List.map Todo.entry) :=
    List.map_injective_iff.2 Todo.entry_injective
  cases h with
  | @create detail isToday id fresh =>
    refine ⟨id, hm.keys ▸ fresh, injective ?_⟩
    rw [← hm', List.map_append, ← hm]
    rfl
  | @update todo =>
    refine ⟨?_, fun t ht => ?_, fun hid => ?_⟩
    · rw [← hm'.keys, OrderedMap.keys_replace, hm.keys]
    · rw [← hm'.mem_iff, ← hm.mem_iff]
      exact m.mem_replace_of_ne todo.task ht
    · rw [← hm'.mem_iff]
      exact m.mem_replace_self todo.task (hm.keys ▸ hid)
  | @delete todo =>
    have hlist : app'.manager.todos = app.manager.todos.filter (fun t => t.id ≠ todo.id) := by
      refine injective ?_
      rw [← hm']
      show m.entries.filter _ = _
      rw [hm, List.filter_map]
      rfl
    refine ⟨hlist, ?_⟩
    have hlen := m.length_le_length_erase_add_one todo.id
    rwa [hm', hm, List.length_map, List.length_map] at hlen
  | restart => exact injective (hm'.symm.trans hm)
  | retrieve => exact injective (hm'.symm.trans hm)

/-- The relation along which the manager is simulated by the map. -/
structure Simulated (coder : Coder (List Todo) Data) (app : App Data)
    (m : OrderedMap Int64 Task) : Prop where
  represents : Represents app m
  safe : Safe coder app
  onDisk : OnDisk coder app

theorem Simulated.perform {coder : TotalCoder (List Todo) Data} {app app' : App Data}
    {m : OrderedMap Int64 Task} {op : Operation} (h : Simulated coder.toCoder app m)
    (hop : App.perform coder.toCoder .none app op = some app') :
    ∃ m', TaskStep m op m' ∧ Simulated coder.toCoder app' m' := by
  obtain ⟨m', hstep, hm'⟩ : ∃ m', TaskStep m op m' ∧ Represents app' m' := by
    rcases perform_cases _ _ hop with
      ⟨manager, hedit, rfl⟩ | ⟨todo, rfl, found, rfl⟩ | ⟨hload, rfl⟩
    · exact hedit.simulated h.represents h.safe.identified _
    · refine ⟨_, .update, ?_⟩
      rw [m.replace_of_notMem _ (h.represents.keys ▸ firstIndex_eq_none_iff.1 found)]
      exact h.represents
    · refine ⟨m, ?_, h.represents.trans (congrArg _ h.onDisk.todos_retrieveTodo.symm)⟩
      rcases hload with rfl | rfl
      · exact .restart
      · exact .retrieve
  exact ⟨m', hstep, hm', h.safe.perform hop, h.onDisk.perform hop⟩

theorem simulates_taskMap (coder : TotalCoder (List Todo) Data) :
    (session coder.toCoder fun disk => contents disk file = none).Simulates taskMap id
      (Simulated coder.toCoder) where
  start := by
    rintro _ ⟨disk, hdisk, rfl⟩
    have hsafe := safe_retrieveTodo coder.toCoder .none (safe_launch coder.toCoder hdisk)
    refine ⟨.empty, rfl, ?_, hsafe, onDisk_retrieveTodo _ fun data hdata => ?_⟩
    · have hnone := Storage.retrive_of_absent coder.toCoder disk .documets "todos.json" .none hdisk
      simp only [Represents, retrieveTodo, launch, hnone]
      rfl
    · exact absurd (hdisk.symm.trans hdata) (by simp)
  step _ _ _ _ h hop := h.perform hop

/-- Every run of the manager from an empty store is the same run of the map, and every operation
on every state it reaches, with any argument, is the map's operation: it has the `Effect` of the
operation on the tasks, and an update of an unknown task changes neither tasks nor file. -/
theorem manager_refines_map (coder : TotalCoder (List Todo) Data) {past : List Operation}
    {app : App Data}
    (h : (session coder.toCoder fun disk => contents disk file = none).Run past app) :
    ∃ m, taskMap.Run past m ∧ Represents app m ∧
      ∀ op app', perform coder.toCoder .none app op = some app' →
        (∃ m', TaskStep m op m' ∧ Represents app' m') ∧ Effect app app' op ∧
          ∀ todo, op = .update todo → todo.id ∉ app.manager.todos.map Todo.id → app' = app := by
  obtain ⟨m, hrun, hm⟩ := (simulates_taskMap coder).run h
  rw [List.map_id] at hrun
  refine ⟨m, hrun, hm.represents, fun op app' hop => ?_⟩
  obtain ⟨m', hstep, hm'⟩ := hm.perform hop
  refine ⟨⟨m', hstep, hm'.represents⟩,
    effect_of_taskStep hm.represents hm'.represents hstep, ?_⟩
  rintro todo rfl hid
  have hnone := firstIndex_eq_none_iff.2 hid
  simp only [App.perform, updateTodo, hnone, Option.some.injEq] at hop
  exact hop.symm

/-- After adding two tasks, ticking the first and restarting, the map holds both in order. -/
theorem manager_refines_map_ticked :
    ∃ app m, taskMap.Run
        [.restart, .update ⟨1, true, "milk", true⟩, .create "bread" false, .create "milk" true] m ∧
      Represents app m ∧ m.entries = [(1, ⟨true, "milk", true⟩), (2, ⟨false, "bread", false⟩)] ∧
      ∀ op app', perform todosCoder.toCoder .none app op = some app' →
        (∃ m', TaskStep m op m' ∧ Represents app' m') ∧ Effect app app' op ∧
          ∀ todo, op = .update todo → todo.id ∉ app.manager.todos.map Todo.id → app' = app := by
  have h : ∃ app, (session todosCoder.toCoder fun disk => contents disk file = none).Run
      [.restart, .update ⟨1, true, "milk", true⟩, .create "bread" false, .create "milk" true]
      app ∧ app.manager.todos = [⟨1, true, "milk", true⟩, ⟨2, false, "bread", false⟩] :=
    ⟨_, .step (.step (.step (.step (.start ⟨∅, rfl, rfl⟩) rfl) rfl) rfl) rfl, by decide⟩
  obtain ⟨app, hrun, htodos⟩ := h
  obtain ⟨m, hm, hrep, hops⟩ := manager_refines_map todosCoder hrun
  exact ⟨app, m, hm, hrep, by rw [hrep, htodos]; rfl, hops⟩

end App

end PracticeSwift.TodoList
