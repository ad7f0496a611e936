import PracticeSwift.TodoList.Todo

/-!
# Identity of tasks

`retrieveTodo` rebuilds the counter from the last task of the list alone, so that the next
identifier is fresh only because identifiers increase along the list.  That order is kept by every
operation in memory, and every file the program ever leaves on disk, however its calls fail, holds
an increasing list as well (`Safe.perform`).
-/

open Foundation FileManager

namespace PracticeSwift.TodoList

/-- The identifiers increase strictly along the list. -/
def Increasing (todos : List Todo) : Prop := todos.Pairwise fun a b => a.id < b.id

theorem Increasing.ids {todos : List Todo} (h : Increasing todos) :
    (todos.map Todo.id).Pairwise (· < ·) :=
  List.pairwise_map.2 h

theorem Increasing.append {todos : List Todo} {last : Int64} (h : Increasing todos)
    (hlast : ∀ t ∈ todos, t.id ≤ last) {todo : Todo} (hid : last < todo.id) :
    Increasing (todos ++ [todo]) := by
  refine List.pairwise_append.2 ⟨h, List.pairwise_singleton _ _, fun a ha b hb => ?_⟩
  obtain rfl := List.mem_singleton.1 hb
  exact Int64.lt_of_le_of_lt (hlast a ha) hid

/-- An update changes no identifier. -/
theorem map_id_modify (todos : List Todo) (index : ℕ) (isDone : Bool) (detail : String)
    (isToday : Bool) :
    (todos.modify index fun t => t.update isDone detail isToday).map Todo.id =
      todos.map Todo.id := by
  refine List.ext_getElem (by simp) fun i h₁ h₂ => ?_
  simp only [List.getElem_map, List.getElem_modify]
  split_ifs <;> rfl

theorem Increasing.of_map_id {todos todos' : List Todo} (h : Increasing todos)
    (hids : todos'.map Todo.id = todos.map Todo.id) : Increasing todos' := by
  have h' := h.ids
  rw [← hids] at h'
  exact List.pairwise_map.1 h'

/-- The counter that `retrieveTodo` rebuilds bounds every identifier of an increasing list. -/
theorem Increasing.le_lastId {todos : List Todo} (h : Increasing todos) {t : Todo}
    (ht : t ∈ todos) : t.id ≤ (todos.getLast?.map Todo.id).getD 0 := by
  obtain ⟨before, last, rfl⟩ := (List.eq_nil_or_concat' todos).resolve_left (List.ne_nil_of_mem ht)
  simp only [List.getLast?_append, List.getLast?_singleton, Option.some_or, Option.map_some,
    Option.getD_some]
  rcases List.mem_append.1 ht with hb | hl
  · exact Int64.le_of_lt ((List.pairwise_append.1 h).2.2 t hb last (List.mem_singleton.2 rfl))
  · obtain rfl := List.mem_singleton.1 hl
    exact Int64.le_refl _

/-- Increasing identifiers, none beyond the counter. -/
structure TodoManager.Identified (manager : TodoManager) : Prop where
  increasing : Increasing manager.todos
  le_lastId : ∀ t ∈ manager.todos, t.id ≤ manager.lastId

theorem TodoManager.lt_createTodo {manager manager' : TodoManager} {detail : String}
    {isToday : Bool} {todo : Todo}
    (h : manager.createTodo detail isToday = some (todo, manager')) :
    manager.lastId < todo.id := by
  simp only [TodoManager.createTodo, Option.bind_eq_bind, Option.bind_eq_some_iff,
    Option.pure_def, Option.some.injEq, Prod.mk.injEq] at h
  obtain ⟨nextId, next, rfl, -⟩ := h
  exact lt_of_checkedAdd_one next

namespace App

variable {Data : Type}

theorem Edited.identified {manager manager' : TodoManager} {op : Operation}
    (h : Edited manager op manager') (hm : manager.Identified) : manager'.Identified := by
  cases h with
  | create next =>
    have hlt := lt_of_checkedAdd_one next
    refine ⟨hm.increasing.append hm.le_lastId hlt, fun t ht => ?_⟩
    rcases List.mem_append.1 ht with ht | ht
    · exact Int64.le_trans (hm.le_lastId t ht) (Int64.le_of_lt hlt)
    · obtain rfl := List.mem_singleton.1 ht
      exact Int64.le_refl _
  | @update todo index found =>
    have hids := map_id_modify manager.todos index todo.isDone todo.detail todo.isToday
    refine ⟨hm.increasing.of_map_id hids, fun t ht => ?_⟩
    have hmem : t.id ∈ manager.todos.map Todo.id := hids ▸ List.mem_map_of_mem ht
    obtain ⟨t', ht', hid⟩ := List.mem_map.1 hmem
    rw [← hid]
    exact hm.le_lastId t' ht'
  | delete =>
    exact ⟨hm.increasing.sublist List.filter_sublist,
      fun t ht => hm.le_lastId t (List.mem_of_mem_filter ht)⟩

/-- The memory is identified, and so is whatever the file decodes to. -/
structure Safe (coder : Coder (List Todo) Data) (app : App Data) : Prop where
  identified : app.manager.Identified
  file : ∀ data, contents app.disk file = some data →
    ∃ todos, coder.decode data = some todos ∧ Increasing todos

theorem safe_launch (coder : Coder (List Todo) Data) {disk : Storage.Disk Data}
    (h : contents disk file = none) : Safe coder (launch disk) where
  identified := ⟨List.Pairwise.nil, fun t ht => absurd ht List.not_mem_nil⟩
  file data hdata := absurd (h.symm.trans hdata) (by simp)

/-- However the save ends, the file is the old one, the new one, or gone. -/
theorem safe_saveTodo (coder : Coder (List Todo) Data) (faults : Faults) {app : App Data}
    {manager : TodoManager} (h : Safe coder app) (hm : manager.Identified) :
    Safe coder (saveTodo coder faults ⟨manager, app.disk⟩) where
  identified := hm
  file data hdata := by
    rcases Storage.contents_store_cases coder app.disk manager.todos .documets "todos.json" faults
      with hold | hgone | ⟨data', hencode, hnew⟩
    · exact h.file data (hold.symm.trans hdata)
    · exact absurd (hgone.symm.trans hdata) (by simp)
    · obtain rfl := Option.some.inj (hnew.symm.trans hdata)
      exact ⟨manager.todos, coder.decode_encode hencode, hm.increasing⟩

/-- However the load ends, the memory is the list on file or empty, and the counter fits it. -/
theorem safe_retrieveTodo (coder : Coder (List Todo) Data) (faults : Faults) {app : App Data}
    (h : Safe coder app) : Safe coder (retrieveTodo coder faults app) where
  identified := by
    have hloaded : Increasing
        ((Storage.retrive coder faults app.disk "todos.json" .documets).getD []) := by
      rcases Storage.retrive_cases coder app.disk .documets "todos.json" faults
        with hnone | ⟨data, hdata, hdecode⟩
      · rw [hnone]
        exact List.Pairwise.nil
      · obtain ⟨todos, htodos, hinc⟩ := h.file data hdata
        rw [hdecode, htodos]
        exact hinc
    exact ⟨hloaded, fun t ht => hloaded.le_lastId ht⟩
  file := h.file

/-- Every operation keeps the app safe, whichever calls fail. -/
theorem Safe.perform {coder : Coder (List Todo) Data} {faults : Faults} {app app' : App Data}
    {op : Operation} (h : Safe coder app)
    (hop : App.perform coder faults app op = some app') : Safe coder app' := by
  rcases perform_cases _ _ hop with ⟨manager, hedit, rfl⟩ | ⟨-, -, -, rfl⟩ | ⟨-, rfl⟩
  · exact safe_saveTodo coder faults h (hedit.identified h.identified)
  · exact h
  · exact safe_retrieveTodo coder faults h

theorem safe_of_run (coder : Coder (List Todo) Data) {past : List (Operation × Faults)}
    {app : App Data} (h : (faultySession coder).Run past app) : Safe coder app := by
  refine h.preserves ?_ fun _ _ _ => Safe.perform
  rintro _ ⟨disk, hdisk, rfl⟩
  exact safe_launch coder hdisk

/-- What earlier launches of the program left on disk, whatever failed. -/
def LeftByProgram (coder : Coder (List Todo) Data) (disk : Storage.Disk Data) : Prop :=
  ∃ past app, (faultySession coder).Run past app ∧ app.disk = disk

theorem leftByProgram_empty (coder : Coder (List Todo) Data) : LeftByProgram coder ∅ :=
  ⟨[], launch ∅, .start ⟨∅, rfl, rfl⟩, rfl⟩

/-- The first load of a launch finds nothing or increasing identifiers. -/
theorem safe_of_leftByProgram {coder : Coder (List Todo) Data} {disk : Storage.Disk Data}
    (h : LeftByProgram coder disk) (faults : Faults) :
    Safe coder (retrieveTodo coder faults (launch disk)) := by
  obtain ⟨past, app, hrun, rfl⟩ := h
  have hop : App.perform coder faults app .restart =
      some (retrieveTodo coder faults (launch app.disk)) := rfl
  exact (safe_of_run coder hrun).perform hop

theorem safe_of_session {coder : Coder (List Todo) Data} {past : List Operation} {app : App Data}
    (h : (session coder (LeftByProgram coder)).Run past app) : Safe coder app := by
  refine h.preserves ?_ fun _ _ _ => Safe.perform
  rintro _ ⟨disk, hdisk, rfl⟩
  exact safe_of_leftByProgram hdisk .none

/-- In every state of every run, failures included, the identifiers increase strictly and none is
beyond the counter, so the next task gets an identifier that no task of the list has. -/
theorem ids_increasing_and_fresh (coder : Coder (List Todo) Data)
    {past : List (Operation × Faults)} {app : App Data} (h : (faultySession coder).Run past app) :
    (app.manager.todos.map Todo.id).Pairwise (· < ·) ∧
      (∀ t ∈ app.manager.todos, t.id ≤ app.manager.lastId) ∧
      ∀ detail isToday todo manager',
        app.manager.createTodo detail isToday = some (todo, manager') →
          ∀ t ∈ app.manager.todos, t.id ≠ todo.id := by
  obtain ⟨increasing, le_lastId⟩ := (safe_of_run coder h).identified
  refine ⟨increasing.ids, le_lastId, fun detail isToday todo manager' hcreate t ht => ?_⟩
  exact Int64.ne_of_lt (Int64.lt_of_le_of_lt (le_lastId t ht) (TodoManager.lt_createTodo hcreate))

/-- The first save leaves no file, and the restart after it no task: the next task is number 1. -/
theorem ids_increasing_and_fresh_after_failure :
    ∃ app : App Json, app.manager.todos = [⟨1, false, "bread", false⟩] ∧
      (app.manager.todos.map Todo.id).Pairwise (· < ·) ∧
      (∀ t ∈ app.manager.todos, t.id ≤ app.manager.lastId) ∧
      ∀ detail isToday todo manager',
        app.manager.createTodo detail isToday = some (todo, manager') →
          ∀ t ∈ app.manager.todos, t.id ≠ todo.id := by
  have h : ∃ app, (faultySession todosCoder.toCoder).Run
      [(.create "bread" false, .none), (.restart, .none),
        (.create "milk" true, { createFile := true })] app ∧
      app.manager.todos = [⟨1, false, "bread", false⟩] :=
    ⟨_, .step (.step (.step (.start ⟨∅, rfl, rfl⟩) rfl) rfl) rfl, by decide⟩
  obtain ⟨app, hrun, htodos⟩ := h
  exact ⟨app, htodos, ids_increasing_and_fresh todosCoder.toCoder hrun⟩

end App

end PracticeSwift.TodoList
