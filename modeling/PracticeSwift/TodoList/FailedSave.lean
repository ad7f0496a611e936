import PracticeSwift.TodoList.Todo

/-!
# Saves that fail

`store` encodes first, then removes the old file, then creates the new one.  A save that fails
before the removal leaves the old tasks; one that fails between the removal and the creation, be it
that the process dies or that `createFile` reports failure in the result nobody looks at, leaves no
file, which the next load takes for an empty list.
-/

open Foundation FileManager

namespace PracticeSwift.TodoList

namespace App

variable {Data : Type}

/-- The tasks that the next launch loads from the disk. -/
def reloaded (coder : Coder (List Todo) Data) (disk : Storage.Disk Data) : List Todo :=
  (retrieveTodo coder .none (launch disk)).manager.todos

/-- The disk left behind by a save of `todos` that is cut off after `n` writes. -/
def savedUntil (n : ℕ) (coder : Coder (List Todo) Data) (faults : Faults)
    (disk : Storage.Disk Data) (todos : List Todo) : Storage.Disk Data :=
  Storage.storeUntil n coder faults disk todos .documets "todos.json"

/-- Over an existing file a save removes it and creates it anew, unless it fails before. -/
theorem storeWrites_over_file (coder : Coder (List Todo) Data) (faults : Faults)
    {disk : Storage.Disk Data} {old new : Data} {todos : List Todo}
    (hold : contents disk file = some old) (hnew : coder.encode todos = some new) :
    Storage.storeWrites coder faults disk todos .documets "todos.json" =
      if faults.encode = true ∨ faults.removeItem = true then []
      else .removeItem file :: Storage.createWrite faults file new := by
  have hfile : fileExists disk (Storage.url .documets "todos.json") = true :=
    (fileExists_iff _ _).2 ⟨old, hold⟩
  unfold Storage.storeWrites
  cases faults.encode <;> cases faults.removeItem <;> simp [hfile, hnew, file]

/-- The file after the removal, however the creation goes. -/
theorem contents_savedUntil_removed (faults : Faults) (disk : Storage.Disk Data) (new : Data)
    (n : ℕ) :
    contents (performAll disk
        ((.removeItem file :: Storage.createWrite faults file new).take (n + 1))) file =
      if n = 0 ∨ faults.createFile = true then none else some new := by
  unfold Storage.createWrite
  cases n with
  | zero => simp
  | succ n => cases faults.createFile <;> simp

/-- The old file is kept when the save fails before the removal, the new one is there when it
completes, and none is left when it fails in between. -/
theorem contents_savedUntil (coder : Coder (List Todo) Data) (disk : Storage.Disk Data)
    {new : List Todo} {data data' : Data} (hdata : contents disk file = some data)
    (hnew : coder.encode new = some data') (faults : Faults) (n : ℕ) :
    contents (savedUntil n coder faults disk new) file =
      if faults.encode = true ∨ faults.removeItem = true ∨ n = 0 then some data
      else if n = 1 ∨ faults.createFile = true then none
      else some data' := by
  unfold savedUntil Storage.storeUntil
  rw [storeWrites_over_file _ _ hdata hnew]
  by_cases hearly : faults.encode = true ∨ faults.removeItem = true
  · rw [if_pos hearly, if_pos (hearly.imp_right Or.inl), List.take_nil]
    exact hdata
  · rw [if_neg hearly]
    cases n with
    | zero =>
      rw [if_pos (Or.inr (Or.inr rfl)), List.take_zero]
      exact hdata
    | succ n =>
      have hn : n + 1 = 1 ↔ n = 0 := by omega
      rw [if_neg (by simpa [not_or] using hearly), contents_savedUntil_removed]
      simp only [hn]

/-- The old tasks are loaded when the save fails before the removal, the new ones when it
completes, and none at all when it fails in between, which leaves no file. -/
theorem reloaded_after_save (coder : TotalCoder (List Todo) Data) (disk : Storage.Disk Data)
    (saved new : List Todo) {data : Data} (hsaved : coder.encode saved = some data)
    (hdata : contents disk file = some data) (faults : Faults) (n : ℕ) :
    reloaded coder.toCoder (savedUntil n coder.toCoder faults disk new) =
        (if faults.encode = true ∨ faults.removeItem = true ∨ n = 0 then saved
        else if n = 1 ∨ faults.createFile = true then []
        else new) ∧
      contents (savedUntil n coder.toCoder faults disk new) file =
        if faults.encode = true ∨ faults.removeItem = true ∨ n = 0 then some data
        else if n = 1 ∨ faults.createFile = true then none
        else coder.encode new := by
  obtain ⟨data', hnew⟩ := coder.encodes new
  have hfile := contents_savedUntil coder.toCoder disk hdata hnew faults n
  rw [hnew]
  refine ⟨?_, hfile⟩
  split_ifs at hfile ⊢
  · exact todos_retrieveTodo_of_contents _ (launch _) hfile (coder.decode_encode hsaved)
  · exact todos_retrieveTodo_of_absent _ _ (launch _) hfile
  · exact todos_retrieveTodo_of_contents _ (launch _) hfile (coder.decode_encode hnew)

/-- The process dies between `removeItem` and `createFile`: neither the saved task nor the two new
ones come back. -/
theorem save_can_lose_both :
    ¬ ∀ (disk : Storage.Disk Json) (saved new : List Todo) (data : Json) (faults : Faults) (n : ℕ),
      todosCoder.encode saved = some data → contents disk file = some data →
        reloaded todosCoder.toCoder (savedUntil n todosCoder.toCoder faults disk new) = saved ∨
          reloaded todosCoder.toCoder (savedUntil n todosCoder.toCoder faults disk new) = new := by
  intro h
  have hlost := h (performAll ∅ [.createFile file (.array [Todo.encode ⟨1, false, "milk", true⟩])])
    [⟨1, false, "milk", true⟩] [⟨1, false, "milk", true⟩, ⟨2, false, "bread", false⟩] _ .none 1
    rfl rfl
  revert hlost
  decide

/-- A save of two tasks over one, with `createFile` failing. -/
theorem reloaded_after_save_createFile :
    reloaded todosCoder.toCoder (savedUntil 2 todosCoder.toCoder { createFile := true }
      (performAll ∅ [.createFile file (.array [Todo.encode ⟨1, false, "milk", true⟩])])
      [⟨1, false, "milk", true⟩, ⟨2, false, "bread", false⟩]) = [] :=
  (reloaded_after_save todosCoder _ [⟨1, false, "milk", true⟩] _ rfl rfl _ 2).1

end App

end PracticeSwift.TodoList
