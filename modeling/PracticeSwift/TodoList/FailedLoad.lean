import PracticeSwift.TodoList.FailedSave

/-!
# Loads that fail

A file that cannot be read, or not be decoded, is loaded as the empty list, just as no file at all.
The file itself is not touched by that; but the next operation that saves writes the list in memory
over it, and what it writes is what it would have written if there had never been a file.
-/

open Foundation FileManager Transition

namespace PracticeSwift.TodoList

/-- Neither `createTodo` nor `deleteTodo` nor a load. -/
def Operation.isUpdate : Operation → Bool
  | .update _ => true
  | _ => false

def Operation.isLoad : Operation → Bool
  | .restart | .retrieve => true
  | _ => false

namespace App

variable {Data : Type}

/-- A failed load brings no task, and leaves the disk as it is. -/
theorem retrieveTodo_of_failure (coder : Coder (List Todo) Data) {faults : Faults}
    (hfail : faults.contents = true ∨ faults.decode = true) (app : App Data) :
    retrieveTodo coder faults app = ⟨{}, app.disk⟩ := by
  simp only [retrieveTodo, Storage.retrive_of_failure coder app.disk .documets "todos.json" hfail]
  rfl

/-- What an operation other than a load does to the memory does not depend on the disk. -/
theorem perform_congr (coder : Coder (List Todo) Data) {app app' b : App Data} {op : Operation}
    (hload : op.isLoad = false) (hmanager : b.manager = app.manager)
    (hop : perform coder .none app op = some app') :
    ∃ b', perform coder .none b op = some b' ∧ b'.manager = app'.manager := by
  obtain ⟨manager, disk⟩ := b
  obtain rfl : manager = app.manager := hmanager
  cases op with
  | create detail isToday =>
    simp only [perform, createThenAdd, Option.bind_eq_bind, Option.bind_eq_some_iff,
      Option.pure_def, Option.some.injEq] at hop ⊢
    obtain ⟨⟨todo, manager⟩, hcreate, rfl⟩ := hop
    exact ⟨_, ⟨_, hcreate, rfl⟩, rfl⟩
  | update todo =>
    obtain rfl := Option.some.inj hop
    refine ⟨_, rfl, ?_⟩
    unfold updateTodo
    cases firstIndex app.manager.todos todo <;> rfl
  | delete todo =>
    obtain rfl := Option.some.inj hop
    exact ⟨_, rfl, rfl⟩
  | restart => exact absurd hload (by simp [Operation.isLoad])
  | retrieve => exact absurd hload (by simp [Operation.isLoad])

/-- What holds after a failed load of the disk: the memory is that of a run without a file; the disk
is untouched as long as only updates follow, and its file holds the memory otherwise. -/
structure Unread (coder : Coder (List Todo) Data) (disk : Storage.Disk Data)
    (ops : List Operation) (app : App Data) : Prop where
  fresh : ∃ b, (session coder fun disk => contents disk file = none).Run ops b ∧
    b.manager = app.manager
  untouched : (∀ op ∈ ops, op.isUpdate) → app = ⟨{}, disk⟩
  overwritten : (∃ op ∈ ops, ¬ op.isUpdate) → ∃ data, coder.encode app.manager.todos = some data ∧
    contents app.disk file = some data

theorem Unread.perform {coder : TotalCoder (List Todo) Data} {disk : Storage.Disk Data}
    {ops : List Operation} {app app' : App Data} {op : Operation}
    (h : Unread coder.toCoder disk ops app) (hload : op.isLoad = false)
    (hop : App.perform coder.toCoder .none app op = some app') :
    Unread coder.toCoder disk (op :: ops) app' := by
  obtain ⟨b, hrun, hb⟩ := h.fresh
  obtain ⟨b', hb', hmanager⟩ := perform_congr coder.toCoder hload hb hop
  have saved : ∀ app : App Data, ∃ data, coder.encode app.manager.todos = some data ∧
      contents (saveTodo coder.toCoder .none app).disk file = some data := by
    intro app
    obtain ⟨data, hdata⟩ := coder.encodes app.manager.todos
    exact ⟨data, hdata, Storage.contents_store coder.toCoder app.disk _ _ _ hdata⟩
  refine ⟨⟨b', hrun.step hb', hmanager⟩, fun hall => ?_, fun hsome => ?_⟩
  · rw [List.forall_mem_cons] at hall
    obtain rfl := h.untouched hall.2
    cases op with
    | update todo => exact (Option.some.inj hop).symm
    | create => exact absurd hall.1 (by simp [Operation.isUpdate])
    | delete => exact absurd hall.1 (by simp [Operation.isUpdate])
    | restart => exact absurd hall.1 (by simp [Operation.isUpdate])
    | retrieve => exact absurd hall.1 (by simp [Operation.isUpdate])
  · rcases perform_cases _ _ hop with ⟨manager, -, rfl⟩ | ⟨todo, rfl, -, rfl⟩ | ⟨rfl | rfl, -⟩
    · exact saved ⟨manager, app.disk⟩
    · obtain ⟨op, hmem, hop⟩ := hsome
      rcases List.mem_cons.1 hmem with rfl | hmem
      · exact absurd rfl hop
      · exact h.overwritten ⟨op, hmem, hop⟩
    · exact absurd hload (by simp [Operation.isLoad])
    · exact absurd hload (by simp [Operation.isLoad])

/-- After a load that could not read or decode the saved tasks they are still on file, and stay
there, as long as nothing but updates follows.  From the first creation or deletion on the file
holds what is in memory, and that is what the same operations make of an empty store. -/
theorem after_failed_load (coder : TotalCoder (List Todo) Data) {app₀ : App Data}
    {saved : List Todo} {data : Data} (hsaved : coder.encode saved = some data)
    (hdata : contents app₀.disk file = some data) {faults : Faults}
    (hfail : faults.contents = true ∨ faults.decode = true) {ops : List Operation} {app : App Data}
    (h : ((session coder.toCoder fun _ => True).after
      (retrieveTodo coder.toCoder faults app₀)).Run ops app)
    (hops : ∀ op ∈ ops, op.isLoad = false) :
    ((∀ op ∈ ops, op.isUpdate) → app.disk = app₀.disk ∧ reloaded coder.toCoder app.disk = saved) ∧
      ((∃ op ∈ ops, ¬ op.isUpdate) → reloaded coder.toCoder app.disk = app.manager.todos) ∧
      ∃ b, (session coder.toCoder fun disk => contents disk file = none).Run ops b ∧
        b.manager = app.manager := by
  have hunread : (∀ op ∈ ops, op.isLoad = false) → Unread coder.toCoder app₀.disk ops app := by
    apply h.invariant
    · rintro _ rfl -
      rw [retrieveTodo_of_failure coder.toCoder hfail]
      exact ⟨⟨_, .start ⟨∅, rfl, rfl⟩, rfl⟩, fun _ => rfl, by simp⟩
    · intro ops app op app' _ ih hop hops
      rw [List.forall_mem_cons] at hops
      exact (ih hops.2).perform hops.1 hop
  obtain ⟨fresh, untouched, overwritten⟩ := hunread hops
  refine ⟨fun hall => ?_, fun hsome => ?_, fresh⟩
  · obtain rfl := untouched hall
    refine ⟨rfl, ?_⟩
    exact todos_retrieveTodo_of_contents _ (launch _) hdata (coder.decode_encode hsaved)
  · obtain ⟨data', hencode, hfile⟩ := overwritten hsome
    exact todos_retrieveTodo_of_contents _ (launch _) hfile (coder.decode_encode hencode)

/-- The file that could not be read holds one task; a new one replaces it. -/
theorem after_failed_load_created :
    ∃ app : App Json, reloaded todosCoder.toCoder app.disk = app.manager.todos ∧
      app.manager.todos = [⟨1, false, "bread", false⟩] := by
  have hrun : ((session todosCoder.toCoder fun _ => True).after (retrieveTodo todosCoder.toCoder
      { contents := true } (launch (performAll ∅
        [.createFile file (.array [Todo.encode ⟨1, false, "milk", true⟩])])))).Run
      [.create "bread" false] _ := .step (.start rfl) rfl
  have hafter := @after_failed_load Json todosCoder _ [⟨1, false, "milk", true⟩] _ rfl rfl _
    (Or.inl rfl) _ _ hrun (by simp [Operation.isLoad])
  exact ⟨_, hafter.2.1 ⟨_, List.mem_cons_self, by simp [Operation.isUpdate]⟩, rfl⟩

/-- One task is saved, the load fails to read it, and a new task replaces it. -/
theorem failed_load_loses_tasks :
    ¬ ∀ (app₀ app : App Json) (saved : List Todo) (data : Json) (faults : Faults)
      (ops : List Operation), saved ≠ [] → todosCoder.encode saved = some data →
      contents app₀.disk file = some data → faults.contents = true ∨ faults.decode = true →
      ((session todosCoder.toCoder fun _ => True).after
        (retrieveTodo todosCoder.toCoder faults app₀)).Run ops app →
      (∀ op ∈ ops, op.isLoad = false) →
      (∀ todo, .delete todo ∈ ops → todo.id ∉ saved.map Todo.id) →
      ∀ t ∈ saved, t ∈ reloaded todosCoder.toCoder app.disk := by
  intro h
  have hlost := h (launch (performAll ∅
      [.createFile file (.array [Todo.encode ⟨1, false, "milk", true⟩])])) _
    [⟨1, false, "milk", true⟩] _ { contents := true } [.create "bread" false] (by simp) rfl rfl
    (Or.inl rfl) (.step (.start rfl) rfl) (by simp [Operation.isLoad]) (by simp) _
    List.mem_cons_self
  revert hlost
  decide

end App

end PracticeSwift.TodoList
