import PracticeSwift.TodoList.Durability
import PracticeSwift.TodoList.Identity

/-!
# When an identifier is given again

The counter is not stored: a load sets it to the last identifier of the list.  An identifier is
therefore safe as long as its task is in the list, and as long as the counter of the process stays
above it; it is given again only after its task has been deleted and a load has found no task with
an identifier as large.
-/

open Foundation FileManager Transition

namespace PracticeSwift.TodoList

namespace App

variable {Data : Type}

theorem onDisk_of_session {coder : TotalCoder (List Todo) Data} {past : List Operation}
    {app : App Data} (h : (session coder.toCoder (LeftByProgram coder.toCoder)).Run past app) :
    OnDisk coder.toCoder app := by
  refine h.preserves ?_ fun _ _ _ => OnDisk.perform
  rintro _ ⟨disk, hdisk, rfl⟩
  refine onDisk_retrieveTodo _ fun data hdata => ?_
  obtain ⟨todos, htodos, -⟩ := (safe_of_leftByProgram hdisk .none).file data hdata
  exact ⟨todos, htodos⟩

/-- The counter has passed the identifier, whose task is in the list or has been deleted. -/
structure Kept (id : Int64) (past : List Operation) (app : App Data) : Prop where
  le_lastId : id ≤ app.manager.lastId
  found : id ∈ app.manager.todos.map Todo.id ∨
    ∃ deleted : Todo, deleted.id = id ∧ .delete deleted ∈ past

theorem exists_delete_cons {id : Int64} {past : List Operation} (op : Operation)
    (h : ∃ deleted : Todo, deleted.id = id ∧ .delete deleted ∈ past) :
    ∃ deleted : Todo, deleted.id = id ∧ .delete deleted ∈ op :: past := by
  obtain ⟨deleted, hid, hmem⟩ := h
  exact ⟨deleted, hid, List.mem_cons_of_mem op hmem⟩

/-- The task with the identifier was deleted, and some load after that found smaller identifiers
only. -/
def Freed (S : System (App Data) Operation) (id : Int64) (past : List Operation) : Prop :=
  ∃ later load earlier app, past = later ++ load :: earlier ∧
    (load = .restart ∨ load = .retrieve) ∧ S.Run earlier app ∧
    (∃ deleted : Todo, deleted.id = id ∧ .delete deleted ∈ earlier) ∧
    ∀ t ∈ app.manager.todos, t.id < id

theorem Freed.cons {S : System (App Data) Operation} {id : Int64} {past : List Operation}
    (h : Freed S id past) (op : Operation) : Freed S id (op :: past) := by
  obtain ⟨later, load, earlier, app, rfl, hrest⟩ := h
  exact ⟨op :: later, load, earlier, app, rfl, hrest⟩

/-- Editing the list keeps an identifier kept. -/
theorem Kept.edited {id : Int64} {past : List Operation} {app : App Data} (h : Kept id past app)
    {op : Operation} {manager : TodoManager} (hedit : Edited app.manager op manager)
    (disk : Storage.Disk Data) : Kept id (op :: past) ⟨manager, disk⟩ := by
  cases hedit with
  | create next =>
    refine ⟨Int64.le_trans h.le_lastId (Int64.le_of_lt (lt_of_checkedAdd_one next)), ?_⟩
    refine h.found.imp (fun hmem => ?_) (exists_delete_cons _)
    rw [List.map_append]
    exact List.mem_append_left _ hmem
  | @update todo index found =>
    refine ⟨h.le_lastId, h.found.imp (fun hmem => ?_) (exists_delete_cons _)⟩
    have hids := map_id_modify app.manager.todos index todo.isDone todo.detail todo.isToday
    exact hids.symm ▸ hmem
  | @delete todo =>
    refine ⟨h.le_lastId, ?_⟩
    rcases h.found with hmem | hdeleted
    · obtain ⟨t, ht, rfl⟩ := List.mem_map.1 hmem
      by_cases heq : todo.id = t.id
      · exact Or.inr ⟨todo, heq, List.mem_cons_self⟩
      · refine Or.inl (List.mem_map_of_mem (List.mem_filter.2 ⟨ht, ?_⟩))
        simpa using Ne.symm heq
    · exact Or.inr (exists_delete_cons _ hdeleted)

/-- A load keeps an identifier kept, unless it frees it. -/
theorem Kept.loaded {S : System (App Data) Operation} {coder : Coder (List Todo) Data} {id : Int64}
    {past : List Operation} {app : App Data} (h : Kept id past app) (hrun : S.Run past app)
    (hdisk : OnDisk coder app) (hsafe : Safe coder (retrieveTodo coder .none app))
    {load : Operation} (hload : load = .restart ∨ load = .retrieve) :
    Kept id (load :: past) (retrieveTodo coder .none app) ∨ Freed S id (load :: past) := by
  have htodos := hdisk.todos_retrieveTodo
  by_cases hsmall : ∀ t ∈ app.manager.todos, t.id < id
  · right
    have hgone : id ∉ app.manager.todos.map Todo.id := by
      intro hmem
      obtain ⟨t, ht, rfl⟩ := List.mem_map.1 hmem
      exact Int64.lt_irrefl (hsmall t ht)
    exact ⟨[], load, past, app, rfl, hload, hrun, h.found.resolve_left hgone, hsmall⟩
  · left
    push Not at hsmall
    obtain ⟨t, ht, hle⟩ := hsmall
    rw [← htodos] at ht
    refine ⟨?_, ?_⟩
    · exact Int64.le_trans (Int64.not_lt.1 hle) (hsafe.identified.le_lastId t ht)
    · rw [htodos]
      exact h.found.imp_right (exists_delete_cons load)

/-- From a state in which an identifier is kept, it stays kept until it is freed. -/
theorem kept_or_freed {coder : TotalCoder (List Todo) Data} {past mid : List Operation}
    {app₁ app₂ : App Data} {id : Int64}
    (h : (session coder.toCoder (LeftByProgram coder.toCoder)).Run past app₁)
    (hkept : Kept id [] app₁)
    (hmid : ((session coder.toCoder (LeftByProgram coder.toCoder)).after app₁).Run mid app₂) :
    Kept id mid app₂ ∨
      Freed ((session coder.toCoder (LeftByProgram coder.toCoder)).after app₁) id mid := by
  apply hmid.invariant
  · rintro _ rfl
    exact Or.inl hkept
  · intro mid app op app' hrun hcase hop
    rcases hcase with hkept | hfreed
    · have hwhole := h.append hrun
      have hop' : perform coder.toCoder .none app op = some app' := hop
      rcases perform_cases _ _ hop with ⟨manager, hedit, rfl⟩ | ⟨todo, rfl, -, rfl⟩ | ⟨hload, rfl⟩
      · exact Or.inl (hkept.edited hedit _)
      · exact Or.inl ⟨hkept.le_lastId, hkept.found.imp_right (exists_delete_cons _)⟩
      · exact hkept.loaded hrun (onDisk_of_session hwhole) ((safe_of_session hwhole).perform hop')
          hload
    · exact Or.inr (hfreed.cons op)

/-- Two `createTodo` calls of a run return the same identifier only when, between them, the first
task was deleted and a later load found smaller identifiers only. -/
theorem id_given_again (coder : TotalCoder (List Todo) Data) {past mid : List Operation}
    {app₀ app₁ app₂ : App Data} {detail detail' : String} {isToday isToday' : Bool}
    {todo todo' : Todo} {manager manager' : TodoManager}
    (h : (session coder.toCoder (LeftByProgram coder.toCoder)).Run past app₀)
    (hfirst : app₀.manager.createTodo detail isToday = some (todo, manager))
    (hadd : perform coder.toCoder .none app₀ (.create detail isToday) = some app₁)
    (hmid : ((session coder.toCoder (LeftByProgram coder.toCoder)).after app₁).Run mid app₂)
    (hsecond : app₂.manager.createTodo detail' isToday' = some (todo', manager'))
    (hid : todo'.id = todo.id) :
    Freed ((session coder.toCoder (LeftByProgram coder.toCoder)).after app₁) todo.id mid := by
  have hkept : Kept todo.id [] app₁ := by
    simp only [perform, createThenAdd, hfirst, Option.bind_eq_bind, Option.bind_some,
      Option.pure_def, Option.some.injEq] at hadd
    subst hadd
    refine ⟨?_, Or.inl ?_⟩
    · simp only [TodoManager.createTodo, Option.bind_eq_bind, Option.bind_eq_some_iff,
        Option.pure_def, Option.some.injEq, Prod.mk.injEq] at hfirst
      obtain ⟨_, -, rfl, rfl⟩ := hfirst
      exact Int64.le_refl _
    · exact List.mem_map_of_mem (List.mem_append_right _ (List.mem_singleton.2 rfl))
  refine (kept_or_freed (h.step hadd) hkept hmid).resolve_left fun hkept₂ => ?_
  have hlt := TodoManager.lt_createTodo hsecond
  rw [hid] at hlt
  exact Int64.lt_irrefl (Int64.lt_of_le_of_lt hkept₂.le_lastId hlt)

/-- The only task is deleted and the app launched again: the next task gets its identifier. -/
theorem id_given_again_relaunched :
    ∃ app₁ : App Json, app₁.manager.todos = [⟨1, false, "milk", true⟩] ∧
      Freed ((session todosCoder.toCoder (LeftByProgram todosCoder.toCoder)).after app₁) 1
        [.restart, .delete ⟨1, false, "milk", true⟩] := by
  have hrun : (session todosCoder.toCoder (LeftByProgram todosCoder.toCoder)).Run [] _ :=
    .start ⟨∅, leftByProgram_empty todosCoder.toCoder, rfl⟩
  exact ⟨_, rfl, @id_given_again Json todosCoder [] _ _ _ _ "milk" "bread" true false _ _ _ _
    hrun rfl rfl (.step (.step (.start rfl) rfl) rfl) rfl rfl⟩

/-- Two tasks of one run get the identifier 1. -/
theorem id_is_reused :
    ¬ ∀ (past mid : List Operation) (app₀ app₁ app₂ : App Json) (detail detail' : String)
      (isToday isToday' : Bool) (todo todo' : Todo) (manager manager' : TodoManager),
      (session todosCoder.toCoder (LeftByProgram todosCoder.toCoder)).Run past app₀ →
      app₀.manager.createTodo detail isToday = some (todo, manager) →
      perform todosCoder.toCoder .none app₀ (.create detail isToday) = some app₁ →
      ((session todosCoder.toCoder (LeftByProgram todosCoder.toCoder)).after app₁).Run mid app₂ →
      app₂.manager.createTodo detail' isToday' = some (todo', manager') → todo'.id ≠ todo.id := by
  intro h
  have hrun : (session todosCoder.toCoder (LeftByProgram todosCoder.toCoder)).Run [] _ :=
    .start ⟨∅, leftByProgram_empty todosCoder.toCoder, rfl⟩
  exact h [] [.restart, .delete ⟨1, false, "milk", true⟩] _ _ _ "milk" "bread" true false _ _ _ _
    hrun rfl rfl (.step (.step (.start rfl) rfl) rfl) rfl rfl

end App

end PracticeSwift.TodoList
