import PracticeSwift.Library.KeyedList
import PracticeSwift.TodoList.Todo

/-!
# The two sections

`TodoViewModel` shows the tasks of today and the other ones as two filtered views of one list.  Since
identifiers are unique, changing or dropping the task with an identifier is changing or dropping one
item of one section, and the other section does not notice.
-/

namespace PracticeSwift.TodoList

inductive Section
  | today
  | upcoming

def Section.allCases : List Section := [.today, .upcoming]

def todayTodos (todos : List Todo) : List Todo := todos.filter fun t => t.isToday == true

def upcomingTodos (todos : List Todo) : List Todo := todos.filter fun t => t.isToday == false

def numOfSection : ℕ := Section.allCases.length

/-- The tasks of a section, by its index. -/
def sectionTodos (todos : List Todo) (sectionIndex : ℕ) : List Todo :=
  if sectionIndex = 0 then todayTodos todos else upcomingTodos todos

def numberOfItemsInSection (todos : List Todo) (sectionIndex : ℕ) : ℕ :=
  if sectionIndex = 0 then (todayTodos todos).length else (upcomingTodos todos).length

/-- The list with the task of that identifier done or not. -/
def setDone (id : Int64) (isDone : Bool) (todos : List Todo) : List Todo :=
  todos.map fun t => if t.id = id then { t with isDone } else t

/-- The list without the task of that identifier. -/
def without (id : Int64) (todos : List Todo) : List Todo := todos.filter fun t => t.id ≠ id

/-- The two sections are the list, each task in one of them and once, in order. -/
structure Partitioned (todos : List Todo) : Prop where
  once : (todos.map Todo.id).Nodup
  perm : (todayTodos todos ++ upcomingTodos todos).Perm todos
  today : (todayTodos todos).Sublist todos
  upcoming : (upcomingTodos todos).Sublist todos
  count : numberOfItemsInSection todos 0 + numberOfItemsInSection todos 1 = todos.length

theorem partitioned_of_nodup {todos : List Todo} (h : (todos.map Todo.id).Nodup) :
    Partitioned todos := by
  have hperm : (todayTodos todos ++ upcomingTodos todos).Perm todos := by
    have hupcoming : upcomingTodos todos = todos.filter fun t => !(t.isToday == true) :=
      List.filter_congr fun t _ => by cases t.isToday <;> rfl
    rw [hupcoming]
    exact List.filter_append_perm _ todos
  refine ⟨h, hperm, List.filter_sublist, List.filter_sublist, ?_⟩
  rw [← hperm.length_eq, List.length_append]
  rfl

theorem sectionTodos_eq_filter (todos : List Todo) (sectionIndex : ℕ) :
    sectionTodos todos sectionIndex =
      todos.filter fun t => t.isToday == decide (sectionIndex = 0) := by
  by_cases h : sectionIndex = 0 <;> simp [sectionTodos, todayTodos, upcomingTodos, h]

theorem length_sectionTodos (todos : List Todo) (sectionIndex : ℕ) :
    (sectionTodos todos sectionIndex).length = numberOfItemsInSection todos sectionIndex := by
  unfold sectionTodos numberOfItemsInSection
  split_ifs <;> rfl

theorem mem_sectionTodos {todos : List Todo} {sectionIndex : ℕ} {t : Todo} :
    t ∈ sectionTodos todos sectionIndex ↔ t ∈ todos ∧ (t.isToday = true ↔ sectionIndex = 0) := by
  rw [sectionTodos_eq_filter, List.mem_filter, beq_iff_eq, Bool.eq_iff_iff, decide_eq_true_iff]

theorem nodup_sectionTodos {todos : List Todo} (h : (todos.map Todo.id).Nodup)
    (sectionIndex : ℕ) : ((sectionTodos todos sectionIndex).map Todo.id).Nodup := by
  rw [sectionTodos_eq_filter]
  exact h.sublist (List.filter_sublist.map Todo.id)

/-- A task of one section has an identifier that does not occur in the other. -/
theorem notMem_other_section {todos : List Todo} (h : (todos.map Todo.id).Nodup)
    {sectionIndex other : ℕ} (hother : other = 0 ↔ sectionIndex ≠ 0) {t : Todo}
    (ht : t ∈ sectionTodos todos sectionIndex) :
    t.id ∉ (sectionTodos todos other).map Todo.id := by
  intro hmem
  obtain ⟨t', ht', hid⟩ := List.mem_map.1 hmem
  rw [mem_sectionTodos] at ht ht'
  obtain rfl := List.inj_on_of_nodup_map h ht'.1 ht.1 hid
  have hsame := ht.2.symm.trans ht'.2
  rw [hother] at hsame
  exact iff_not_self hsame

/-- An identifier occurs at one place of one section. -/
theorem sectionTodos_inj {todos : List Todo} (h : (todos.map Todo.id).Nodup) {i j item item' : ℕ}
    (hi : i < numOfSection) (hj : j < numOfSection) {t t' : Todo}
    (ht : (sectionTodos todos i)[item]? = some t) (ht' : (sectionTodos todos j)[item']? = some t')
    (hid : t.id = t'.id) : i = j ∧ item = item' := by
  have hmem := mem_sectionTodos.1 (List.mem_of_getElem? ht)
  have hmem' := mem_sectionTodos.1 (List.mem_of_getElem? ht')
  obtain rfl := List.inj_on_of_nodup_map h hmem.1 hmem'.1 hid
  have hzero : i = 0 ↔ j = 0 := hmem.2.symm.trans hmem'.2
  have htwo : numOfSection = 2 := rfl
  obtain rfl : i = j := by omega
  obtain ⟨hlt, heq⟩ := List.getElem?_eq_some_iff.1 ht
  obtain ⟨hlt', heq'⟩ := List.getElem?_eq_some_iff.1 ht'
  have hkey : (sectionTodos todos i)[item].id = (sectionTodos todos i)[item'].id := by
    rw [heq, heq']
  exact ⟨rfl, List.key_getElem_inj (nodup_sectionTodos h i) hlt hlt' hkey⟩

/-- Changing a task is a change at its place in its section, and none in the other. -/
theorem sectionTodos_setDone {todos : List Todo} (h : (todos.map Todo.id).Nodup)
    {sectionIndex item : ℕ} {t : Todo} (ht : (sectionTodos todos sectionIndex)[item]? = some t)
    (isDone : Bool) :
    sectionTodos (setDone t.id isDone todos) sectionIndex =
        (sectionTodos todos sectionIndex).modify item (fun t => { t with isDone }) ∧
      ∀ other, (other = 0 ↔ sectionIndex ≠ 0) →
        sectionTodos (setDone t.id isDone todos) other = sectionTodos todos other := by
  have hcommute : ∀ i, sectionTodos (setDone t.id isDone todos) i =
      setDone t.id isDone (sectionTodos todos i) := by
    intro i
    rw [sectionTodos_eq_filter, sectionTodos_eq_filter]
    exact List.filter_map_ite_key (f := fun t : Todo => { t with isDone }) (fun t => rfl) t.id todos
  refine ⟨?_, fun other hother => ?_⟩
  · obtain ⟨hi, rfl⟩ := List.getElem?_eq_some_iff.1 ht
    rw [hcommute]
    exact List.map_ite_key_eq_modify (nodup_sectionTodos h sectionIndex) hi _
  · rw [hcommute]
    apply List.map_ite_key_of_notMem
    exact notMem_other_section h hother (List.mem_of_getElem? ht)

/-- Dropping a task drops its item from its section, and none from the other. -/
theorem sectionTodos_without {todos : List Todo} (h : (todos.map Todo.id).Nodup)
    {sectionIndex item : ℕ} {t : Todo} (ht : (sectionTodos todos sectionIndex)[item]? = some t) :
    sectionTodos (without t.id todos) sectionIndex =
        (sectionTodos todos sectionIndex).eraseIdx item ∧
      ∀ other, (other = 0 ↔ sectionIndex ≠ 0) →
        sectionTodos (without t.id todos) other = sectionTodos todos other := by
  have hcommute : ∀ i, sectionTodos (without t.id todos) i =
      without t.id (sectionTodos todos i) := by
    intro i
    rw [sectionTodos_eq_filter, sectionTodos_eq_filter]
    exact List.filter_comm _ _ todos
  refine ⟨?_, fun other hother => ?_⟩
  · obtain ⟨hi, rfl⟩ := List.getElem?_eq_some_iff.1 ht
    rw [hcommute]
    exact List.filter_key_ne_eq_eraseIdx (nodup_sectionTodos h sectionIndex) hi
  · rw [hcommute]
    apply List.filter_key_ne_of_notMem
    exact notMem_other_section h hother (List.mem_of_getElem? ht)

/-- Changing a task changes no identifier and nothing that a task says. -/
theorem mem_setDone {id : Int64} {isDone : Bool} {todos : List Todo} {t : Todo}
    (ht : t ∈ setDone id isDone todos) :
    ∃ t' ∈ todos, t.id = t'.id ∧ t.detail = t'.detail ∧ t.isToday = t'.isToday ∧
      t.isDone = if t'.id = id then isDone else t'.isDone := by
  obtain ⟨t', ht', rfl⟩ := List.mem_map.1 ht
  refine ⟨t', ht', ?_⟩
  split_ifs with hid
  · exact ⟨rfl, rfl, rfl, rfl⟩
  · exact ⟨rfl, rfl, rfl, rfl⟩

theorem map_id_setDone (id : Int64) (isDone : Bool) (todos : List Todo) :
    (setDone id isDone todos).map Todo.id = todos.map Todo.id := by
  rw [setDone, List.map_map]
  refine List.map_congr_left fun t _ => ?_
  simp only [Function.comp_apply]
  split_ifs <;> rfl

end PracticeSwift.TodoList
