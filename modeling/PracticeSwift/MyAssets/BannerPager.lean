import PracticeSwift.Library.Cyclic

/-!
# The banner pager

The coordinator of the page view controller is asked for the controller before and after the
visible one.  Both look up its index and wrap around at the ends, so that the banners form one
cycle.
-/

open Cyclic

namespace PracticeSwift.MyAssets

/-- `PageViewController.Coordinator`, with the page it reports to its parent. -/
structure Coordinator (UIViewController : Type) where
  controllers : List UIViewController
  currentPage : ℕ := 0

namespace Coordinator

variable {UIViewController : Type} [DecidableEq UIViewController]
  (coordinator : Coordinator UIViewController)

/-- `pageViewController(_:viewControllerBefore:)`; the outer `none` is the trap of an index out of
range. -/
def viewControllerBefore (viewController : UIViewController) : Option (Option UIViewController) :=
  match coordinator.controllers.idxOf? viewController with
  | none => some none
  | some index =>
    if index = 0 then some coordinator.controllers.getLast?
    else coordinator.controllers[index - 1]?.map some

/-- `pageViewController(_:viewControllerAfter:)` -/
def viewControllerAfter (viewController : UIViewController) : Option (Option UIViewController) :=
  match coordinator.controllers.idxOf? viewController with
  | none => some none
  | some index =>
    if index + 1 = coordinator.controllers.length then some coordinator.controllers.head?
    else coordinator.controllers[index + 1]?.map some

/-- `pageViewController(_:didFinishAnimating:previousViewControllers:transitionCompleted:)` -/
def didFinishAnimating (viewControllers : List UIViewController) (transitionCompleted : Bool) :
    Coordinator UIViewController :=
  match transitionCompleted, viewControllers.head? with
  | true, some visibleViewController =>
    match coordinator.controllers.idxOf? visibleViewController with
    | some index => { coordinator with currentPage := index }
    | none => coordinator
  | _, _ => coordinator

variable {coordinator}

theorem viewControllerBefore_of_notMem {viewController : UIViewController}
    (h : viewController ∉ coordinator.controllers) :
    coordinator.viewControllerBefore viewController = some none := by
  rw [viewControllerBefore, List.idxOf?_eq_none_iff.2 h]

theorem viewControllerAfter_of_notMem {viewController : UIViewController}
    (h : viewController ∉ coordinator.controllers) :
    coordinator.viewControllerAfter viewController = some none := by
  rw [viewControllerAfter, List.idxOf?_eq_none_iff.2 h]

/-- The index found is that of the controller. -/
theorem idxOf?_getElem {l : List UIViewController} (h : l.Nodup) {i : ℕ} (hi : i < l.length) :
    l.idxOf? l[i] = some i := by
  rw [List.idxOf?_eq_some_iff]
  refine ⟨hi, rfl, fun j hj heq => ?_⟩
  have hsame : j = i := (h.getElem_inj_iff).1 heq
  omega

theorem viewControllerAfter_eq_next (h : coordinator.controllers.Nodup)
    {viewController : UIViewController} (hmem : viewController ∈ coordinator.controllers) :
    coordinator.viewControllerAfter viewController =
      some (some (coordinator.controllers.next viewController hmem)) := by
  obtain ⟨i, hi, rfl⟩ := List.getElem_of_mem hmem
  rw [List.next_getElem _ h]
  simp only [viewControllerAfter, idxOf?_getElem h hi]
  split_ifs with hlast
  · simp only [hlast, Nat.mod_self]
    rw [List.head?_eq_getElem?, List.getElem?_eq_getElem (by omega)]
  · have hnext : i + 1 < coordinator.controllers.length := by omega
    simp only [Nat.mod_eq_of_lt hnext]
    rw [List.getElem?_eq_getElem hnext, Option.map_some]

theorem viewControllerBefore_eq_prev (h : coordinator.controllers.Nodup)
    {viewController : UIViewController} (hmem : viewController ∈ coordinator.controllers) :
    coordinator.viewControllerBefore viewController =
      some (some (coordinator.controllers.prev viewController hmem)) := by
  obtain ⟨i, hi, rfl⟩ := List.getElem_of_mem hmem
  rw [List.prev_getElem _ h]
  simp only [viewControllerBefore, idxOf?_getElem h hi]
  split_ifs with hfirst
  · have hlast : (i + (coordinator.controllers.length - 1)) % coordinator.controllers.length =
        coordinator.controllers.length - 1 := by
      rw [hfirst, Nat.zero_add, Nat.mod_eq_of_lt (by omega)]
    simp only [hlast]
    rw [List.getLast?_eq_getElem?, List.getElem?_eq_getElem (by omega)]
  · have hprev : (i + (coordinator.controllers.length - 1)) % coordinator.controllers.length =
        i - 1 := by
      rw [show i + (coordinator.controllers.length - 1) =
        i - 1 + coordinator.controllers.length by omega, Nat.add_mod_right,
        Nat.mod_eq_of_lt (by omega)]
    simp only [hprev]
    rw [List.getElem?_eq_getElem (by omega), Option.map_some]

theorem before_after (h : coordinator.controllers.Nodup) {viewController : UIViewController}
    (hmem : viewController ∈ coordinator.controllers) :
    ∃ next ∈ coordinator.controllers,
      coordinator.viewControllerAfter viewController = some (some next) ∧
        coordinator.viewControllerBefore next = some (some viewController) := by
  have hnext := List.next_mem coordinator.controllers viewController hmem
  refine ⟨_, hnext, viewControllerAfter_eq_next h hmem, ?_⟩
  rw [viewControllerBefore_eq_prev h hnext, List.prev_next _ h]

theorem after_before (h : coordinator.controllers.Nodup) {viewController : UIViewController}
    (hmem : viewController ∈ coordinator.controllers) :
    ∃ previous ∈ coordinator.controllers,
      coordinator.viewControllerBefore viewController = some (some previous) ∧
        coordinator.viewControllerAfter previous = some (some viewController) := by
  have hprev := List.prev_mem coordinator.controllers viewController hmem
  refine ⟨_, hprev, viewControllerBefore_eq_prev h hmem, ?_⟩
  rw [viewControllerAfter_eq_next h hprev, List.next_prev _ h]

/-- After a completed transition the current page is the visible controller. -/
theorem getElem?_currentPage {viewControllers : List UIViewController}
    {visible : UIViewController} (hvisible : viewControllers.head? = some visible)
    (hmem : visible ∈ coordinator.controllers) :
    coordinator.controllers[(coordinator.didFinishAnimating viewControllers true).currentPage]? =
      some visible := by
  obtain ⟨index, hindex⟩ := Option.isSome_iff_exists.1 (List.isSome_idxOf?.2 hmem)
  obtain ⟨hlt, rfl, -⟩ := List.idxOf?_eq_some_iff.1 hindex
  simp only [didFinishAnimating, hvisible, hindex]
  exact List.getElem?_eq_getElem hlt

/-! ## Paging on and on -/

variable (coordinator)

/-- The controller that paging forward leads to, if it leads to one. -/
def forward (viewController : UIViewController) : Option UIViewController :=
  (coordinator.viewControllerAfter viewController).join

/-- The controller that paging backward leads to, if it leads to one. -/
def backward (viewController : UIViewController) : Option UIViewController :=
  (coordinator.viewControllerBefore viewController).join

variable {coordinator}

theorem isSuccessor_forward (h : coordinator.controllers.Nodup) :
    IsSuccessor coordinator.forward coordinator.controllers := by
  intro viewController hmem
  rw [forward, viewControllerAfter_eq_next h hmem]
  rfl

/-- Paging backward is paging forward through the reversed list. -/
theorem isSuccessor_backward (h : coordinator.controllers.Nodup) :
    IsSuccessor coordinator.backward coordinator.controllers.reverse := by
  intro viewController hmem
  have hmem' := List.mem_reverse.1 hmem
  rw [backward, viewControllerBefore_eq_prev h hmem', List.next_reverse_eq_prev _ h]
  rfl

/-- Turning as often as there are controllers passes each of them once and comes back. -/
def GoesRound (turn : UIViewController → Option UIViewController)
    (controllers : List UIViewController) (viewController : UIViewController) : Prop :=
  ∃ visited, follow turn controllers.length viewController = some visited ∧
    visited.Perm controllers ∧ visited.getLast? = some viewController

theorem goesRound_backward (h : coordinator.controllers.Nodup) {viewController : UIViewController}
    (hmem : viewController ∈ coordinator.controllers) :
    GoesRound coordinator.backward coordinator.controllers viewController := by
  obtain ⟨visited, hvisited, hperm, hlast⟩ :=
    (isSuccessor_backward h).follow_length (List.nodup_reverse.2 h) (List.mem_reverse.2 hmem)
  rw [List.length_reverse] at hvisited
  exact ⟨visited, hvisited, hperm.trans (List.reverse_perm _), hlast⟩

/-- The pager of distinct controllers is one cycle: nothing traps, a controller that is none of
them has no neighbours, and each of them is passed once on the way around in either direction. -/
theorem one_cycle (coordinator : Coordinator UIViewController)
    (h : coordinator.controllers.Nodup) :
    (∀ viewController, (coordinator.viewControllerAfter viewController).isSome ∧
      (coordinator.viewControllerBefore viewController).isSome) ∧
    (∀ viewController ∉ coordinator.controllers,
      coordinator.viewControllerAfter viewController = some none ∧
        coordinator.viewControllerBefore viewController = some none) ∧
    ∀ viewController ∈ coordinator.controllers,
      (∃ next ∈ coordinator.controllers,
        coordinator.viewControllerAfter viewController = some (some next) ∧
          coordinator.viewControllerBefore next = some (some viewController)) ∧
      (∃ previous ∈ coordinator.controllers,
        coordinator.viewControllerBefore viewController = some (some previous) ∧
          coordinator.viewControllerAfter previous = some (some viewController)) ∧
      GoesRound coordinator.forward coordinator.controllers viewController ∧
      GoesRound coordinator.backward coordinator.controllers viewController := by
  refine ⟨fun viewController => ?_, fun viewController hmem => ?_, fun viewController hmem => ?_⟩
  · by_cases hmem : viewController ∈ coordinator.controllers
    · rw [viewControllerAfter_eq_next h hmem, viewControllerBefore_eq_prev h hmem]
      exact ⟨rfl, rfl⟩
    · rw [viewControllerAfter_of_notMem hmem, viewControllerBefore_of_notMem hmem]
      exact ⟨rfl, rfl⟩
  · exact ⟨viewControllerAfter_of_notMem hmem, viewControllerBefore_of_notMem hmem⟩
  · exact ⟨before_after h hmem, after_before h hmem, (isSuccessor_forward h).follow_length h hmem,
      goesRound_backward h hmem⟩

theorem one_cycle_three :
    GoesRound (Coordinator.forward ⟨["a", "b", "c"], 0⟩) ["a", "b", "c"] "b" :=
  ((one_cycle ⟨["a", "b", "c"], 0⟩ (by decide)).2.2 "b" (by decide)).2.2.1

/-- The other way around, from the same banner. -/
example : follow (Coordinator.backward ⟨["a", "b", "c"], 0⟩) 3 "b" = some ["a", "c", "b"] := by
  decide

end Coordinator

end PracticeSwift.MyAssets
