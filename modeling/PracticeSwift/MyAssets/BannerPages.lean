import Mathlib.Data.Int.Order.Basic
import PracticeSwift.Library.Transition
import PracticeSwift.MyAssets.BannerPager

/-!
# The banner and its page control

The page view controller and the page control write one page and are both updated from it, later,
by SwiftUI.  Until then one of them shows an older page, and can be used: a swipe starts from the
banner that is visible, whatever the page is by then.  The control pins what it is given, and the
coordinator looks the visible banner up, so that the page stays one of the banners and an update
never runs out of range; once no update is due, both show it.
-/

open Transition

namespace PracticeSwift.MyAssets

/-- What the control is given is pinned to its pages. -/
structure UIPageControl where
  numberOfPages : ℕ
  currentPage : ℕ := 0

namespace UIPageControl

def setCurrentPage (control : UIPageControl) (page : ℤ) : UIPageControl :=
  { control with currentPage := min page.toNat (control.numberOfPages - 1) }

theorem setCurrentPage_of_lt {control : UIPageControl} {page : ℕ}
    (h : page < control.numberOfPages) : (control.setCurrentPage page).currentPage = page := by
  simp only [setCurrentPage, Int.toNat_natCast]
  omega

end UIPageControl

/-- The state of `AssetBannerView`: the coordinator with the page, the two views, and whether
SwiftUI is to update them. -/
structure AssetBannerView (UIViewController : Type) where
  coordinator : Coordinator UIViewController
  viewControllers : List UIViewController := []
  uiPageControl : UIPageControl
  needsUpdate : Bool := true

inductive PageDirection
  | before
  | after

inductive PageEvent
  /-- The user swipes, and lets go far enough or not. -/
  | swiped (direction : PageDirection) (completed : Bool)
  /-- The user moves the control to a page. -/
  | valueChanged (page : ℤ)
  /-- SwiftUI updates both views. -/
  | updated

namespace AssetBannerView

variable {UIViewController : Type}

/-- `body`, with a controller for each page. -/
def body (controllers : List UIViewController) : AssetBannerView UIViewController where
  coordinator := { controllers }
  uiPageControl := { numberOfPages := controllers.length }

/-- Setting the state to another value is what makes an update due. -/
def setCurrentPage (s : AssetBannerView UIViewController) (page : ℕ) :
    AssetBannerView UIViewController :=
  { s with
    coordinator := { s.coordinator with currentPage := page }
    needsUpdate := s.needsUpdate || page != s.coordinator.currentPage }

/-- `PageControl.Coordinator.updateCurrentPage(sender:)` -/
def updateCurrentPage (s : AssetBannerView UIViewController) : AssetBannerView UIViewController :=
  s.setCurrentPage s.uiPageControl.currentPage

/-- `PageViewController.updateUIViewController(_:context:)`, which traps out of range. -/
def updateUIViewController (s : AssetBannerView UIViewController) :
    Option (AssetBannerView UIViewController) := do
  let viewController ← s.coordinator.controllers[s.coordinator.currentPage]?
  return { s with viewControllers := [viewController] }

/-- `PageControl.updateUIView(_:context:)` -/
def updateUIView (s : AssetBannerView UIViewController) : AssetBannerView UIViewController :=
  { s with uiPageControl := s.uiPageControl.setCurrentPage s.coordinator.currentPage }

variable [DecidableEq UIViewController]

/-- What the page view controller asks for when the user swipes. -/
def neighbour (s : AssetBannerView UIViewController) :
    PageDirection → UIViewController → Option (Option UIViewController)
  | .before => s.coordinator.viewControllerBefore
  | .after => s.coordinator.viewControllerAfter

/-- The transition to a controller, up to `didFinishAnimating`. -/
def turnTo (s : AssetBannerView UIViewController) (viewController : UIViewController)
    (completed : Bool) : AssetBannerView UIViewController :=
  let viewControllers := if completed then [viewController] else s.viewControllers
  { s with viewControllers }.setCurrentPage
    (s.coordinator.didFinishAnimating viewControllers completed).currentPage

/-- A step; `none` is a trap.  Without a visible controller or a neighbour a swipe does nothing. -/
def step (s : AssetBannerView UIViewController) : PageEvent → Option (AssetBannerView UIViewController)
  | .swiped direction completed =>
    match s.viewControllers with
    | [] => some s
    | visible :: _ => do
      match ← s.neighbour direction visible with
      | none => return s
      | some viewController => return s.turnTo viewController completed
  | .valueChanged page =>
    some { s with uiPageControl := s.uiPageControl.setCurrentPage page }.updateCurrentPage
  | .updated => do
    let s ← s.updateUIViewController
    return { s.updateUIView with needsUpdate := false }

/-- The runs of the view. -/
def system (controllers : List UIViewController) :
    System (AssetBannerView UIViewController) PageEvent where
  start s := s = body controllers
  step s e s' := s.step e = some s'

/-! ## What the views show -/

variable {controllers : List UIViewController} {s s' : AssetBannerView UIViewController}

/-- The page view controller shows the page. -/
def BannerShows (s : AssetBannerView UIViewController) : Prop :=
  ∃ visible, s.viewControllers = [visible] ∧
    s.coordinator.controllers[s.coordinator.currentPage]? = some visible

/-- The control shows the page. -/
def ControlShows (s : AssetBannerView UIViewController) : Prop :=
  s.uiPageControl.currentPage = s.coordinator.currentPage

/-- The page is one of the banners and shown by one of the two views, by both if no update is
due. -/
structure Paged (controllers : List UIViewController) (s : AssetBannerView UIViewController) :
    Prop where
  made : s.coordinator.controllers = controllers
  numberOfPages : s.uiPageControl.numberOfPages = controllers.length
  inRange : s.coordinator.currentPage < controllers.length
  visible : ∀ visible ∈ s.viewControllers, visible ∈ controllers
  one : s.viewControllers.length ≤ 1
  shown : s.ControlShows ∨ s.BannerShows
  agree : s.needsUpdate = false → s.ControlShows ∧ s.BannerShows

theorem neighbour_cases (h : controllers.Nodup) (hs : s.coordinator.controllers = controllers)
    (direction : PageDirection) {visible : UIViewController} (hmem : visible ∈ controllers) :
    ∃ viewController ∈ controllers, s.neighbour direction visible = some (some viewController) := by
  subst hs
  cases direction with
  | before => exact ⟨_, List.prev_mem _ _ hmem, Coordinator.viewControllerBefore_eq_prev h hmem⟩
  | after => exact ⟨_, List.next_mem _ _ hmem, Coordinator.viewControllerAfter_eq_next h hmem⟩

/-- A cancelled transition reports nothing. -/
theorem turnTo_false (viewController : UIViewController) : s.turnTo viewController false = s := by
  simp [turnTo, setCurrentPage, Coordinator.didFinishAnimating]

theorem bannerShows_turnTo {viewController : UIViewController}
    (hmem : viewController ∈ s.coordinator.controllers) :
    (s.turnTo viewController true).BannerShows :=
  ⟨viewController, rfl, Coordinator.getElem?_currentPage rfl hmem⟩

theorem Paged.turnTo (hs : Paged controllers s) {viewController : UIViewController}
    (hmem : viewController ∈ controllers) (completed : Bool) :
    Paged controllers (s.turnTo viewController completed) := by
  cases completed with
  | false => rwa [turnTo_false]
  | true =>
    have hbanner : (s.turnTo viewController true).BannerShows :=
      bannerShows_turnTo (hs.made.symm ▸ hmem)
    refine ⟨hs.made, hs.numberOfPages, ?_, ?_, le_rfl, .inr hbanner, fun hupdate => ⟨?_, hbanner⟩⟩
    · obtain ⟨_, -, hpage⟩ := hbanner
      rw [← hs.made]
      exact (List.getElem?_eq_some_iff.1 hpage).1
    · exact fun visible hvisible => List.mem_singleton.1 hvisible ▸ hmem
    · -- No update is due, so that the page has stayed what it was.
      simp only [AssetBannerView.turnTo, setCurrentPage, Bool.or_eq_false_iff, bne_eq_false_iff_eq]
        at hupdate
      have hcontrol := (hs.agree hupdate.1).1
      unfold ControlShows at hcontrol ⊢
      exact hcontrol.trans hupdate.2.symm

omit [DecidableEq UIViewController] in
theorem Paged.valueChanged (hs : Paged controllers s) (page : ℤ) :
    Paged controllers
      { s with uiPageControl := s.uiPageControl.setCurrentPage page }.updateCurrentPage := by
  have hrange := hs.inRange
  refine ⟨hs.made, hs.numberOfPages, ?_, hs.visible, hs.one, .inl rfl,
    fun hupdate => ⟨rfl, ?_⟩⟩
  · simp only [updateCurrentPage, AssetBannerView.setCurrentPage, UIPageControl.setCurrentPage,
      hs.numberOfPages]
    omega
  · simp only [updateCurrentPage, AssetBannerView.setCurrentPage, Bool.or_eq_false_iff,
      bne_eq_false_iff_eq] at hupdate
    obtain ⟨visible, hvisible, hpage⟩ := (hs.agree hupdate.1).2
    refine ⟨visible, hvisible, ?_⟩
    rw [← hpage]
    exact congrArg (s.coordinator.controllers[·]?) hupdate.2

theorem Paged.updated (hs : Paged controllers s) :
    ∃ s', s.step .updated = some s' ∧ Paged controllers s' ∧ s'.needsUpdate = false := by
  have hrange := hs.inRange
  have hget : s.coordinator.controllers[s.coordinator.currentPage]? =
      some controllers[s.coordinator.currentPage] := by
    rw [hs.made, List.getElem?_eq_getElem hrange]
  refine ⟨{ { s with viewControllers := [controllers[s.coordinator.currentPage]] }.updateUIView with
    needsUpdate := false }, ?_, ⟨hs.made, hs.numberOfPages, hrange, ?_, le_rfl, .inl ?_,
    fun _ => ⟨?_, _, rfl, hget⟩⟩, rfl⟩
  · simp only [step, updateUIViewController, hget]
    rfl
  · exact fun visible hvisible => List.mem_singleton.1 hvisible ▸ List.getElem_mem _
  all_goals exact UIPageControl.setCurrentPage_of_lt (hs.numberOfPages.symm ▸ hrange)

/-- Every step can be taken, and keeps the page. -/
theorem Paged.step (h : controllers.Nodup) (hs : Paged controllers s) (e : PageEvent) :
    ∃ s', s.step e = some s' ∧ Paged controllers s' := by
  cases e with
  | updated =>
    obtain ⟨s', hstep, hs', -⟩ := hs.updated
    exact ⟨s', hstep, hs'⟩
  | valueChanged page => exact ⟨_, rfl, hs.valueChanged page⟩
  | swiped direction completed =>
    cases hvisible : s.viewControllers with
    | nil => exact ⟨s, by simp only [AssetBannerView.step, hvisible], hs⟩
    | cons visible rest =>
      have hmem := hs.visible visible (hvisible ▸ List.mem_cons_self)
      obtain ⟨viewController, hnext, hneighbour⟩ :=
        neighbour_cases h hs.made direction hmem
      refine ⟨_, ?_, hs.turnTo hnext completed⟩
      simp only [AssetBannerView.step, hvisible, hneighbour]
      rfl

theorem paged_of_run (h : controllers.Nodup) (hne : controllers ≠ []) {past : List PageEvent}
    (hrun : (system controllers).Run past s) : Paged controllers s := by
  apply hrun.preserves (I := Paged controllers)
  · rintro _ rfl
    exact ⟨rfl, rfl, List.length_pos_of_ne_nil hne, List.forall_mem_nil _, Nat.zero_le _, .inl rfl,
      fun hupdate => nomatch hupdate⟩
  · intro s e s' hs hstep
    obtain ⟨t, ht, hpaged⟩ := hs.step h e
    obtain rfl := Option.some.inj (ht.symm.trans hstep)
    exact hpaged

/-- Without a banner the first update traps. -/
theorem step_updated_nil : (body ([] : List UIViewController)).step .updated = none := rfl

/-- The views of distinct banners trap in no order of swipes, page changes and updates, unless there
is no banner at all.  The page is always one of the banners, and the one that the user moved last
shows it; when no update is due both do. -/
theorem views_agree (h : controllers.Nodup) :
    ((∀ past s, (system controllers).Run past s → ∀ e, (s.step e).isSome) ↔ controllers ≠ []) ∧
      ∀ past s, controllers ≠ [] → (system controllers).Run past s →
        s.coordinator.currentPage < controllers.length ∧
          (s.ControlShows ∨ s.BannerShows) ∧
            (s.needsUpdate = false → s.ControlShows ∧ s.BannerShows) := by
  refine ⟨⟨?_, ?_⟩, ?_⟩
  · rintro hall rfl
    have hupdate := hall [] _ (.start rfl) .updated
    rw [step_updated_nil] at hupdate
    cases hupdate
  · intro hne past s hrun e
    obtain ⟨s', hstep, -⟩ := (paged_of_run h hne hrun).step h e
    exact Option.isSome_of_eq_some hstep
  · intro past s hne hrun
    have hs := paged_of_run h hne hrun
    exact ⟨hs.inRange, hs.shown, hs.agree⟩

/-- From the first of three banners the control is moved to the second, and, before the update, the
first is swiped backward: the third is shown, and the update takes the control there. -/
theorem views_agree_three :
    ∃ s, (system ["a", "b", "c"]).Run
        [.updated, .swiped .before true, .valueChanged 1, .updated] s ∧
      s.coordinator.currentPage < 3 ∧ s.ControlShows ∧ s.BannerShows := by
  have hrun : (system ["a", "b", "c"]).Run
      [.updated, .swiped .before true, .valueChanged 1, .updated] _ :=
    .of_runs (fun _ _ _ hstep => hstep) rfl rfl
  have hs := (views_agree (by decide)).2 _ _ (by decide) hrun
  exact ⟨_, hrun, hs.1, hs.2.2 rfl⟩

end AssetBannerView

end PracticeSwift.MyAssets
