import Mathlib.Data.String.Basic
import PracticeSwift.BlogSearch.DateOrder
import PracticeSwift.BlogSearch.RightList

/-!
# The order of the shown list

The list that is shown is the latest result in the order chosen last.  By title this is a stable
sort in the order of strings that the platform has, a missing title being empty.  By date it is one,
the newest first, whenever the predicate answers as one order: then cells of one date keep the order
of the result.
-/

open Sorting Transition URLSession

namespace PracticeSwift.BlogSearch

namespace MainModel

/-- The order of the titles; a missing one is empty. -/
def titleBefore (platform : Platform) (a b : BlogListCellData) : Prop :=
  platform.precedes (a.title.getD "") (b.title.getD "") = true

instance (platform : Platform) : DecidableRel (titleBefore platform) := fun a b =>
  inferInstanceAs (Decidable (platform.precedes (a.title.getD "") (b.title.getD "") = true))

instance (platform : Platform) [h : IsStrictWeakOrder String (platform.precedes · ·)] :
    IsStrictWeakOrder BlogListCellData (titleBefore platform) where
  irrefl a := h.irrefl (a.title.getD "")
  trans a b c := h.trans (a.title.getD "") (b.title.getD "") (c.title.getD "")
  incomp_trans a b c := h.incomp_trans (a.title.getD "") (b.title.getD "") (c.title.getD "")

instance (now : Date) : DecidableRel (newerAt now) := fun a b =>
  inferInstanceAs (Decidable (b.datetime.getD now < a.datetime.getD now))

instance (now : Date) : IsStrictWeakOrder BlogListCellData (newerAt now) :=
  isStrictWeakOrder_of_key fun a : BlogListCellData => a.datetime.getD now

variable {data : List BlogListCellData} {readings : Readings}

theorem decides_titleOrder (platform : Platform) (data : List BlogListCellData) :
    Decides (titleOrder platform) (titleBefore platform) (fun _ => True) data where
  answer _ _ _ _ _ _ := Iff.rfl
  next _ _ _ _ _ _ := trivial

theorem decides_datetimeOrder_of_dated (now : Date) (hdated : ∀ a ∈ data, a.datetime.isSome) :
    Decides datetimeOrder (newerAt now) (fun _ => True) data where
  answer a ha b hb readings _ := by
    obtain ⟨da, hda⟩ := Option.isSome_iff_exists.1 (hdated a ha)
    obtain ⟨db, hdb⟩ := Option.isSome_iff_exists.1 (hdated b hb)
    rw [datetimeOrder_eq, decide_eq_true_iff]
    simp only [newerAt, hda, hdb, Option.getD_some]
  next _ _ _ _ _ _ := trivial

theorem decides_datetimeOrder_of_still (now : Date) :
    Decides datetimeOrder (newerAt now) (fun readings => ∀ n, readings n = now) data where
  answer a _ b _ readings hnow := by
    rw [datetimeOrder_eq, decide_eq_true_iff]
    simp only [newerAt, hnow]
  next a _ b _ readings hnow n := by
    rw [datetimeOrder_eq]
    exact hnow _

/-- Two readings for each question, the same one twice. -/
theorem decides_datetimeOrder_of_undated (now : Date) (hundated : ∀ a ∈ data, a.datetime = none) :
    Decides datetimeOrder (newerAt now) (fun readings => ∀ n, readings (2 * n + 1) = readings (2 * n))
      data where
  answer a ha b hb readings hclock := by
    have hsame : readings 1 = readings 0 := hclock 0
    rw [datetimeOrder_eq, decide_eq_true_iff]
    simp [newerAt, hundated a ha, hundated b hb, readingsOf, hsame]
  next a ha b hb readings hclock n := by
    have htwo : readingsOf b.datetime + readingsOf a.datetime = 2 := by
      simp [hundated a ha, hundated b hb, readingsOf]
    rw [datetimeOrder_eq, htwo]
    show readings.drop 2 (2 * n + 1) = readings.drop 2 (2 * n)
    rw [Readings.drop_two_odd, Readings.drop_two_even]
    exact hclock (n + 1)

theorem isStableSort_title (platform : Platform)
    [IsStrictWeakOrder String (platform.precedes · ·)] (data : List BlogListCellData)
    (readings : Readings) :
    IsStableSort (titleBefore platform) data (sort platform .title data readings).1 :=
  (decides_titleOrder platform data).isStableSort trivial

/-- Whenever the questions are answered as by one order, the newest cells come first. -/
theorem isStableSort_datetime (platform : Platform) (h : Settled data readings) :
    IsStableSort (newerAt (readings 0)) data (sort platform .datetime data readings).1 := by
  rcases h with hdated | hclock | ⟨hundated, hclock⟩
  · exact (decides_datetimeOrder_of_dated _ hdated).isStableSort trivial
  · have hnow : ∀ n, readings n = readings 0 := by
      intro n
      induction n with
      | zero => rfl
      | succ n ih => exact (hclock n).trans ih
    exact (decides_datetimeOrder_of_still _).isStableSort hnow
  · exact (decides_datetimeOrder_of_undated _ hundated).isStableSort hclock

end MainModel

namespace MainScreen

variable {platform : Platform} {version : Version} {past : List Happening} {s : MainScreen}

/-- Only the two orders are ever chosen. -/
theorem display_type (platform : Platform) (past : List Happening) :
    (display platform past).type = .title ∨ (display platform past).type = .datetime := by
  induction past with
  | nil => exact Or.inl rfl
  | cons e past ih =>
    obtain ⟨e, readings⟩ := e
    cases harrived : arrived platform past e with
    | some result => cases result <;> simpa only [display, harrived] using ih
    | none =>
      cases e with
      | alertAction action => cases action <;> simp [display, harrived, ih]
      | submitted => simpa only [display, harrived] using ih
      | responded => simpa only [display, harrived] using ih
      | sortButtonTapped => simpa only [display, harrived] using ih

/-- A shown list has the cells of the latest result, sorted by what was chosen last, and cells that
are tied stand in the order of the result. -/
theorem list_sorted (hprecedes : IsStrictWeakOrder String (platform.precedes · ·))
    (h : (system platform version).Run past s) {list : List BlogListCellData}
    (hlist : s.handed.getLast? = some list) :
    ∃ blog, (display platform past).blog = some blog ∧
      list.Perm (MainModel.getBlogListCellData platform blog) ∧
      ((display platform past).type = .title ∧
          IsStableSort (MainModel.titleBefore platform)
            (MainModel.getBlogListCellData platform blog) list ∨
        (display platform past).type = .datetime ∧
          (MainModel.Settled (MainModel.getBlogListCellData platform blog)
              (display platform past).readings →
            IsStableSort (MainModel.newerAt ((display platform past).readings 0))
              (MainModel.getBlogListCellData platform blog) list)) := by
  have hshown := (tracks_of_run h).shows.list
  rw [hlist, Display.list] at hshown
  obtain ⟨blog, hblog, rfl⟩ := Option.map_eq_some_iff.1 hshown.symm
  refine ⟨blog, hblog, perm_sort _ _ _ _, ?_⟩
  rcases display_type platform past with htype | htype
  · rw [htype]
    exact Or.inl ⟨rfl, MainModel.isStableSort_title _ _ _⟩
  · rw [htype]
    exact Or.inr ⟨rfl, MainModel.isStableSort_datetime _⟩

/-- Code points order strings totally. -/
theorem precedes_anyQuery : IsStrictWeakOrder String (anyQuery.precedes · ·) where
  irrefl a := by
    simp only [anyQuery, decide_eq_true_eq]
    exact lt_irrefl a
  trans a b c := by
    simp only [anyQuery, decide_eq_true_eq]
    exact lt_trans
  incomp_trans a b c := by
    simp only [anyQuery, decide_eq_true_eq, not_lt]
    rintro ⟨hba, hab⟩ ⟨hcb, hbc⟩
    exact ⟨hcb.trans hba, hab.trans hbc⟩

/-- A search and its response. -/
def searched : List Happening :=
  [(.responded 1 (found ["Swift", "Rx"]), fun _ => 0), (.submitted "rx", fun _ => 0)]

theorem list_sorted_searched :
    ∃ blog, (display anyQuery searched).blog = some blog ∧
      [cell "Rx", cell "Swift"].Perm (MainModel.getBlogListCellData anyQuery blog) := by
  have hrun : (system anyQuery .original).Run searched _ :=
    .step (.step (.start ⟨fun _ => 0, rfl⟩) rfl) rfl
  obtain ⟨blog, hblog, hperm, -⟩ :=
    @list_sorted _ _ _ _ precedes_anyQuery hrun [cell "Rx", cell "Swift"] rfl
  exact ⟨blog, hblog, hperm⟩

end MainScreen

end PracticeSwift.BlogSearch
