import Mathlib.Algebra.Order.Ring.Unbundled.Rat
import Mathlib.Order.Monotone.Defs
import PracticeSwift.BlogSearch.MainModel

/-!
# The order of the dates

The predicate that sorts the newest cell first takes the current time for the date of a cell that
has none, and takes it anew for every question.  Cells that all have a date are compared by their
dates.  As soon as one has none, the answers are those of a strict weak order only while the clock
stands still: a cell without a date precedes itself when time passes between the two readings.
-/

open Sorting

namespace PracticeSwift.BlogSearch

/-! ## Readings -/

/-- The readings left after the first `n`. -/
def Readings.drop (n : ℕ) (readings : Readings) : Readings := fun k => readings (n + k)

@[simp] theorem Readings.drop_apply (n k : ℕ) (readings : Readings) :
    readings.drop n k = readings (n + k) := rfl

theorem Readings.drop_zero (readings : Readings) : readings.drop 0 = readings := by
  funext k
  simp

theorem Readings.drop_drop (m n : ℕ) (readings : Readings) :
    (readings.drop m).drop n = readings.drop (m + n) := by
  funext k
  exact congrArg readings (Nat.add_assoc m n k).symm

theorem Readings.drop_two_even (readings : Readings) (n : ℕ) :
    readings.drop 2 (2 * n) = readings (2 * (n + 1)) :=
  congrArg readings (by omega)

theorem Readings.drop_two_odd (readings : Readings) (n : ℕ) :
    readings.drop 2 (2 * n + 1) = readings (2 * (n + 1) + 1) :=
  congrArg readings (by omega)

/-- How many readings the date of a cell takes. -/
def readingsOf (datetime : Option Date) : ℕ := if datetime.isSome then 0 else 1

theorem Clock.orDate_eq (datetime : Option Date) (readings : Readings) :
    Clock.orDate datetime readings =
      (datetime.getD (readings 0), readings.drop (readingsOf datetime)) := by
  cases datetime with
  | some date => exact Prod.ext rfl readings.drop_zero.symm
  | none =>
    refine Prod.ext rfl ?_
    funext k
    exact congrArg readings (Nat.add_comm k 1)

namespace MainModel

/-- The date of `b` is read first. -/
theorem datetimeOrder_eq (a b : BlogListCellData) (readings : Readings) :
    datetimeOrder a b readings =
      (decide (b.datetime.getD (readings 0) < a.datetime.getD (readings (readingsOf b.datetime))),
        readings.drop (readingsOf b.datetime + readingsOf a.datetime)) := by
  simp only [datetimeOrder, bind, StateT.bind, Clock.orDate_eq, Readings.drop_drop]
  rfl

/-! ## The order at one moment -/

/-- `a` is newer than `b`, where a missing date is `now`. -/
def newerAt (now : Date) (a b : BlogListCellData) : Prop :=
  b.datetime.getD now < a.datetime.getD now

/-- The answers are those of the order at one moment as long as the invariant makes them so. -/
theorem answers_of_invariant {data : List BlogListCellData} (now : Date) {I : Readings → Prop}
    (answer : ∀ a ∈ data, ∀ b ∈ data, ∀ readings, I readings →
      (b.datetime.getD (readings 0) < a.datetime.getD (readings (readingsOf b.datetime)) ↔
        newerAt now a b))
    (next : ∀ a ∈ data, ∀ b ∈ data, ∀ readings, I readings →
      I (readings.drop (readingsOf b.datetime + readingsOf a.datetime)))
    {readings : Readings} (hreadings : I readings) :
    IsStrictWeakOrdering datetimeOrder data readings := by
  intro questions
  refine ⟨fun a b => newerAt now a b, isStrictWeakOrder_of_key _, ?_⟩
  apply answersAs_of_invariant (I := I) _ _ questions hreadings
  · intro a b readings hI
    rw [datetimeOrder_eq, decide_eq_true_iff]
    exact answer a a.2 b b.2 readings hI
  · intro a b readings hI
    rw [datetimeOrder_eq]
    exact next a a.2 b b.2 readings hI

/-! ## Questions about one cell -/

/-- A cell without a date, asked about over and over, shows that no time passes between the two
readings of a question. -/
theorem steady_of_answers {data : List BlogListCellData}
    {r : {a // a ∈ data} → {a // a ∈ data} → Prop} [IsStrictWeakOrder {a // a ∈ data} r]
    {u : {a // a ∈ data}} (hu : u.1.datetime = none) (n : ℕ) {readings : Readings}
    (h : AnswersAs datetimeOrder r (List.replicate (n + 1) (u, u)) readings) :
    readings (2 * n + 1) ≤ readings (2 * n) := by
  induction n generalizing readings with
  | zero =>
    have hself : ¬ r u u := irrefl u
    have hanswer := mt h.1.1 hself
    simpa [datetimeOrder_eq, hu, readingsOf] using hanswer
  | succ n ih =>
    have hstate : (datetimeOrder u u readings).2 = readings.drop 2 := by
      simp [datetimeOrder_eq, hu, readingsOf]
    have hnext := h.2
    rw [hstate] at hnext
    have hlater := ih hnext
    rwa [Readings.drop_two_odd, Readings.drop_two_even] at hlater

/-- With a cell that has no date, no time passes within the questions about it. -/
theorem steady_of_undated {data : List BlogListCellData} {readings : Readings}
    (h : IsStrictWeakOrdering datetimeOrder data readings) {u : BlogListCellData}
    (hmem : u ∈ data) (hu : u.datetime = none) (n : ℕ) :
    readings (2 * n + 1) ≤ readings (2 * n) := by
  obtain ⟨r, _, hanswers⟩ := h (List.replicate (n + 1) (⟨u, hmem⟩, ⟨u, hmem⟩))
  exact steady_of_answers hu n hanswers

/-- A question with one date among the two shifts the later questions by one reading. -/
theorem steady_between {data : List BlogListCellData} {readings : Readings}
    (h : IsStrictWeakOrdering datetimeOrder data readings) {u d : BlogListCellData}
    (humem : u ∈ data) (hu : u.datetime = none) (hdmem : d ∈ data) (hd : d.datetime.isSome)
    (n : ℕ) : readings (2 * n + 2) ≤ readings (2 * n + 1) := by
  obtain ⟨r, _, -, hanswers⟩ :=
    h ((⟨u, humem⟩, ⟨d, hdmem⟩) :: List.replicate (n + 1) (⟨u, humem⟩, ⟨u, humem⟩))
  have hstate : (datetimeOrder u d readings).2 = readings.drop 1 := by
    simp [datetimeOrder_eq, hu, hd, readingsOf]
  rw [hstate] at hanswers
  have hle := steady_of_answers hu n hanswers
  rwa [Readings.drop_apply, Readings.drop_apply, show 1 + (2 * n + 1) = 2 * n + 2 by omega,
    Nat.add_comm 1] at hle

/-! ## When the answers are those of an order -/

/-- Every cell has a date; or the clock stands still, within each question at least if no cell has
a date. -/
def Settled (data : List BlogListCellData) (readings : Readings) : Prop :=
  (∀ a ∈ data, a.datetime.isSome) ∨ (∀ n, readings (n + 1) = readings n) ∨
    (∀ a ∈ data, a.datetime = none) ∧ ∀ n, readings (2 * n + 1) = readings (2 * n)

theorem isStrictWeakOrdering_of_dated {data : List BlogListCellData} {readings : Readings}
    (hdated : ∀ a ∈ data, a.datetime.isSome) :
    IsStrictWeakOrdering datetimeOrder data readings := by
  apply answers_of_invariant (readings 0) (I := fun _ => True) _ _ trivial
  · intro a ha b hb _ _
    obtain ⟨da, hda⟩ := Option.isSome_iff_exists.1 (hdated a ha)
    obtain ⟨db, hdb⟩ := Option.isSome_iff_exists.1 (hdated b hb)
    simp only [newerAt, hda, hdb, Option.getD_some]
  · intros
    trivial

theorem isStrictWeakOrdering_of_still {data : List BlogListCellData} {readings : Readings}
    (hclock : ∀ n, readings (n + 1) = readings n) :
    IsStrictWeakOrdering datetimeOrder data readings := by
  have hnow : ∀ n, readings n = readings 0 := by
    intro n
    induction n with
    | zero => rfl
    | succ n ih => exact (hclock n).trans ih
  apply answers_of_invariant (readings 0) (I := fun r => ∀ n, r n = readings 0) _ _ hnow
  · intro a _ b _ r hr
    simp only [newerAt, hr]
  · intro a _ b _ r hr n
    exact hr _

/-- No cell precedes another then. -/
theorem isStrictWeakOrdering_of_undated {data : List BlogListCellData} {readings : Readings}
    (hundated : ∀ a ∈ data, a.datetime = none)
    (hclock : ∀ n, readings (2 * n + 1) = readings (2 * n)) :
    IsStrictWeakOrdering datetimeOrder data readings := by
  apply answers_of_invariant (readings 0) (I := fun r => ∀ n, r (2 * n + 1) = r (2 * n)) _ _ hclock
  · intro a ha b hb r hr
    have hsame : r 1 = r 0 := hr 0
    simp [newerAt, hundated a ha, hundated b hb, readingsOf, hsame]
  · intro a ha b hb r hr n
    have htwo : readingsOf b.datetime + readingsOf a.datetime = 2 := by
      simp [hundated a ha, hundated b hb, readingsOf]
    rw [htwo, Readings.drop_two_odd, Readings.drop_two_even]
    exact hr (n + 1)

theorem isStrictWeakOrdering_of_settled {data : List BlogListCellData} {readings : Readings}
    (h : Settled data readings) : IsStrictWeakOrdering datetimeOrder data readings := by
  rcases h with hdated | hclock | ⟨hundated, hclock⟩
  · exact isStrictWeakOrdering_of_dated hdated
  · exact isStrictWeakOrdering_of_still hclock
  · exact isStrictWeakOrdering_of_undated hundated hclock

/-- The predicate of the `.datetime` case answers as a strict weak order, in whatever order the
cells are compared, exactly when every cell has a date or the clock stands still. -/
theorem datetimeOrder_strictWeak_iff (data : List BlogListCellData) (readings : Readings)
    (hclock : Monotone readings) :
    IsStrictWeakOrdering datetimeOrder data readings ↔ Settled data readings := by
  refine ⟨fun h => ?_, isStrictWeakOrdering_of_settled⟩
  by_cases hdated : ∀ a ∈ data, a.datetime.isSome
  · exact .inl hdated
  obtain ⟨u, humem, hu⟩ : ∃ u ∈ data, u.datetime = none := by
    simpa using hdated
  have heven : ∀ n, readings (2 * n + 1) = readings (2 * n) := fun n =>
    le_antisymm (steady_of_undated h humem hu n) (hclock (Nat.le_succ _))
  by_cases hundated : ∀ a ∈ data, a.datetime = none
  · exact .inr (.inr ⟨hundated, heven⟩)
  obtain ⟨d, hdmem, hd⟩ : ∃ d ∈ data, d.datetime.isSome := by
    simpa [Option.isSome_iff_ne_none] using hundated
  have hodd : ∀ n, readings (2 * n + 2) = readings (2 * n + 1) := fun n =>
    le_antisymm (steady_between h humem hu hdmem hd n) (hclock (Nat.le_succ _))
  right
  left
  intro n
  obtain ⟨k, rfl | rfl⟩ : ∃ k, n = 2 * k ∨ n = 2 * k + 1 := ⟨n / 2, by omega⟩
  · exact heven k
  · exact hodd k

/-- A clock that ticks. -/
def ticking : Readings := fun n => n

theorem monotone_ticking : Monotone ticking := fun _ _ h => Rat.natCast_le_natCast.2 h

def cell (datetime : Option Date) : BlogListCellData where
  thumbnailURL := none
  name := none
  title := none
  datetime := datetime

theorem datetimeOrder_strictWeak_iff_dated :
    IsStrictWeakOrdering datetimeOrder [cell (some 7), cell (some (-2))] ticking :=
  (datetimeOrder_strictWeak_iff _ _ monotone_ticking).2 (.inl (by decide))

/-- A cell without a date precedes itself. -/
theorem undated_precedes_itself :
    ¬ ∀ (data : List BlogListCellData) (readings : Readings), Monotone readings →
      IsStrictWeakOrdering datetimeOrder data readings := by
  intro h
  have hle := steady_of_undated (h [cell none] ticking monotone_ticking) List.mem_cons_self rfl 0
  revert hle
  decide

end MainModel

end PracticeSwift.BlogSearch
