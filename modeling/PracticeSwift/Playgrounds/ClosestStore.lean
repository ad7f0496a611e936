import PracticeSwift.Library.Foundation
import PracticeSwift.Library.LastMinimum
import PracticeSwift.Library.Root

/-!
# The closest store

The loop of a playground that looks for the closest store, with exact distances.  It keeps a name,
a distance and an answer to whether that store delivers, and compares the distance of a store with
a minimum that already includes it: the three always belong to one store, the last of the closest
ones so far.
-/

open Foundation LastMinimum

namespace PracticeSwift.Playgrounds

structure Location where
  x : Int64
  y : Int64

/-- `none` is the trap of a difference that is out of range. -/
def distance (current target : Location) : Option Root := do
  let distanceX ← checkedSub target.x current.x
  let distanceY ← checkedSub target.y current.y
  return .sqrt (distanceX.toInt * distanceX.toInt + distanceY.toInt * distanceY.toInt)

structure Store where
  loc : Location
  name : String

namespace Store

/-- `2.0`, the same for every store. -/
def deliveryRange (_ : Store) : Root := .sqrt 4

def isDeliverable (store : Store) (userLoc : Location) : Option Bool := do
  let distanceToStore ← distance userLoc store.loc
  return distanceToStore < store.deliveryRange

end Store

/-- The variables of the loop. -/
structure Closest where
  closestStoreName : String := ""
  closestStoreDistance : Root := .infinity
  isDeliverable : Bool := false

namespace Closest

/-- The body of the loop. -/
def visit (currentLocation : Location) (s : Closest) (store : Store) : Option Closest := do
  let distanceToStore ← distance currentLocation store.loc
  let s := { s with closestStoreDistance := min distanceToStore s.closestStoreDistance }
  if s.closestStoreDistance = distanceToStore then
    let isDeliverable ← store.isDeliverable currentLocation
    return { s with closestStoreName := store.name, isDeliverable }
  else return s

/-- The loop of `printClosestStore`. -/
def search (currentLocation : Location) (stores : List Store) : Option Closest :=
  stores.foldlM (visit currentLocation) {}

end Closest

/-- What is printed. -/
def printClosestStore (currentLocation : Location) (stores : List Store) : Option String := do
  let s ← Closest.search currentLocation stores
  return "Closest store: " ++ s.closestStoreName ++ ", isDeliverable: " ++ toString s.isDeliverable

/-! ## Distances -/

/-- The differences of the coordinates do not overflow. -/
structure InRange (current target : Location) : Prop where
  x_low : Int64.minValue.toInt ≤ target.x.toInt - current.x.toInt
  x_high : target.x.toInt - current.x.toInt ≤ Int64.maxValue.toInt
  y_low : Int64.minValue.toInt ≤ target.y.toInt - current.y.toInt
  y_high : target.y.toInt - current.y.toInt ≤ Int64.maxValue.toInt

/-- The square of the distance. -/
def square (current target : Location) : ℤ :=
  (target.x.toInt - current.x.toInt) * (target.x.toInt - current.x.toInt) +
    (target.y.toInt - current.y.toInt) * (target.y.toInt - current.y.toInt)

/-- The distance in the plane. -/
noncomputable def euclidean (current target : Location) : ℝ := √(square current target : ℝ)

theorem square_nonneg (current target : Location) : 0 ≤ square current target :=
  add_nonneg (mul_self_nonneg _) (mul_self_nonneg _)

theorem distance_eq {current target : Location} (h : InRange current target) :
    distance current target = some (.sqrt (square current target)) := by
  obtain ⟨dx, hdx, hx⟩ := exists_checkedSub h.x_low h.x_high
  obtain ⟨dy, hdy, hy⟩ := exists_checkedSub h.y_low h.y_high
  simp only [distance, hdx, hdy, Option.bind_eq_bind, Option.bind_some, hx, hy]
  rfl

theorem isDeliverable_eq {store : Store} {userLoc : Location} (h : InRange userLoc store.loc) :
    store.isDeliverable userLoc = some (decide (Root.sqrt (square userLoc store.loc) < .sqrt 4)) := by
  rw [Store.isDeliverable, distance_eq h]
  rfl

/-- A store delivers where it is closer than two. -/
theorem isDeliverable_iff {store : Store} {userLoc : Location} (h : InRange userLoc store.loc) :
    store.isDeliverable userLoc = some true ↔ euclidean userLoc store.loc < 2 := by
  have htwo : √((4 : ℤ) : ℝ) = 2 := by
    rw [show ((4 : ℤ) : ℝ) = 2 ^ 2 by norm_num, Real.sqrt_sq zero_le_two]
  rw [isDeliverable_eq h, Option.some.injEq, decide_eq_true_iff,
    Root.sqrt_lt_sqrt_iff (square_nonneg _ _), htwo]
  rfl

/-! ## The loop -/

namespace Closest

variable {currentLocation : Location}

/-- What the loop compares. -/
def key (currentLocation : Location) (store : Store) : Root :=
  .sqrt (square currentLocation store.loc)

theorem key_le_key_iff (store other : Store) :
    key currentLocation store ≤ key currentLocation other ↔
      euclidean currentLocation store.loc ≤ euclidean currentLocation other.loc :=
  Root.sqrt_le_sqrt_iff (square_nonneg _ _)

theorem key_lt_key_iff (store other : Store) :
    key currentLocation store < key currentLocation other ↔
      euclidean currentLocation store.loc < euclidean currentLocation other.loc :=
  Root.sqrt_lt_sqrt_iff (square_nonneg _ _)

/-- The variables when this store is the one kept. -/
def keeping (currentLocation : Location) : Option Store → Closest
  | none => {}
  | some store =>
    { closestStoreName := store.name
      closestStoreDistance := key currentLocation store
      isDeliverable := key currentLocation store < .sqrt 4 }

/-- The test after the update is the test whether the store is at least as close. -/
theorem visit_eq {store : Store} (h : InRange currentLocation store.loc) (s : Closest) :
    visit currentLocation s store =
      some (if key currentLocation store ≤ s.closestStoreDistance
        then keeping currentLocation (some store) else s) := by
  have hdistance : distance currentLocation store.loc = some (key currentLocation store) :=
    distance_eq h
  have hdeliverable : store.isDeliverable currentLocation =
      some (decide (key currentLocation store < .sqrt 4)) := isDeliverable_eq h
  simp only [visit, hdistance, hdeliverable, Option.bind_eq_bind, Option.bind_some]
  by_cases hle : key currentLocation store ≤ s.closestStoreDistance
  · have hmin : min (key currentLocation store) s.closestStoreDistance =
        key currentLocation store := min_eq_left hle
    rw [if_pos hmin, if_pos hle]
    exact congrArg some (congrArg (Closest.mk store.name · _) hmin)
  · have hmin : min (key currentLocation store) s.closestStoreDistance =
        s.closestStoreDistance := min_eq_right (not_le.1 hle).le
    have hne : min (key currentLocation store) s.closestStoreDistance ≠
        key currentLocation store := by
      rw [hmin]
      exact (not_le.1 hle).ne
    rw [if_neg hne, if_neg hle]
    exact congrArg some (congrArg (Closest.mk s.closestStoreName · _) hmin)

/-- The variables stay those of one store. -/
theorem visit_keeping {store : Store} (h : InRange currentLocation store.loc)
    (best : Option Store) :
    visit currentLocation (keeping currentLocation best) store =
      some (keeping currentLocation (keep (key currentLocation) best store)) := by
  rw [visit_eq h]
  cases best with
  | none =>
    have hle : key currentLocation store ≤ .infinity := (Root.sqrt_lt_infinity _).le
    exact congrArg some (if_pos hle)
  | some b =>
    simp only [keep]
    split_ifs with hfirst hsecond hsecond
    · rfl
    · exact absurd hfirst hsecond
    · exact absurd hsecond hfirst
    · rfl

theorem foldlM_visit {stores : List Store}
    (h : ∀ store ∈ stores, InRange currentLocation store.loc) (best : Option Store) :
    stores.foldlM (visit currentLocation) (keeping currentLocation best) =
      some (keeping currentLocation (stores.foldl (keep (key currentLocation)) best)) := by
  induction stores generalizing best with
  | nil => rfl
  | cons store stores ih =>
    rw [List.forall_mem_cons] at h
    rw [List.foldlM_cons, visit_keeping h.1]
    exact ih h.2 _

end Closest

/-- The store that is found is the last of the closest ones, and the answer to whether it delivers
is the answer to whether any store does. -/
theorem search_closest (currentLocation : Location) (stores : List Store) (hne : stores ≠ [])
    (hrange : ∀ store ∈ stores, InRange currentLocation store.loc) :
    ∃ s before store later, Closest.search currentLocation stores = some s ∧
      stores = before ++ store :: later ∧
      (∀ other ∈ stores, euclidean currentLocation store.loc ≤ euclidean currentLocation other.loc) ∧
      (∀ other ∈ later, euclidean currentLocation store.loc < euclidean currentLocation other.loc) ∧
      s.closestStoreName = store.name ∧
      store.isDeliverable currentLocation = some s.isDeliverable ∧
      (s.isDeliverable = true ↔
        ∃ other ∈ stores, other.isDeliverable currentLocation = some true) := by
  obtain ⟨store, before, later, hkept, hminimum⟩ :
      ∃ store before later, lastMinimum (Closest.key currentLocation) stores = some store ∧
        IsLastMinimum (Closest.key currentLocation) stores store before later :=
    exists_isLastMinimum hne
  have hsearch : Closest.search currentLocation stores =
      some (Closest.keeping currentLocation (some store)) := by
    rw [← hkept]
    exact Closest.foldlM_visit hrange none
  have hmem : store ∈ stores := by
    rw [hminimum.split]
    exact List.mem_append_right _ List.mem_cons_self
  refine ⟨_, before, store, later, hsearch, hminimum.split, fun other hother => ?_,
    fun other hother => ?_, rfl, isDeliverable_eq (hrange store hmem), fun h => ?_, ?_⟩
  · exact (Closest.key_le_key_iff store other).1 (hminimum.le other hother)
  · exact (Closest.key_lt_key_iff store other).1 (hminimum.lt_later other hother)
  · exact ⟨store, hmem, (isDeliverable_eq (hrange store hmem)).trans (congrArg some h)⟩
  · rintro ⟨other, hother, hdelivers⟩
    rw [isDeliverable_eq (hrange other hother), Option.some.injEq, decide_eq_true_iff] at hdelivers
    exact decide_eq_true ((hminimum.le other hother).trans_lt hdelivers)

/-- The three stores and the location of the playground. -/
def stores : List Store := [⟨⟨3, 5⟩, "gs"⟩, ⟨⟨4, 6⟩, "seven"⟩, ⟨⟨1, 7⟩, "cu"⟩]

def myLocation : Location := ⟨4, 5⟩

theorem inRange_stores : ∀ store ∈ stores, InRange myLocation store.loc := by
  intro store hstore
  have hcases : store = ⟨⟨3, 5⟩, "gs"⟩ ∨ store = ⟨⟨4, 6⟩, "seven"⟩ ∨ store = ⟨⟨1, 7⟩, "cu"⟩ := by
    simpa only [stores, List.mem_cons, List.not_mem_nil, or_false] using hstore
  rcases hcases with rfl | rfl | rfl <;> constructor <;> decide

theorem search_closest_stores :
    ∃ s before store later, Closest.search myLocation stores = some s ∧
      stores = before ++ store :: later ∧ s.closestStoreName = store.name := by
  obtain ⟨s, before, store, later, hsearch, hsplit, -, -, hname, -⟩ :=
    search_closest myLocation stores (List.cons_ne_nil _ _) inRange_stores
  exact ⟨s, before, store, later, hsearch, hsplit, hname⟩

/-- Of two stores at the same distance the later one is found. -/
example : printClosestStore myLocation stores =
    some "Closest store: seven, isDeliverable: true" := by
  decide

end PracticeSwift.Playgrounds
