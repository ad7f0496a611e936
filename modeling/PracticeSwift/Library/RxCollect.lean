import PracticeSwift.Library.Rx

/-!
# Operators that flatten, skip, count and collect

The machines of `flatMap` (over sequences that emit everything when they are subscribed),
`skip(while:)`, `take` and `toArray`, and what each makes of a source that emits some elements and
then completes or goes on.  Each result is again such a source, so that a chain of operators is
computed by rewriting.
-/

namespace Rx

variable {α β : Type*}

/-- What a subject sends that emits these elements and then completes or goes on. -/
def source (elements : List α) (completed : Bool) : List (Event α) :=
  elements.map .next ++ if completed then [.completed] else []

@[simp] theorem source_nil (completed : Bool) :
    source ([] : List α) completed = if completed then [.completed] else [] := rfl

@[simp] theorem source_cons (a : α) (l : List α) (completed : Bool) :
    source (a :: l) completed = .next a :: source l completed := rfl

theorem map_source (f : α → β) (l : List α) (completed : Bool) :
    (source l completed).map (Event.map f) = source (l.map f) completed := by
  cases completed <;> simp [source, Event.map]

/-- `map` with a closure that may trap (`none`). -/
def Event.mapM (f : α → Option β) : Event α → Option (Event β)
  | next element => (f element).map next
  | error => some error
  | completed => some completed

/-! ## Flattening -/

/-- `flatMap`: how many inner sequences go on, whether the source has completed, and whether the
whole has ended. -/
structure FlatMap where
  active : ℕ := 0
  stopped : Bool := false
  disposed : Bool := false

namespace FlatMap

/-- The events of an inner sequence, on its subscription. -/
def onInner (s : FlatMap) : Sequence β → FlatMap × List (Event β)
  | [] => ({ s with active := s.active + 1 }, [])
  | .next element :: events =>
    let (s, forwarded) := s.onInner events
    (s, .next element :: forwarded)
  | .error :: _ => ({ s with disposed := true }, [.error])
  | .completed :: _ => (s, [])

def on (selector : α → Sequence β) (s : FlatMap) (event : Event α) : FlatMap × List (Event β) :=
  if s.disposed || s.stopped then (s, [])
  else match event with
    | .next element => s.onInner (selector element)
    | .error => ({ s with disposed := true }, [.error])
    | .completed =>
      if s.active = 0 then ({ s with stopped := true, disposed := true }, [.completed])
      else ({ s with stopped := true }, [])

/-- An inner sequence that completes leaves no trace but its elements. -/
theorem onInner_source (s : FlatMap) (l : List β) :
    s.onInner (source l true) = (s, l.map .next) := by
  induction l with
  | nil => rfl
  | cons b l ih => simp [onInner, ih]

theorem feed_source (f : α → List β) (l : List α) (completed : Bool) :
    (feed (on fun a => source (f a) true) {} (source l completed)).2 =
      source (l.flatMap f) completed := by
  induction l with
  | nil => cases completed <;> rfl
  | cons a l ih =>
    rw [source_cons, feed]
    show ((onInner {} (source (f a) true)).2 ++ (feed _ (onInner {} (source (f a) true)).1 _).2) = _
    rw [onInner_source, ih, List.flatMap_cons]
    simp [source]

end FlatMap

/-! ## Skipping -/

/-- `skip(while:)`: whether an element has got through. -/
structure SkipWhile where
  running : Bool := false
  disposed : Bool := false

namespace SkipWhile

def on (predicate : α → Bool) (s : SkipWhile) (event : Event α) : SkipWhile × List (Event α) :=
  if s.disposed then (s, [])
  else match event with
    | .next element =>
      if s.running || !predicate element then ({ s with running := true }, [.next element])
      else (s, [])
    | .error => ({ s with disposed := true }, [.error])
    | .completed => ({ s with disposed := true }, [.completed])

theorem feed_running (predicate : α → Bool) (l : List α) (completed : Bool) :
    (feed (on predicate) { running := true } (source l completed)).2 = source l completed := by
  induction l with
  | nil => cases completed <;> rfl
  | cons a l ih => simp [feed, on, ih]

theorem feed_source (predicate : α → Bool) (l : List α) (completed : Bool) :
    (feed (on predicate) {} (source l completed)).2 = source (l.dropWhile predicate) completed := by
  induction l with
  | nil => cases completed <;> rfl
  | cons a l ih =>
    by_cases ha : predicate a
    · simp [feed, on, ha, ih]
    · simp [feed, on, ha, feed_running]

end SkipWhile

/-! ## Counting -/

/-- `take`: how many elements may still pass. -/
structure Take where
  remaining : ℕ
  disposed : Bool := false

namespace Take

def on (s : Take) (event : Event α) : Take × List (Event α) :=
  if s.disposed then (s, [])
  else match event with
    | .next element =>
      if s.remaining = 0 then (s, [])
      else if s.remaining = 1 then
        ({ remaining := 0, disposed := true }, [.next element, .completed])
      else ({ s with remaining := s.remaining - 1 }, [.next element])
    | .error => ({ s with disposed := true }, [.error])
    | .completed => ({ s with disposed := true }, [.completed])

theorem feed_disposed (remaining : ℕ) (events : List (Event α)) :
    (feed on { remaining, disposed := true } events).2 = [] := by
  induction events with
  | nil => rfl
  | cons event events ih => simpa [feed, on] using ih

/-- The result completes with the source or with the last element that may pass. -/
theorem feed_source {remaining : ℕ} (h : 0 < remaining) (l : List α) (completed : Bool) :
    (feed on { remaining } (source l completed)).2 =
      source (l.take remaining) (completed || remaining ≤ l.length) := by
  induction l generalizing remaining with
  | nil =>
    have hlong : ¬ remaining ≤ 0 := by omega
    cases completed <;> simp [on, hlong]
  | cons a l ih =>
    obtain ⟨n, rfl⟩ : ∃ n, remaining = n + 1 := ⟨remaining - 1, by omega⟩
    cases n with
    | zero => simp [feed, on, feed_disposed]
    | succ n => simpa [feed, on] using ih (Nat.succ_pos n)

end Take

/-! ## Collecting -/

/-- `toArray`: the elements so far. -/
structure ToArray (α : Type*) where
  list : List α := []
  disposed : Bool := false

namespace ToArray

def on (s : ToArray α) (event : Event α) : ToArray α × List (Event (List α)) :=
  if s.disposed then (s, [])
  else match event with
    | .next element => ({ s with list := s.list ++ [element] }, [])
    | .error => ({ s with disposed := true }, [.error])
    | .completed => ({ s with disposed := true }, [.next s.list, .completed])

/-- The array is emitted when the source completes. -/
theorem feed_source (list l : List α) (completed : Bool) :
    (feed on { list } (source l completed)).2 =
      if completed then source [list ++ l] true else [] := by
  induction l generalizing list with
  | nil => cases completed <;> simp [on]
  | cons a l ih => simpa [feed, on] using ih (list ++ [a])

end ToArray

end Rx
