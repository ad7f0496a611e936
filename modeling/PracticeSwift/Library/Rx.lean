import Mathlib.Data.List.Basic

/-!
# Observable sequences

The operators of a reactive library as explicit state machines.  A cold sequence that emits
everything at one go is the list of its events; an operator on a hot sequence turns each incoming
event into a new state and the events it forwards.  A sequence emits nothing after an error or a
completion, which the machines remember.
-/

namespace Rx

variable {α β γ : Type*}

inductive Event (α : Type*)
  | next (element : α)
  | error
  | completed

namespace Event

def map (f : α → β) : Event α → Event β
  | next element => next (f element)
  | error => error
  | completed => completed

def compactMap (f : α → Option β) : Event α → List (Event β)
  | next element => ((f element).map next).toList
  | error => [error]
  | completed => [completed]

def filter (p : α → Bool) (event : Event α) : List (Event α) :=
  event.compactMap (Option.guard p)

end Event

/-- The elements among the events. -/
def elements (events : List (Event α)) : List α :=
  events.filterMap fun
    | .next element => some element
    | _ => none

/-- What an operator forwards of several events, one after the other. -/
def feed {σ : Type*} (on : σ → Event α → σ × List (Event β)) (s : σ) :
    List (Event α) → σ × List (Event β)
  | [] => (s, [])
  | event :: events =>
    let (s, forwarded) := on s event
    let (s, rest) := feed on s events
    (s, forwarded ++ rest)

@[simp]
theorem feed_nil {σ : Type*} (on : σ → Event α → σ × List (Event β)) (s : σ) :
    feed on s [] = (s, []) :=
  rfl

@[simp]
theorem feed_singleton {σ : Type*} (on : σ → Event α → σ × List (Event β)) (s : σ)
    (event : Event α) : feed on s [event] = on s event := by
  simp [feed]

/-! ## Cold sequences -/

/-- All the events that a subscription leads to. -/
abbrev Sequence (α : Type*) := List (Event α)

namespace Sequence

def just (element : α) : Sequence α := [.next element, .completed]

/-- A failure is replaced by the sequence `handler`. -/
def catchError (handler : Sequence α) : Sequence α → Sequence α
  | [] => []
  | .next element :: events => .next element :: catchError handler events
  | .error :: _ => handler
  | .completed :: _ => [.completed]

/-- The one element of a sequence, emitted with its completion; any other number is an error. -/
def asSingle (events : Sequence α) : Sequence α :=
  go none events
where
  go (element : Option α) : Sequence α → Sequence α
    | [] => []
    | .next a :: events =>
      match element with
      | none => go (some a) events
      | some _ => [.error]
    | .error :: _ => [.error]
    | .completed :: _ =>
      match element with
      | some a => just a
      | none => [.error]

end Sequence

/-! ## The latest inner sequence -/

/-- `flatMapLatest`: the number of the inner sequence subscribed last, whether it goes on, and
whether the source has completed or the whole has ended. -/
structure FlatMapLatest where
  latest : ℕ := 0
  hasLatest : Bool := false
  stopped : Bool := false
  disposed : Bool := false

namespace FlatMapLatest

/-- An event of the source, with the number of the inner sequence to subscribe: an element starts a
new one, which supersedes the one before. -/
def onSource (s : FlatMapLatest) (event : Event α) :
    FlatMapLatest × Option ℕ × List (Event β) :=
  if s.stopped || s.disposed then (s, none, [])
  else match event with
    | .next _ => ({ s with latest := s.latest + 1, hasLatest := true }, some (s.latest + 1), [])
    | .error => ({ s with disposed := true }, none, [.error])
    | .completed =>
      if s.hasLatest then ({ s with stopped := true }, none, [])
      else ({ s with stopped := true, disposed := true }, none, [.completed])

/-- An event of the inner sequence numbered `id`. -/
def onInner (s : FlatMapLatest) (id : ℕ) (event : Event β) : FlatMapLatest × List (Event β) :=
  if s.disposed || s.latest != id then (s, [])
  else match event with
    | .next element => (s, [.next element])
    | .error => ({ s with disposed := true }, [.error])
    | .completed =>
      if s.stopped then ({ s with hasLatest := false, disposed := true }, [.completed])
      else ({ s with hasLatest := false }, [])

/-- The events of an inner sequence, one after the other. -/
def onInners (s : FlatMapLatest) (id : ℕ) : Sequence β → FlatMapLatest × List (Event β)
  | [] => (s, [])
  | event :: events =>
    let (s, forwarded) := s.onInner id event
    let (s, rest) := onInners s id events
    (s, forwarded ++ rest)

/-- Neither the source nor the whole has ended. -/
structure Alive (s : FlatMapLatest) : Prop where
  stopped : s.stopped = false
  disposed : s.disposed = false

/-- A superseded sequence changes nothing. -/
theorem onInners_of_ne {s : FlatMapLatest} {id : ℕ} (h : id ≠ s.latest) (events : Sequence β) :
    s.onInners id events = (s, []) := by
  induction events with
  | nil => rfl
  | cons event events ih =>
    have hignored : s.onInner id event = (s, []) := by
      simp [onInner, Ne.symm h]
    rw [onInners, hignored]
    simp only [ih, List.append_nil]

/-- The latest sequence of one element forwards it, and its end is not the end of the whole. -/
theorem onInners_just {s : FlatMapLatest} (h : s.Alive) (element : β) :
    s.onInners s.latest (Sequence.just element) =
      ({ s with hasLatest := false }, [.next element]) := by
  simp [onInners, onInner, Sequence.just, h.stopped, h.disposed]

theorem onSource_next {s : FlatMapLatest} (h : s.Alive) (element : α) :
    s.onSource (.next element) =
      (({ s with latest := s.latest + 1, hasLatest := true }, some (s.latest + 1), []) :
        FlatMapLatest × Option ℕ × List (Event β)) := by
  simp [onSource, h.stopped, h.disposed]

end FlatMapLatest

/-! ## Combining the latest elements -/

/-- `combineLatest` of two sequences: their latest elements and how they have ended. -/
structure CombineLatest (α β : Type*) where
  left : Option α := none
  right : Option β := none
  leftDone : Bool := false
  rightDone : Bool := false
  disposed : Bool := false

namespace CombineLatest

def onLeft (f : α → β → γ) (s : CombineLatest α β) (event : Event α) :
    CombineLatest α β × List (Event γ) :=
  if s.disposed || s.leftDone then (s, [])
  else match event with
    | .next a =>
      match s.right with
      | some b => ({ s with left := some a }, [.next (f a b)])
      | none =>
        if s.rightDone then ({ s with left := some a, disposed := true }, [.completed])
        else ({ s with left := some a }, [])
    | .error => ({ s with disposed := true }, [.error])
    | .completed =>
      if s.rightDone then ({ s with leftDone := true, disposed := true }, [.completed])
      else ({ s with leftDone := true }, [])

def onRight (f : α → β → γ) (s : CombineLatest α β) (event : Event β) :
    CombineLatest α β × List (Event γ) :=
  if s.disposed || s.rightDone then (s, [])
  else match event with
    | .next b =>
      match s.left with
      | some a => ({ s with right := some b }, [.next (f a b)])
      | none =>
        if s.leftDone then ({ s with right := some b, disposed := true }, [.completed])
        else ({ s with right := some b }, [])
    | .error => ({ s with disposed := true }, [.error])
    | .completed =>
      if s.leftDone then ({ s with rightDone := true, disposed := true }, [.completed])
      else ({ s with rightDone := true }, [])

/-- Neither sequence has ended. -/
structure Alive (s : CombineLatest α β) : Prop where
  leftDone : s.leftDone = false
  rightDone : s.rightDone = false
  disposed : s.disposed = false

/-- The combination of the latest elements, once both sequences have emitted one. -/
def combination (f : α → β → γ) (s : CombineLatest α β) : List (Event γ) :=
  match s.left, s.right with
  | some a, some b => [.next (f a b)]
  | _, _ => []

theorem onLeft_next {s : CombineLatest α β} (h : s.Alive) (f : α → β → γ) (a : α) :
    s.onLeft f (.next a) = ({ s with left := some a }, combination f { s with left := some a }) := by
  cases hright : s.right <;> simp [onLeft, combination, h.leftDone, h.rightDone, h.disposed, hright]

theorem onRight_next {s : CombineLatest α β} (h : s.Alive) (f : α → β → γ) (b : β) :
    s.onRight f (.next b) =
      ({ s with right := some b }, combination f { s with right := some b }) := by
  cases hleft : s.left <;> simp [onRight, combination, h.leftDone, h.rightDone, h.disposed, hleft]

end CombineLatest

/-! ## Merging -/

/-- `merge`: how many of the sequences go on, and whether one has failed. -/
structure Merge where
  active : ℕ
  disposed : Bool := false

namespace Merge

def on (s : Merge) (event : Event α) : Merge × List (Event α) :=
  if s.disposed then (s, [])
  else match event with
    | .next element => (s, [.next element])
    | .error => ({ s with disposed := true }, [.error])
    | .completed =>
      if s.active ≤ 1 then ({ active := 0, disposed := true }, [.completed])
      else ({ s with active := s.active - 1 }, [])

theorem on_next {s : Merge} (h : s.disposed = false) (element : α) :
    s.on (.next element) = (s, [.next element]) := by
  simp [on, h]

end Merge

/-! ## The latest element of another sequence -/

/-- `withLatestFrom`: the latest element of the second sequence, and what has ended. -/
structure WithLatestFrom (β : Type*) where
  latest : Option β := none
  secondDone : Bool := false
  disposed : Bool := false

namespace WithLatestFrom

def onFirst (f : α → β → γ) (s : WithLatestFrom β) (event : Event α) :
    WithLatestFrom β × List (Event γ) :=
  if s.disposed then (s, [])
  else match event with
    | .next a =>
      match s.latest with
      | some b => (s, [.next (f a b)])
      | none => (s, [])
    | .error => ({ s with disposed := true }, [.error])
    | .completed => ({ s with disposed := true }, [.completed])

def onSecond (s : WithLatestFrom β) (event : Event β) : WithLatestFrom β × List (Event γ) :=
  if s.disposed || s.secondDone then (s, [])
  else match event with
    | .next b => ({ s with latest := some b }, [])
    | .error => ({ s with disposed := true }, [.error])
    | .completed => ({ s with secondDone := true }, [])

/-- Neither sequence has ended. -/
structure Alive (s : WithLatestFrom β) : Prop where
  secondDone : s.secondDone = false
  disposed : s.disposed = false

theorem onFirst_next {s : WithLatestFrom β} (h : s.Alive) (f : α → β → γ) (a : α) :
    s.onFirst f (.next a) = (s, (s.latest.map fun b => Event.next (f a b)).toList) := by
  cases hlatest : s.latest <;> simp [onFirst, h.disposed, hlatest]

theorem onSecond_next {s : WithLatestFrom β} (h : s.Alive) (b : β) :
    s.onSecond (.next b) =
      (({ s with latest := some b }, []) : WithLatestFrom β × List (Event γ)) := by
  simp [onSecond, h.secondDone, h.disposed]

end WithLatestFrom

/-! ## Repetitions -/

/-- `distinctUntilChanged`: the element forwarded last. -/
structure DistinctUntilChanged (α : Type*) where
  currentKey : Option α := none
  disposed : Bool := false

namespace DistinctUntilChanged

def on (comparer : α → α → Bool) (s : DistinctUntilChanged α) (event : Event α) :
    DistinctUntilChanged α × List (Event α) :=
  if s.disposed then (s, [])
  else match event with
    | .next a =>
      if s.currentKey.any fun key => comparer key a then (s, [])
      else ({ s with currentKey := some a }, [.next a])
    | .error => ({ s with disposed := true }, [.error])
    | .completed => ({ s with disposed := true }, [.completed])

theorem on_next {s : DistinctUntilChanged α} (h : s.disposed = false) (comparer : α → α → Bool)
    (a : α) :
    s.on comparer (.next a) =
      if s.currentKey.any fun key => comparer key a then (s, [])
      else ({ s with currentKey := some a }, [.next a]) := by
  simp [on, h]

end DistinctUntilChanged

end Rx
