import Mathlib.Data.List.Cycle

/-!
# Following a partial function around a list

`follow step n x` is the list of the `n` elements that come after `x`.  A function that takes every
element of a list without repetitions to its cyclic successor passes, from wherever it is started,
through all of the list once and comes back.
-/

namespace Cyclic

variable {α : Type}

/-- The elements that `step` leads to, one after the other. -/
def follow (step : α → Option α) : ℕ → α → Option (List α)
  | 0, _ => some []
  | n + 1, x => do
    let y ← step x
    return y :: (← follow step n y)

/-- A chain is followed to its end. -/
theorem follow_of_isChain {step : α → Option α} {x : α} {l : List α}
    (h : (x :: l).IsChain fun x y => step x = some y) : follow step l.length x = some l := by
  induction l generalizing x with
  | nil => rfl
  | cons y l ih =>
    rw [List.isChain_cons_cons] at h
    simp [follow, h.1, ih h.2]

variable [DecidableEq α]

/-- `step` goes to the successor in the list, and from the last element to the first. -/
def IsSuccessor (step : α → Option α) (l : List α) : Prop :=
  ∀ x, ∀ hx : x ∈ l, step x = some (l.next x hx)

theorem IsSuccessor.isRotated {step : α → Option α} {l l' : List α} (h : IsSuccessor step l)
    (hl : l.Nodup) (hrotated : l ~r l') : IsSuccessor step l' := by
  intro x hx
  have hmem := hrotated.mem_iff.2 hx
  rw [h x hmem, List.isRotated_next_eq hrotated hl hmem]

theorem IsSuccessor.isChain {step : α → Option α} {l : List α} (h : IsSuccessor step l)
    (hl : l.Nodup) : l.IsChain fun x y => step x = some y := by
  rw [List.isChain_iff_getElem]
  intro i hi
  rw [h _ (List.getElem_mem _), List.next_getElem l hl]
  simp only [Nat.mod_eq_of_lt hi]

/-- From its last element the list is followed through. -/
theorem IsSuccessor.follow_getLast {step : α → Option α} {l : List α} (h : IsSuccessor step l)
    (hl : l.Nodup) (hne : l ≠ []) : follow step l.length (l.getLast hne) = some l := by
  apply follow_of_isChain
  refine (h.isChain hl).cons fun y hy => ?_
  rw [h _ (List.getLast_mem hne), List.next_getLast_eq_head l hne hl]
  rw [List.head?_eq_some_head hne] at hy
  exact hy

/-- From any element: each element is passed once, the starting point last. -/
theorem IsSuccessor.follow_length {step : α → Option α} {l : List α} (h : IsSuccessor step l)
    (hl : l.Nodup) {x : α} (hx : x ∈ l) :
    ∃ visited, follow step l.length x = some visited ∧ visited.Perm l ∧
      visited.getLast? = some x := by
  obtain ⟨before, later, rfl⟩ := List.append_of_mem hx
  have hrotated : (before ++ x :: later) ~r ((later ++ before) ++ [x]) := by
    simpa using @List.isRotated_append α (before ++ [x]) later
  have hne : (later ++ before) ++ [x] ≠ [] := by simp
  have hfollow := (h.isRotated hl hrotated).follow_getLast (hrotated.nodup_iff.1 hl) hne
  refine ⟨_, ?_, hrotated.perm.symm, by simp⟩
  rw [List.getLast_append_singleton, hrotated.perm.length_eq.symm] at hfollow
  exact hfollow

end Cyclic
