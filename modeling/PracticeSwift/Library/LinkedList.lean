import Mathlib.Data.List.Basic
import Mathlib.Logic.Function.Basic

/-!
# Linked lists

What is reached in a heap from a node by following the pointers to the next one.  A node is inserted
by two writes, and what is not on the list may change as it likes.
-/

namespace LinkedList

variable {ν : Type}

/-- These nodes come after `x`, and no others. -/
def Linked (next : ν → Option ν) : ν → List ν → Prop
  | x, [] => next x = none
  | x, n :: ns => next x = some n ∧ Linked next n ns

/-- The node that some nodes behind `x` lead to. -/
def last (x : ν) (ns : List ν) : ν := ns.getLastD x

@[simp] theorem last_nil (x : ν) : last x [] = x := rfl

@[simp] theorem last_cons (x n : ν) (ns : List ν) : last x (n :: ns) = last n ns := by
  cases ns <;> rfl

theorem last_append (x : ν) (as bs : List ν) : last x (as ++ bs) = last (last x as) bs := by
  induction as generalizing x with
  | nil => rfl
  | cons a as ih => rw [List.cons_append, last_cons, last_cons, ih]

theorem last_mem (x : ν) (ns : List ν) : last x ns ∈ x :: ns := by
  induction ns generalizing x with
  | nil => exact List.mem_singleton_self x
  | cons n ns ih =>
    rw [last_cons]
    exact List.mem_cons_of_mem x (ih n)

namespace Linked

variable {next next' : ν → Option ν} {x : ν} {as bs : List ν}

theorem next_eq (h : Linked next x as) : next x = as.head? := by
  cases as with
  | nil => exact h
  | cons a as => exact h.1

/-- What comes after the last of some nodes. -/
theorem drop (h : Linked next x (as ++ bs)) : Linked next (last x as) bs := by
  induction as generalizing x with
  | nil => exact h
  | cons a as ih =>
    rw [last_cons]
    exact ih h.2

theorem congr (h : Linked next x as) (hsame : ∀ y ∈ x :: as, next' y = next y) :
    Linked next' x as := by
  induction as generalizing x with
  | nil => exact (hsame x List.mem_cons_self).trans h
  | cons a as ih =>
    refine ⟨(hsame x List.mem_cons_self).trans h.1, ih h.2 fun y hy => ?_⟩
    exact hsame y (List.mem_cons_of_mem x hy)

/-- A node between `as` and `bs`: it points to what the last of `as` has pointed to, which points to
it from then on. -/
theorem insert (h : Linked next x (as ++ bs)) {n : ν} (hnodup : (x :: (as ++ bs)).Nodup)
    (hnew : next' n = next (last x as)) (hlast : next' (last x as) = some n)
    (hsame : ∀ y ∈ x :: (as ++ bs), y ≠ last x as → next' y = next y) :
    Linked next' x (as ++ n :: bs) := by
  induction as generalizing x with
  | nil =>
    refine ⟨hlast, ?_⟩
    cases bs with
    | nil => exact hnew.trans h
    | cons b bs =>
      refine ⟨hnew.trans h.1, h.2.congr fun y hy => ?_⟩
      have hne : y ≠ x := fun heq => (List.nodup_cons.1 hnodup).1 (heq ▸ hy)
      exact hsame y (List.mem_cons_of_mem x hy) hne
  | cons a as ih =>
    rw [last_cons] at hnew hlast hsame
    have hrest := (List.nodup_cons.1 hnodup).2
    have hx : x ≠ last a as := by
      intro heq
      have hmem := List.mem_append_left bs (last_mem a as)
      exact (List.nodup_cons.1 hnodup).1 (heq ▸ hmem)
    refine ⟨(hsame x List.mem_cons_self hx).trans h.1, ih h.2 hrest hnew hlast ?_⟩
    exact fun y hy => hsame y (List.mem_cons_of_mem x hy)

end Linked

end LinkedList
