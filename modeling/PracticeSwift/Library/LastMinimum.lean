import Mathlib.Data.List.Basic
import Mathlib.Data.List.Induction
import Mathlib.Order.Lattice

/-!
# The last minimum of a list

Going through a list and keeping the element with the smallest key, and of two with equal keys the
later one, ends with the last of all minimal elements.
-/

namespace LastMinimum

variable {α κ : Type} [LinearOrder κ] (key : α → κ)

/-- The element to keep, of the one kept so far and the next. -/
def keep (best : Option α) (a : α) : Option α :=
  match best with
  | none => some a
  | some b => if key a ≤ key b then some a else some b

def lastMinimum (l : List α) : Option α := l.foldl (keep key) none

/-- `a` is minimal in `l`, and smaller than everything after it. -/
structure IsLastMinimum (l : List α) (a : α) (before later : List α) : Prop where
  split : l = before ++ a :: later
  le_before : ∀ b ∈ before, key a ≤ key b
  lt_later : ∀ b ∈ later, key a < key b

variable {key}

theorem IsLastMinimum.le {l before later : List α} {a : α}
    (h : IsLastMinimum key l a before later) : ∀ b ∈ l, key a ≤ key b := by
  intro b hb
  rw [h.split, List.mem_append, List.mem_cons] at hb
  rcases hb with hb | rfl | hb
  · exact h.le_before b hb
  · exact le_rfl
  · exact (h.lt_later b hb).le

/-- One more element. -/
theorem IsLastMinimum.concat {l before later : List α} {a : α}
    (h : IsLastMinimum key l a before later) (b : α) :
    ∃ c before' later', keep key (some a) b = some c ∧
      IsLastMinimum key (l ++ [b]) c before' later' := by
  by_cases hb : key b ≤ key a
  · refine ⟨b, l, [], if_pos hb, rfl, fun c hc => hb.trans (h.le c hc), ?_⟩
    exact List.forall_mem_nil _
  · refine ⟨a, before, later ++ [b], if_neg hb, ?_, h.le_before, ?_⟩
    · rw [h.split, List.append_assoc, List.cons_append]
    · rw [List.forall_mem_append, List.forall_mem_singleton]
      exact ⟨h.lt_later, not_le.1 hb⟩

/-- A list that is not empty has a last minimum, and it is the element kept at the end. -/
theorem exists_isLastMinimum {l : List α} (h : l ≠ []) :
    ∃ a before later, lastMinimum key l = some a ∧ IsLastMinimum key l a before later := by
  induction l using List.reverseRecOn with
  | nil => exact absurd rfl h
  | append_singleton l b ih =>
    rw [lastMinimum, List.foldl_concat]
    rcases eq_or_ne l [] with rfl | hne
    · exact ⟨b, [], [], rfl, rfl, List.forall_mem_nil _, List.forall_mem_nil _⟩
    · obtain ⟨a, before, later, hkept, hminimum⟩ := ih hne
      obtain ⟨c, before', later', hkeep, hconcat⟩ := hminimum.concat b
      rw [lastMinimum] at hkept
      exact ⟨c, before', later', by rw [hkept, hkeep], hconcat⟩

end LastMinimum
