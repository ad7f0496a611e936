import Mathlib.Data.List.Nodup

/-!
# Lists with distinct keys

In a list whose elements have distinct keys a key stands for a position: changing the element with
a key is changing one position, dropping it is dropping one position, and a part of the list cut
out by a filter sees the same change at its own position.
-/

namespace List

variable {α κ : Type*} {key : α → κ}

theorem key_getElem_inj {l : List α} (h : (l.map key).Nodup) {i j : ℕ} (hi : i < l.length)
    (hj : j < l.length) (heq : key l[i] = key l[j]) : i = j := by
  have hi' : i < (l.map key).length := by simpa using hi
  have hj' : j < (l.map key).length := by simpa using hj
  apply (@Nodup.getElem_inj_iff _ _ h i hi' j hj').1
  simpa using heq

variable [DecidableEq κ]

/-- Changing the element with a key is changing its position. -/
theorem map_ite_key_eq_modify {l : List α} (h : (l.map key).Nodup) {i : ℕ} (hi : i < l.length)
    (f : α → α) : (l.map fun a => if key a = key l[i] then f a else a) = l.modify i f := by
  refine ext_getElem (by simp) fun j hj _ => ?_
  have hj : j < l.length := by simpa using hj
  rw [getElem_map, getElem_modify]
  by_cases hij : i = j
  · subst hij
    rw [if_pos rfl, if_pos rfl]
  · rw [if_neg hij, if_neg]
    intro heq
    exact hij (key_getElem_inj h hj hi heq).symm

/-- Where the key does not occur, nothing changes. -/
theorem map_ite_key_of_notMem {l : List α} {k : κ} (h : k ∉ l.map key) (f : α → α) :
    (l.map fun a => if key a = k then f a else a) = l := by
  refine (map_congr_left fun a ha => if_neg ?_).trans (map_id l)
  rintro rfl
  exact h (mem_map_of_mem ha)

/-- A change that no filter notices commutes with the filter. -/
theorem filter_map_ite_key {p : α → Bool} {f : α → α} (hp : ∀ a, p (f a) = p a) (k : κ)
    (l : List α) :
    (l.map fun a => if key a = k then f a else a).filter p =
      (l.filter p).map fun a => if key a = k then f a else a := by
  rw [filter_map]
  refine congrArg _ (filter_congr fun a _ => ?_)
  simp only [Function.comp_apply]
  split_ifs
  · exact hp a
  · rfl

theorem filter_key_ne_of_notMem {l : List α} {k : κ} (h : k ∉ l.map key) :
    (l.filter fun a => key a ≠ k) = l := by
  apply filter_eq_self.2
  intro a ha
  apply decide_eq_true
  rintro rfl
  exact h (mem_map_of_mem ha)

/-- Dropping the element with a key is dropping its position. -/
theorem filter_key_ne_eq_eraseIdx {l : List α} (h : (l.map key).Nodup) {i : ℕ}
    (hi : i < l.length) : (l.filter fun a => key a ≠ key l[i]) = l.eraseIdx i := by
  induction l generalizing i with
  | nil => exact absurd hi (Nat.not_lt_zero i)
  | cons a l ih =>
    rw [map_cons, nodup_cons] at h
    cases i with
    | zero =>
      rw [getElem_cons_zero, filter_cons_of_neg (by simp), eraseIdx_cons_zero]
      exact filter_key_ne_of_notMem h.1
    | succ i =>
      have hi : i < l.length := Nat.lt_of_succ_lt_succ hi
      have hne : key a ≠ key l[i] := fun heq => h.1 (heq ▸ mem_map_of_mem (getElem_mem hi))
      rw [getElem_cons_succ, filter_cons_of_pos (by simpa using hne), ih h.2 hi,
        eraseIdx_cons_succ]

end List
