import Mathlib.Data.List.Basic
import Mathlib.Order.Defs.LinearOrder

/-!
# Versions of keys

A store that overwrites nothing keeps every version of a key, ordered by the key and, for one key,
the newest first.  Then the first version that is not before a key at some version is the newest one
of the key up to there, if it is one of the key at all: reading is one search, and a reader that
keeps to a version sees the writes up to it and no later ones.
-/

namespace Versions

variable {κ ε ν : Type}

/-- Versions of one key come the newest first. -/
def order (cmp : κ → κ → Ordering) (a b : κ × ℕ) : Ordering :=
  (cmp a.1 b.1).then (compare b.2 a.2)

theorem order_of_eq {cmp : κ → κ → Ordering} {a b : κ × ℕ} (h : cmp a.1 b.1 = .eq) :
    order cmp a b = compare b.2 a.2 := by
  rw [order, h]
  rfl

section Search

variable {cmp : κ → κ → Ordering} [Std.TransCmp cmp] {es : List ε} {f : ε → κ × ℕ} {k : κ} {n : ℕ}

/-- What is found is the newest version of the key that is not too new. -/
theorem newest_of_find? (hsorted : es.Pairwise fun a b => order cmp (f a) (f b) = .lt) {e : ε}
    (hfind : es.find? (fun e => (order cmp (f e) (k, n)).isGE) = some e)
    (hkey : cmp (f e).1 k = .eq) :
    e ∈ es ∧ (f e).2 ≤ n ∧ ∀ w ∈ es, cmp (f w).1 k = .eq → (f w).2 ≤ n → (f w).2 ≤ (f e).2 := by
  obtain ⟨hge, as, bs, rfl, has⟩ := List.find?_eq_some_iff_append.1 hfind
  rw [order_of_eq hkey, Nat.isGE_compare] at hge
  refine ⟨by simp, hge, fun w hw hwkey hwn => ?_⟩
  rcases List.mem_append.1 hw with hw | hw
  · -- What comes before is too new.
    have hbefore := has w hw
    rw [order_of_eq hwkey, Bool.not_eq_true', Bool.eq_false_iff, Ne, Nat.isGE_compare] at hbefore
    exact absurd hwn hbefore
  · rcases List.mem_cons.1 hw with rfl | hw
    · exact Nat.le_refl _
    · have hlt := (List.pairwise_cons.1 (List.pairwise_append.1 hsorted).2.1).1 w hw
      have heq : cmp (f e).1 (f w).1 = .eq :=
        Std.TransCmp.eq_trans hkey (Std.OrientedCmp.eq_symm hwkey)
      rw [order_of_eq heq, Nat.compare_eq_lt] at hlt
      exact Nat.le_of_lt hlt

/-- If what is found is of another key, every version of the key is too new. -/
theorem newer_of_find? (hsorted : es.Pairwise fun a b => order cmp (f a) (f b) = .lt)
    (hfind : ∀ e, es.find? (fun e => (order cmp (f e) (k, n)).isGE) = some e → cmp (f e).1 k ≠ .eq) :
    ∀ w ∈ es, cmp (f w).1 k = .eq → n < (f w).2 := by
  intro w hw hwkey
  by_contra hle
  have hge : (order cmp (f w) (k, n)).isGE := by
    rw [order_of_eq hwkey, Nat.isGE_compare]
    exact Nat.le_of_not_lt hle
  cases hfound : es.find? fun e => (order cmp (f e) (k, n)).isGE with
  | none => exact absurd hge (List.find?_eq_none.1 hfound w hw)
  | some e =>
    have hne := hfind e hfound
    obtain ⟨hegt, as, bs, rfl, has⟩ := List.find?_eq_some_iff_append.1 hfound
    have hle : (cmp (f e).1 k).isLE := by
      rcases List.mem_append.1 hw with hw | hw
      · have hbefore := has w hw
        rw [hge] at hbefore
        cases hbefore
      · rcases List.mem_cons.1 hw with rfl | hw
        · rw [hwkey]
          rfl
        · have hlt := (List.pairwise_cons.1 (List.pairwise_append.1 hsorted).2.1).1 w hw
          have hisLE : (order cmp (f e) (f w)).isLE := by
            rw [hlt]
            rfl
          rw [order, Ordering.isLE_then_iff_and] at hisLE
          rw [← Std.TransCmp.congr_right hwkey]
          exact hisLE.1
    cases hcmp : cmp (f e).1 k with
    | lt =>
      rw [order, hcmp] at hegt
      cases hegt
    | eq => exact hne hcmp
    | gt =>
      rw [hcmp] at hle
      cases hle

end Search

/-! ## Histories -/

section History

variable (cmp : κ → κ → Ordering)

/-- What a key has after some writes, of which the last one counts. -/
def lookup (writes : List (κ × ν)) (k : κ) : Option ν :=
  writes.foldl (fun found w => if cmp w.1 k = .eq then some w.2 else found) none

variable {cmp} {writes : List (κ × ν)} {k : κ}

theorem foldl_of_ne (h : ∀ w ∈ writes, cmp w.1 k ≠ .eq) (found : Option ν) :
    writes.foldl (fun found w => if cmp w.1 k = .eq then some w.2 else found) found = found := by
  induction writes with
  | nil => rfl
  | cons w writes ih =>
    rw [List.forall_mem_cons] at h
    rw [List.foldl_cons, if_neg h.1]
    exact ih h.2

theorem lookup_eq_none (h : ∀ w ∈ writes, cmp w.1 k ≠ .eq) : lookup cmp writes k = none :=
  foldl_of_ne h none

/-- The last write to a key counts. -/
theorem lookup_last {before after : List (κ × ν)} {w : κ × ν} (hkey : cmp w.1 k = .eq)
    (hafter : ∀ w ∈ after, cmp w.1 k ≠ .eq) :
    lookup cmp (before ++ w :: after) k = some w.2 := by
  rw [lookup, List.foldl_append, List.foldl_cons, if_pos hkey, foldl_of_ne hafter]

theorem foldl_eq_or (writes : List (κ × ν)) (found : Option ν) :
    writes.foldl (fun found w => if cmp w.1 k = .eq then some w.2 else found) found =
      (lookup cmp writes k).or found := by
  induction writes generalizing found with
  | nil => rfl
  | cons w writes ih =>
    rw [lookup, List.foldl_cons, List.foldl_cons, ih, ih]
    split_ifs
    · rw [Option.or_assoc, Option.some_or]
    · rw [Option.or_none]

/-- Later writes come first. -/
theorem lookup_append (writes later : List (κ × ν)) :
    lookup cmp (writes ++ later) k = (lookup cmp later k).or (lookup cmp writes k) := by
  rw [lookup, List.foldl_append]
  exact foldl_eq_or later _

/-- If the writes are numbered, the newest one up to some number is what a key has after the writes up
to it. -/
theorem lookup_take {base n i : ℕ} (hi : i < writes.length) (hn : base + i ≤ n)
    (hkey : cmp writes[i].1 k = .eq)
    (hlast : ∀ j (hj : j < writes.length), base + j ≤ n → cmp writes[j].1 k = .eq → j ≤ i) :
    lookup cmp (writes.take (n + 1 - base)) k = some writes[i].2 := by
  have hsplit : writes.take (n + 1 - base) = writes.take i ++
      writes[i] :: (writes.drop (i + 1)).take (n - base - i) := by
    conv_lhs => rw [← List.take_append_drop i writes, ← List.getElem_cons_drop hi]
    rw [List.take_append, List.take_of_length_le (by rw [List.length_take]; omega), List.length_take,
      Nat.min_eq_left (Nat.le_of_lt hi), show n + 1 - base - i = n - base - i + 1 by omega,
      List.take_succ_cons]
  rw [hsplit]
  refine lookup_last hkey fun w hw heq => ?_
  obtain ⟨m, hm, rfl⟩ := List.mem_iff_getElem.1 hw
  rw [List.length_take, List.length_drop] at hm
  rw [List.getElem_take, List.getElem_drop] at heq
  have hle := hlast (i + 1 + m) (by omega) (by omega) heq
  omega

theorem lookup_take_eq_none {base n : ℕ}
    (h : ∀ j (hj : j < writes.length), cmp writes[j].1 k = .eq → n < base + j) :
    lookup cmp (writes.take (n + 1 - base)) k = none := by
  refine lookup_eq_none fun w hw heq => ?_
  obtain ⟨m, hm, rfl⟩ := List.mem_iff_getElem.1 hw
  rw [List.length_take] at hm
  rw [List.getElem_take] at heq
  have hlt := h m (by omega) heq
  omega

end History

end Versions
