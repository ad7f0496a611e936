import Mathlib.Data.List.Perm.Basic
import Mathlib.Data.List.TakeWhile
import Mathlib.Order.Lattice
import Mathlib.Order.RelClasses

/-!
# Sorting with a predicate that has effects

`sorted(by:)` is stable and asks its predicate in some order.  The predicate may do more than answer
(read a clock, say), so it lives in a monad; with a predicate that only answers this is insertion
sort.  What `sorted(by:)` requires of its predicate is a statement about the answers: in whatever
order the questions come, one strict weak order accounts for all of them.  A predicate that answers
as a given strict weak order sorts by it and keeps what is tied in order (`Decides.isStableSort`).
-/

namespace Sorting

section

variable {m : Type → Type} [Monad m] {α : Type}

/-- Insert `x` before the first element that it precedes.  The list is scanned from the left and
Swift scans from the right, so the results agree only where the answers are those of a strict weak
order. -/
def insertSorted (areInIncreasingOrder : α → α → m Bool) (x : α) : List α → m (List α)
  | [] => pure [x]
  | y :: l => do
    if ← areInIncreasingOrder x y then
      return x :: y :: l
    else
      return y :: (← insertSorted areInIncreasingOrder x l)

/-- `sorted(by:)` -/
def sorted (areInIncreasingOrder : α → α → m Bool) (l : List α) : m (List α) :=
  l.foldlM (fun sorted x => insertSorted areInIncreasingOrder x sorted) []

end

section

variable {σ α : Type}

/-- The predicate is asked once for each element passed. -/
theorem run_insertSorted_cons (areInIncreasingOrder : α → α → StateM σ Bool) (x y : α) (l : List α)
    (s : σ) :
    (insertSorted areInIncreasingOrder x (y :: l) s).1 =
      if (areInIncreasingOrder x y s).1 then x :: y :: l
      else y :: (insertSorted areInIncreasingOrder x l (areInIncreasingOrder x y s).2).1 := by
  simp only [insertSorted, bind, StateT.bind]
  rcases areInIncreasingOrder x y s with ⟨_ | _, s'⟩ <;> rfl

/-- Whatever the predicate answers, an insertion adds the one element. -/
theorem perm_insertSorted (areInIncreasingOrder : α → α → StateM σ Bool) (x : α) (l : List α) (s : σ) :
    (insertSorted areInIncreasingOrder x l s).1.Perm (x :: l) := by
  induction l generalizing s with
  | nil => exact List.Perm.refl _
  | cons y l ih =>
    rw [run_insertSorted_cons]
    split_ifs
    · exact List.Perm.refl _
    · exact ((ih _).cons y).trans (List.Perm.swap x y l)

/-- Whatever the predicate answers, nothing is lost and nothing added. -/
theorem perm_sorted (areInIncreasingOrder : α → α → StateM σ Bool) (l : List α) (s : σ) :
    (sorted areInIncreasingOrder l s).1.Perm l := by
  have hfold : ∀ (acc : List α) (s : σ),
      (l.foldlM (fun sorted x => insertSorted areInIncreasingOrder x sorted) acc s).1.Perm
        (acc ++ l) := by
    induction l with
    | nil =>
      intro acc s
      rw [List.append_nil]
      exact List.Perm.refl _
    | cons x l ih =>
      intro acc s
      have hinsert := perm_insertSorted areInIncreasingOrder x acc s
      exact (ih _ _).trans ((hinsert.append_right l).trans List.perm_middle.symm)
  exact hfold [] s

end

/-! ## What the predicate has to be -/

section

variable {σ α : Type} {areInIncreasingOrder : α → α → StateM σ Bool} {l : List α}

/-- Asked the questions one after the other, from the state `s` on, the predicate answers as `r`. -/
def AnswersAs (areInIncreasingOrder : α → α → StateM σ Bool)
    (r : {a // a ∈ l} → {a // a ∈ l} → Prop) : List ({a // a ∈ l} × {a // a ∈ l}) → σ → Prop
  | [], _ => True
  | (a, b) :: questions, s =>
    ((areInIncreasingOrder a b s).1 = true ↔ r a b) ∧
      AnswersAs areInIncreasingOrder r questions (areInIncreasingOrder a b s).2

/-- Whatever it is asked about the elements of `l`, the predicate answers as some strict weak
order. -/
def IsStrictWeakOrdering (areInIncreasingOrder : α → α → StateM σ Bool) (l : List α) (s : σ) :
    Prop :=
  ∀ questions : List ({a // a ∈ l} × {a // a ∈ l}),
    ∃ r, IsStrictWeakOrder {a // a ∈ l} r ∧ AnswersAs areInIncreasingOrder r questions s

/-- Comparing the keys, the greater first, is a strict weak order. -/
theorem isStrictWeakOrder_of_key {ι κ : Type} [LinearOrder κ] (key : ι → κ) :
    IsStrictWeakOrder ι fun a b => key b < key a where
  irrefl _ := lt_irrefl _
  trans _ _ _ hab hbc := hbc.trans hab
  incomp_trans a b c hab hbc := by
    simp only [not_lt] at hab hbc ⊢
    exact ⟨hab.1.trans hbc.1, hbc.2.trans hab.2⟩

/-- The answers are those of `r` in every state that the questions lead to. -/
theorem answersAs_of_invariant {r : {a // a ∈ l} → {a // a ∈ l} → Prop} {I : σ → Prop}
    (answer : ∀ (a b : {a // a ∈ l}) (s : σ), I s →
      ((areInIncreasingOrder a b s).1 = true ↔ r a b))
    (next : ∀ (a b : {a // a ∈ l}) (s : σ), I s → I (areInIncreasingOrder a b s).2)
    (questions : List ({a // a ∈ l} × {a // a ∈ l})) {s : σ} (hs : I s) :
    AnswersAs areInIncreasingOrder r questions s := by
  induction questions generalizing s with
  | nil => trivial
  | cons question questions ih =>
    obtain ⟨a, b⟩ := question
    exact ⟨answer a b s hs, ih (next a b s hs)⟩

end

/-! ## What it returns -/

section

variable {α : Type} (r : α → α → Prop) [DecidableRel r]

/-- Neither precedes the other. -/
def Tied (a b : α) : Prop := ¬ r a b ∧ ¬ r b a

instance : DecidableRel (Tied r) := fun _ _ => inferInstanceAs (Decidable (_ ∧ _))

/-- `l'` has the elements of `l`, no element before one that precedes it, and the elements that are
tied in the order of `l`. -/
structure IsStableSort (l l' : List α) : Prop where
  perm : l'.Perm l
  sorted : l'.Pairwise fun a b => ¬ r b a
  stable : ∀ a, l'.filter (Tied r a) = l.filter (Tied r a)

theorem isStableSort_nil : IsStableSort r [] [] :=
  ⟨List.Perm.refl _, .nil, fun _ => rfl⟩

variable {r} [IsStrictWeakOrder α r]

omit [DecidableRel r] in
theorem not_rel_trans {a b c : α} (hab : ¬ r a b) (hbc : ¬ r b c) : ¬ r a c := by
  intro hac
  have hba : ¬ r b a := fun hba => hbc (trans_of r hba hac)
  have hcb : ¬ r c b := fun hcb => hab (trans_of r hac hcb)
  exact (IsStrictWeakOrder.incomp_trans a b c ⟨hab, hba⟩ ⟨hbc, hcb⟩).1 hac

/-- What is not passed on an insertion into a sorted list comes after the new element. -/
theorem rel_of_mem_dropWhile {x : α} {l : List α} (hl : l.Pairwise fun a b => ¬ r b a) :
    ∀ z ∈ l.dropWhile (¬ r x ·), r x z := by
  induction l with
  | nil => exact List.forall_mem_nil _
  | cons y l ih =>
    rw [List.pairwise_cons] at hl
    by_cases hxy : r x y
    · rw [List.dropWhile_cons_of_neg (by simpa using hxy), List.forall_mem_cons]
      refine ⟨hxy, fun z hz => ?_⟩
      by_contra hxz
      exact not_rel_trans hxz (hl.1 z hz) hxy
    · rw [List.dropWhile_cons_of_pos (by simpa using hxy)]
      exact ih hl.2

/-- Inserting an element behind all that do not come after it. -/
theorem IsStableSort.insert {l acc : List α} (h : IsStableSort r l acc) (x : α) :
    IsStableSort r (l ++ [x])
      (acc.takeWhile (¬ r x ·) ++ x :: acc.dropWhile (¬ r x ·)) := by
  have hsplit : acc.takeWhile (¬ r x ·) ++ acc.dropWhile (¬ r x ·) = acc :=
    List.takeWhile_append_dropWhile
  have hlater := rel_of_mem_dropWhile (x := x) h.sorted
  constructor
  case perm =>
    have hmiddle := @List.perm_middle _ x (acc.takeWhile (¬ r x ·)) (acc.dropWhile (¬ r x ·))
    rw [hsplit] at hmiddle
    exact hmiddle.trans ((h.perm.cons x).trans (List.perm_append_singleton x l).symm)
  case sorted =>
    have hsorted := h.sorted
    rw [← hsplit, List.pairwise_append] at hsorted
    refine List.pairwise_append.2 ⟨hsorted.1, List.pairwise_cons.2 ⟨fun z hz => ?_, hsorted.2.1⟩, ?_⟩
    · exact fun hzx => irrefl_of r x (trans_of r (hlater z hz) hzx)
    · intro y hy z hz
      rcases List.mem_cons.1 hz with rfl | hz
      · simpa using List.mem_takeWhile_imp hy
      · exact hsorted.2.2 y hy z hz
  case stable =>
    intro a
    rw [List.filter_append, List.filter_append, ← h.stable a]
    conv_rhs => rw [← hsplit, List.filter_append]
    by_cases hax : Tied r a x
    · have hnone : (acc.dropWhile (¬ r x ·)).filter (Tied r a) = [] := by
        rw [List.filter_eq_nil_iff]
        intro z hz
        have haz : r a z := by
          by_contra haz
          exact not_rel_trans hax.2 haz (hlater z hz)
        simp [Tied, haz]
      rw [List.filter_cons_of_pos (by simpa using hax), hnone, List.filter_cons_of_pos
        (by simpa using hax), List.append_nil, List.filter_nil]
    · rw [List.filter_cons_of_neg (by simpa using hax), List.filter_cons_of_neg
        (by simpa using hax), List.filter_nil, List.append_nil]

end

section

variable {σ α : Type} {areInIncreasingOrder : α → α → StateM σ Bool} {r : α → α → Prop}
  [DecidableRel r] {I : σ → Prop} {l : List α}

/-- Asked about elements of `l` in a state of `I`, the predicate answers as `r` and stays in `I`. -/
structure Decides (areInIncreasingOrder : α → α → StateM σ Bool) (r : α → α → Prop) (I : σ → Prop)
    (l : List α) : Prop where
  answer : ∀ a ∈ l, ∀ b ∈ l, ∀ s, I s → ((areInIncreasingOrder a b s).1 = true ↔ r a b)
  next : ∀ a ∈ l, ∀ b ∈ l, ∀ s, I s → I (areInIncreasingOrder a b s).2

/-- The predicate is asked once for each element passed. -/
theorem insertSorted_cons (areInIncreasingOrder : α → α → StateM σ Bool) (x y : α) (l : List α)
    (s : σ) :
    insertSorted areInIncreasingOrder x (y :: l) s =
      if (areInIncreasingOrder x y s).1 then (x :: y :: l, (areInIncreasingOrder x y s).2)
      else
        (insertSorted areInIncreasingOrder x l (areInIncreasingOrder x y s).2).map (y :: ·) id := by
  simp only [insertSorted, bind, StateT.bind]
  rcases areInIncreasingOrder x y s with ⟨_ | _, s'⟩ <;> rfl

theorem Decides.run_insertSorted (h : Decides areInIncreasingOrder r I l) {x : α} (hx : x ∈ l)
    {acc : List α} (hacc : ∀ y ∈ acc, y ∈ l) {s : σ} (hs : I s) :
    (insertSorted areInIncreasingOrder x acc s).1 =
        acc.takeWhile (¬ r x ·) ++ x :: acc.dropWhile (¬ r x ·) ∧
      I (insertSorted areInIncreasingOrder x acc s).2 := by
  induction acc generalizing s with
  | nil => exact ⟨rfl, hs⟩
  | cons y acc ih =>
    rw [List.forall_mem_cons] at hacc
    have hanswer := h.answer x hx y hacc.1 s hs
    have hnext := h.next x hx y hacc.1 s hs
    obtain ⟨hlater, hlaterI⟩ := ih hacc.2 hnext
    rw [insertSorted_cons]
    by_cases hxy : r x y
    · rw [if_pos (hanswer.2 hxy), List.takeWhile_cons_of_neg (by simpa using hxy),
        List.dropWhile_cons_of_neg (by simpa using hxy)]
      exact ⟨rfl, hnext⟩
    · rw [if_neg (mt hanswer.1 hxy), List.takeWhile_cons_of_pos (by simpa using hxy),
        List.dropWhile_cons_of_pos (by simpa using hxy)]
      exact ⟨congrArg (y :: ·) hlater, hlaterI⟩

/-- A predicate that answers as a strict weak order sorts, and keeps what is tied in order. -/
theorem Decides.isStableSort [IsStrictWeakOrder α r] (h : Decides areInIncreasingOrder r I l)
    {s : σ} (hs : I s) : IsStableSort r l (sorted areInIncreasingOrder l s).1 := by
  have hfold : ∀ (later done acc : List α) (s : σ), I s → (∀ x ∈ later, x ∈ l) →
      (∀ x ∈ acc, x ∈ l) → IsStableSort r done acc →
      IsStableSort r (done ++ later)
        (later.foldlM (fun sorted x => insertSorted areInIncreasingOrder x sorted) acc s).1 := by
    intro later
    induction later with
    | nil =>
      intro done acc s _ _ _ hsorted
      rw [List.append_nil]
      exact hsorted
    | cons x later ih =>
      intro done acc s hs hlater hacc hsorted
      rw [List.forall_mem_cons] at hlater
      obtain ⟨hinsert, hinsertI⟩ := h.run_insertSorted hlater.1 hacc hs
      have hstep := hsorted.insert x
      rw [← hinsert] at hstep
      have hmem : ∀ y ∈ (insertSorted areInIncreasingOrder x acc s).1, y ∈ l := by
        intro y hy
        rcases List.mem_cons.1 ((perm_insertSorted areInIncreasingOrder x acc s).mem_iff.1 hy) with
          rfl | hy
        · exact hlater.1
        · exact hacc y hy
      have hrest := ih (done ++ [x]) _ _ hinsertI hlater.2 hmem hstep
      rwa [List.append_assoc] at hrest
  exact hfold l [] [] s hs (fun _ hx => hx) (List.forall_mem_nil _) (isStableSort_nil r)

end

end Sorting
