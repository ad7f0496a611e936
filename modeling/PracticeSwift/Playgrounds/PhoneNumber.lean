import Mathlib.Data.Int.Notation
import PracticeSwift.Library.RxCollect

/-!
# The phone number

A pipeline of a playground that makes a phone number of eleven digits from the numbers sent to a
subject: what is missing and what comes before the first zero is left out, eleven numbers are
collected, and hyphens are inserted at two fixed places.  The places are right for eleven digits;
the collection ends early when the subject completes, and a number need not be a digit.
-/

open Rx

namespace PracticeSwift.Playgrounds

/-- `numbers.insert(_:at:)`; `none` is the trap of an index out of range. -/
def insertAt {α : Type} (element : α) (i : ℕ) (numbers : List α) : Option (List α) :=
  if i ≤ numbers.length then some (numbers.insertIdx i element) else none

theorem insertAt_of_le {α : Type} (element : α) {i : ℕ} {numbers : List α}
    (h : i ≤ numbers.length) :
    insertAt element i numbers = some (numbers.take i ++ element :: numbers.drop i) := by
  rw [insertAt, if_pos h]
  congr 1
  induction i generalizing numbers with
  | zero => simp
  | succ i ih =>
    cases numbers with
    | nil => simp at h
    | cons a numbers => simpa using ih (Nat.le_of_succ_le_succ h)

theorem insertAt_of_lt {α : Type} (element : α) {i : ℕ} {numbers : List α}
    (h : numbers.length < i) : insertAt element i numbers = none :=
  if_neg (by omega)

namespace PhoneNumber

/-- The closure of the `flatMap`: nothing for `nil`. -/
def nonNil (value : Option ℤ) : Sequence (Option ℤ) :=
  if value = none then source [] true else source [value] true

/-- The closure that writes the number with its hyphens. -/
def hyphenated (numbers : List String) : Option String := do
  let numberList ← insertAt "-" 3 numbers
  let numberList ← insertAt "-" 8 numberList
  return numberList.foldl (· ++ ·) " "

/-- What the pipeline sends to its subscriber when `input` sends these events; `none` is a trap. -/
def pipeline (input : List (Event (Option ℤ))) : Option (List (Event String)) := do
  let values ← (feed (FlatMap.on nonNil) {} input).2.mapM (Event.mapM id)
  let skipped := (feed (SkipWhile.on (· ≠ 0)) {} values).2
  let taken := (feed Take.on { remaining := 11 } skipped).2
  let arrays := (feed ToArray.on {} taken).2
  let strings := arrays.map (Event.map (List.map toString))
  strings.mapM (Event.mapM hyphenated)

/-! ## What the pipeline computes -/

/-- The numbers from the first zero on. -/
def fromZero (values : List (Option ℤ)) : List ℤ :=
  (values.filterMap id).dropWhile (· ≠ 0)

/-- The first eleven of them, which are to be the digits. -/
def digits (values : List (Option ℤ)) : List ℤ := (fromZero values).take 11

theorem mapM_source {α β : Type} (f : α → Option β) (l : List α) (completed : Bool) :
    (source l completed).mapM (Event.mapM f) = (l.mapM f).map fun l => source l completed := by
  induction l with
  | nil => cases completed <;> rfl
  | cons a l ih =>
    rw [source_cons, List.mapM_cons, List.mapM_cons, ih, Event.mapM]
    cases f a <;> cases l.mapM f <;> rfl

theorem flatMap_nonNil (values : List (Option ℤ)) (completed : Bool) :
    (feed (FlatMap.on nonNil) {} (source values completed)).2 =
      source ((values.filterMap id).map some) completed := by
  have hnonNil : nonNil = fun value => source (if value = none then [] else [value]) true := by
    funext value
    unfold nonNil
    split_ifs <;> rfl
  rw [hnonNil, FlatMap.feed_source]
  congr 1
  induction values with
  | nil => rfl
  | cons value values ih => cases value <;> simp [ih]

/-- After the `flatMap` there is no `nil` left to trap on. -/
theorem mapM_id_map_some {α : Type} (l : List α) : (l.map some).mapM id = some l := by
  induction l with
  | nil => rfl
  | cons a l ih => simp [List.mapM_cons, ih]

theorem pipeline_source (values : List (Option ℤ)) (completed : Bool) :
    pipeline (source values completed) =
      if completed || 11 ≤ (fromZero values).length then
        (hyphenated ((digits values).map toString)).map fun number => source [number] true
      else some [] := by
  have hzero : (values.filterMap id).dropWhile (fun value => decide (value ≠ 0)) =
      fromZero values := rfl
  simp only [pipeline, flatMap_nonNil, mapM_source, mapM_id_map_some, Option.bind_eq_bind,
    Option.bind_some, Option.map_some, SkipWhile.feed_source, hzero,
    Take.feed_source (show 0 < 11 by decide), ToArray.feed_source, List.nil_append]
  split_ifs
  · rw [map_source, mapM_source]
    show Option.map _ (List.mapM hyphenated [_]) = _
    rw [List.mapM_cons]
    show Option.map _ (Option.bind (hyphenated ((digits values).map toString)) _) = _
    cases hyphenated ((digits values).map toString) <;> rfl
  · rfl

/-! ## Well-formed numbers -/

/-- The characters of some digits. -/
def characters (digits : List ℤ) : List Char := digits.map fun d => Nat.digitChar d.toNat

/-- A space and eleven decimal digits from zero on, with hyphens after three and after seven. -/
structure IsPhoneNumber (digits : List ℤ) (number : String) : Prop where
  length : digits.length = 11
  digit : ∀ d ∈ digits, 0 ≤ d ∧ d ≤ 9
  zero : digits.head? = some 0
  grouped : number.toList = ' ' :: (characters (digits.take 3) ++ '-' ::
    characters ((digits.drop 3).take 4) ++ '-' :: characters (digits.drop 7))

theorem toList_toString_digit {d : ℤ} (h : 0 ≤ d ∧ d ≤ 9) :
    (toString d).toList = [Nat.digitChar d.toNat] := by
  obtain ⟨n, rfl⟩ := Int.eq_ofNat_of_zero_le h.1
  show (toString n).toList = [Nat.digitChar n]
  rw [Nat.toString_eq_ofList_toDigits, String.toList_ofList, Nat.toDigits_of_lt_base (by omega)]

theorem flatMap_toString_digits {digits : List ℤ} (h : ∀ d ∈ digits, 0 ≤ d ∧ d ≤ 9) :
    (digits.map toString).flatMap String.toList = characters digits := by
  induction digits with
  | nil => rfl
  | cons d digits ih =>
    rw [List.forall_mem_cons] at h
    rw [List.map_cons, List.flatMap_cons, toList_toString_digit h.1, ih h.2]
    rfl

theorem toList_foldl_append (numbers : List String) (s : String) :
    (numbers.foldl (· ++ ·) s).toList = s.toList ++ numbers.flatMap String.toList := by
  induction numbers generalizing s with
  | nil => simp
  | cons number numbers ih => simp [ih]

/-- Seven numbers are enough for both hyphens to be inserted. -/
theorem hyphenated_of_le {numbers : List String} (h : 7 ≤ numbers.length) :
    hyphenated numbers = some ((numbers.take 3 ++ "-" :: ((numbers.drop 3).take 4 ++
      "-" :: numbers.drop 7)).foldl (· ++ ·) " ") := by
  have hthree : (numbers.take 3).length = 3 := by
    rw [List.length_take]
    omega
  have hlength : 8 ≤ (numbers.take 3 ++ "-" :: numbers.drop 3).length := by
    simp
    omega
  have htake : (numbers.take 3 ++ "-" :: numbers.drop 3).take 8 =
      numbers.take 3 ++ "-" :: (numbers.drop 3).take 4 := by
    rw [List.take_append, hthree, List.take_of_length_le (by omega)]
    rfl
  have hdrop : (numbers.take 3 ++ "-" :: numbers.drop 3).drop 8 = numbers.drop 7 := by
    rw [List.drop_append, hthree, List.drop_of_length_le (by omega)]
    simp
  simp only [hyphenated, insertAt_of_le "-" (show 3 ≤ numbers.length by omega),
    insertAt_of_le "-" hlength, htake, hdrop, Option.bind_eq_bind, Option.bind_some,
    List.append_assoc, List.cons_append]
  rfl

/-- Fewer are not. -/
theorem hyphenated_of_lt {numbers : List String} (h : numbers.length < 7) :
    hyphenated numbers = none := by
  by_cases hthree : 3 ≤ numbers.length
  · have hlength : (numbers.take 3 ++ "-" :: numbers.drop 3).length < 8 := by
      simp
      omega
    rw [hyphenated, insertAt_of_le "-" hthree]
    show Option.bind (insertAt _ _ _) _ = none
    rw [insertAt_of_lt "-" hlength]
    rfl
  · rw [hyphenated, insertAt_of_lt "-" (by omega)]
    rfl

/-- The pipeline traps on a completion that comes before the seventh number. -/
theorem pipeline_eq_none_iff (values : List (Option ℤ)) (completed : Bool) :
    pipeline (source values completed) = none ↔
      completed = true ∧ (fromZero values).length < 7 := by
  have hlength : ((digits values).map toString).length = min 11 (fromZero values).length := by
    rw [List.length_map, digits, List.length_take]
  rw [pipeline_source]
  by_cases hshort : (fromZero values).length < 7
  · have htrap : hyphenated ((digits values).map toString) = none := hyphenated_of_lt (by omega)
    have hnot : ¬ 11 ≤ (fromZero values).length := by omega
    cases completed <;> simp [htrap, hshort, hnot]
  · rw [hyphenated_of_le (by omega)]
    split_ifs <;> simp [hshort]

theorem isPhoneNumber_of_digits {digits : List ℤ} (hlength : digits.length = 11)
    (hdigit : ∀ d ∈ digits, 0 ≤ d ∧ d ≤ 9) (hzero : digits.head? = some 0) :
    ∃ number, hyphenated (digits.map toString) = some number ∧ IsPhoneNumber digits number := by
  refine ⟨_, hyphenated_of_le (by rw [List.length_map]; omega), hlength, hdigit, hzero, ?_⟩
  rw [toList_foldl_append]
  simp only [List.flatMap_append, List.flatMap_cons, ← List.map_take, ← List.map_drop]
  rw [flatMap_toString_digits fun d hd => hdigit d (List.mem_of_mem_take hd),
    flatMap_toString_digits fun d hd => hdigit d (List.mem_of_mem_drop (List.mem_of_mem_take hd)),
    flatMap_toString_digits fun d hd => hdigit d (List.mem_of_mem_drop hd)]
  simp

theorem head?_digits {values : List (Option ℤ)} (h : (digits values).length = 11) :
    (digits values).head? = some 0 := by
  have hne : fromZero values ≠ [] := by
    rintro hnil
    simp [digits, hnil] at h
  have hhead : (fromZero values).head hne = 0 := Decidable.not_not.1 <|
    of_decide_eq_false (List.head_dropWhile_not (fun value => decide (value ≠ (0 : ℤ))) hne)
  rw [digits, List.head?_take, if_neg (by decide), List.head?_eq_some_head hne, hhead]

/-- On these values the pipeline does not trap, and every string that it emits is a phone number of
the digits it takes. -/
def EmitsPhoneNumbers (values : List (Option ℤ)) (completed : Bool) : Prop :=
  ∃ output, pipeline (source values completed) = some output ∧
    ∀ number ∈ elements output, IsPhoneNumber (digits values) number

theorem exists_emitted_iff (number : Option String) (P : String → Prop) :
    (∃ output, (number.map fun number => source [number] true) = some output ∧
      ∀ number ∈ elements output, P number) ↔ ∃ s, number = some s ∧ P s := by
  cases number with
  | none => simp
  | some s => simp [elements]

/-- This is so exactly when a completion does not come before the eleventh number from the first
zero on, and the first eleven of these numbers are digits. -/
theorem emitsPhoneNumbers_iff (values : List (Option ℤ)) (completed : Bool) :
    EmitsPhoneNumbers values completed ↔
      (completed = true → 11 ≤ (fromZero values).length) ∧
        (11 ≤ (fromZero values).length → ∀ d ∈ digits values, 0 ≤ d ∧ d ≤ 9) := by
  have hlength : (digits values).length = min 11 (fromZero values).length := List.length_take
  rw [EmitsPhoneNumbers, pipeline_source]
  by_cases hlong : 11 ≤ (fromZero values).length
  · have heleven : (digits values).length = 11 := by omega
    rw [if_pos (by simp [hlong]), exists_emitted_iff]
    constructor
    · rintro ⟨number, -, hnumber⟩
      exact ⟨fun _ => hlong, fun _ => hnumber.digit⟩
    · rintro ⟨-, hdigit⟩
      exact isPhoneNumber_of_digits heleven (hdigit hlong) (head?_digits heleven)
  · cases completed with
    | false => simp [hlong, elements]
    | true =>
      rw [Bool.true_or, if_pos rfl, exists_emitted_iff]
      constructor
      · rintro ⟨number, -, hnumber⟩
        have heleven := hnumber.length
        omega
      · rintro ⟨hcollected, -⟩
        exact absurd (hcollected rfl) hlong

/-- The subject sends a zero and completes: the first insertion is out of range. -/
theorem early_completion_traps :
    ¬ ∀ (values : List (Option ℤ)) (completed : Bool), EmitsPhoneNumbers values completed := by
  intro h
  obtain ⟨output, houtput, -⟩ := h [some 0] true
  have htrap : pipeline (source [some 0] true) = none := by rfl
  rw [htrap] at houtput
  cases houtput

/-- The values that the playground sends. -/
example : (pipeline (source [some 10, some 0, none, some 1, some 0, some 2, some 7, some 3, some 5,
    none, some 9, some 0, some 1, some 2, some 9, some 1, some 4, some 6, some 8] false)).map
      elements = some [" 010-2735-9012"] := by
  decide

end PhoneNumber

end PracticeSwift.Playgrounds
