import Mathlib.Data.List.Basic
import Mathlib.InformationTheory.Coding.UniquelyDecodable

/-!
# Prefix codes

Code words none of which is a prefix of another are uniquely decodable: of two concatenations that
agree, the first words are prefixes of one list, hence of one another, hence equal.
-/

namespace PrefixCode

open InformationTheory

variable {α β : Type*}

/-- No word is a proper prefix of a word, and none is empty. -/
structure IsPrefixCode (words : Set (List β)) : Prop where
  ne_nil : [] ∉ words
  eq_of_isPrefix : ∀ v ∈ words, ∀ w ∈ words, v <+: w → v = w

/-- Words that begin the same list are the same. -/
theorem IsPrefixCode.eq_of_append_eq {words : Set (List β)} (h : IsPrefixCode words)
    {v w l l' : List β} (hv : v ∈ words) (hw : w ∈ words) (happend : v ++ l = w ++ l') : v = w := by
  have hprefix : v <+: w ++ l' := happend ▸ List.prefix_append v l
  rcases List.prefix_or_prefix_of_prefix hprefix (List.prefix_append w l') with hvw | hwv
  · exact h.eq_of_isPrefix v hv w hw hvw
  · exact (h.eq_of_isPrefix w hw v hv hwv).symm

theorem IsPrefixCode.uniquelyDecodable {words : Set (List β)} (h : IsPrefixCode words) :
    UniquelyDecodable words := by
  intro l
  induction l with
  | nil =>
    intro l' _ hl' hflatten
    cases l' with
    | nil => rfl
    | cons w l' =>
      have hw : w = [] := (List.append_eq_nil_iff.1 hflatten.symm).1
      exact absurd (hw ▸ hl' w List.mem_cons_self) h.ne_nil
  | cons v l ih =>
    intro l' hl hl' hflatten
    cases l' with
    | nil =>
      have hv : v = [] := (List.append_eq_nil_iff.1 hflatten).1
      exact absurd (hv ▸ hl v List.mem_cons_self) h.ne_nil
    | cons w l' =>
      rw [List.forall_mem_cons] at hl hl'
      rw [List.flatten_cons, List.flatten_cons] at hflatten
      have hsame : v = w := h.eq_of_append_eq hl.1 hl'.1 hflatten
      subst hsame
      rw [ih l' hl.2 hl'.2 (List.append_cancel_left hflatten)]

/-- Symbols with distinct words that form a prefix code can be read off the concatenation of the
words. -/
theorem flatMap_injective {word : α → List β} (hword : Function.Injective word)
    (h : IsPrefixCode (Set.range word)) : Function.Injective fun l : List α => l.flatMap word := by
  intro l l' hflatMap
  have hwords : ∀ l : List α, ∀ w ∈ l.map word, w ∈ Set.range word := by
    intro l w hw
    obtain ⟨a, -, rfl⟩ := List.mem_map.1 hw
    exact Set.mem_range_self a
  apply List.map_injective_iff.2 hword
  apply h.uniquelyDecodable _ _ (hwords l) (hwords l')
  rwa [← List.flatMap_def, ← List.flatMap_def]

end PrefixCode
