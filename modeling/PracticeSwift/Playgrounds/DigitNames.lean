import Mathlib.Data.Int.Notation
import PracticeSwift.Library.PrefixCode

/-!
# The names of the digits

A closure of a playground that writes a number as the names of its digits.  The loop takes the
digits from the last to the first and puts each name in front, so what it has written is always the
name of the digits taken.  No name is a prefix of another, which makes the result unambiguous.
-/

open PrefixCode

namespace PracticeSwift.Playgrounds

namespace DigitNames

def digitNames : List (ℤ × String) :=
  [(0, "Zero"), (1, "One"), (2, "Two"), (3, "Three"), (4, "Four"), (5, "Five"), (6, "Six"),
    (7, "Seven"), (8, "Eight"), (9, "Nine")]

/-- A quotient that is positive is smaller than the number. -/
theorem toNat_tdiv_lt {number : ℤ} (h : 0 < number.tdiv 10) :
    (number.tdiv 10).toNat < number.toNat := by
  have hpos : 0 < number := by
    by_contra hle
    have hneg := Int.tdiv_nonneg (show 0 ≤ -number by omega) (show (0 : ℤ) ≤ 10 by decide)
    rw [Int.neg_tdiv] at hneg
    omega
  rw [Int.tdiv_eq_ediv_of_nonneg hpos.le]
  omega

/-- The `repeat`-`while` of the closure; `none` is the trap of a missing name. -/
def spell (number : ℤ) (output : String) : Option String := do
  let output := (← digitNames.lookup (number.tmod 10)) ++ output
  if 0 < number.tdiv 10 then spell (number.tdiv 10) output else return output
termination_by number.toNat
decreasing_by exact toNat_tdiv_lt ‹_›

/-- The closure. -/
def string (number : ℤ) : Option String := spell number ""

def strings (numbers : List ℤ) : Option (List String) := numbers.mapM string

/-! ## Decimal digits -/

def englishName (digit : Fin 10) : String :=
  ["Zero", "One", "Two", "Three", "Four", "Five", "Six", "Seven", "Eight", "Nine"].get digit

/-- The number of some digits, the most significant first. -/
def value (digits : List (Fin 10)) : ℕ := digits.foldl (fun n digit => 10 * n + digit) 0

/-- The decimal digits of a number: no zero in front, but for zero itself. -/
structure IsDecimal (number : ℕ) (digits : List (Fin 10)) : Prop where
  value : value digits = number
  ne_nil : digits ≠ []
  leading : digits.head? = some 0 → digits = [0]

/-- The names of the digits of a number, one after the other. -/
def Spells (number : ℤ) (output : String) : Prop :=
  ∃ digits, IsDecimal number.toNat digits ∧ output = String.join (digits.map englishName)

/-! ## The loop -/

theorem lookup_digitNames (digit : Fin 10) :
    digitNames.lookup (digit : ℤ) = some (englishName digit) := by
  revert digit
  decide

theorem value_concat (digits : List (Fin 10)) (digit : Fin 10) :
    value (digits ++ [digit]) = 10 * value digits + digit := by
  simp [value]

theorem IsDecimal.concat {n : ℕ} {digits : List (Fin 10)} (h : IsDecimal n digits) (hn : 0 < n)
    (digit : Fin 10) : IsDecimal (10 * n + digit) (digits ++ [digit]) where
  value := by rw [value_concat, h.value]
  ne_nil := by simp
  leading hzero := by
    rw [List.head?_append_of_ne_nil _ h.ne_nil] at hzero
    have hdigits := h.leading hzero
    have hvalue := h.value
    rw [hdigits] at hvalue
    exact absurd hvalue.symm hn.ne'

theorem isDecimal_digit (digit : Fin 10) : IsDecimal digit [digit] where
  value := by simp [value]
  ne_nil := by simp
  leading hzero := by
    rw [List.head?_cons, Option.some.injEq] at hzero
    rw [hzero]

/-- One pass of the loop. -/
theorem spell_step (n : ℕ) (output : String) :
    spell n output =
      if 0 < n / 10 then spell (n / 10 : ℕ) (englishName (Fin.ofNat 10 n) ++ output)
      else some (englishName (Fin.ofNat 10 n) ++ output) := by
  have hname : digitNames.lookup ((n : ℤ).tmod 10) = some (englishName (Fin.ofNat 10 n)) :=
    lookup_digitNames (Fin.ofNat 10 n)
  have hquotient : (n : ℤ).tdiv 10 = (n / 10 : ℕ) := rfl
  rw [spell, hname, hquotient]
  exact if_congr Int.natCast_pos rfl rfl

/-- Started with some output, the loop puts the names of the digits in front of it. -/
theorem spell_eq (n : ℕ) (output : String) :
    ∃ digits, IsDecimal n digits ∧
      spell n output = some (String.join (digits.map englishName) ++ output) := by
  induction n using Nat.strongRecOn generalizing output with
  | ind n ih =>
    have hdigit : ((Fin.ofNat 10 n : Fin 10) : ℕ) = n % 10 := rfl
    rw [spell_step]
    split_ifs with hpos
    · obtain ⟨digits, hdecimal, hspell⟩ :=
        ih (n / 10) (by omega) (englishName (Fin.ofNat 10 n) ++ output)
      have hconcat := hdecimal.concat hpos (Fin.ofNat 10 n)
      rw [hdigit, Nat.div_add_mod] at hconcat
      refine ⟨_, hconcat, ?_⟩
      rw [hspell, List.map_append, String.join_append, String.append_assoc]
      simp
    · have hdecimal := isDecimal_digit (Fin.ofNat 10 n)
      rw [hdigit, Nat.mod_eq_of_lt (by omega)] at hdecimal
      exact ⟨_, hdecimal, by simp⟩

/-! ## Reading the names back -/

theorem isPrefixCode_englishName :
    IsPrefixCode (Set.range fun digit => (englishName digit).toList) where
  ne_nil := by
    rintro ⟨digit, hdigit⟩
    revert digit
    decide
  eq_of_isPrefix := by
    rintro _ ⟨a, rfl⟩ _ ⟨b, rfl⟩
    revert a b
    decide

theorem join_englishName_injective :
    Function.Injective fun digits : List (Fin 10) => String.join (digits.map englishName) := by
  intro digits digits' hjoin
  have hname : Function.Injective fun digit => (englishName digit).toList := by
    intro a b
    revert a b
    decide
  apply flatMap_injective hname isPrefixCode_englishName
  have hlist := congrArg String.toList hjoin
  simpa [String.toList_join, List.flatMap_map] using hlist

theorem string_eq (number : ℤ) (h : 0 ≤ number) :
    ∃ output, string number = some output ∧ Spells number output := by
  obtain ⟨n, rfl⟩ := Int.eq_ofNat_of_zero_le h
  obtain ⟨digits, hdecimal, hspell⟩ := spell_eq n ""
  refine ⟨_, hspell, digits, hdecimal, ?_⟩
  simp

theorem string_injective {m n : ℤ} (hm : 0 ≤ m) (hn : 0 ≤ n) (h : string m = string n) :
    m = n := by
  obtain ⟨_, hmString, digits, hmDecimal, rfl⟩ := string_eq m hm
  obtain ⟨_, hnString, digits', hnDecimal, rfl⟩ := string_eq n hn
  rw [hmString, hnString, Option.some.injEq] at h
  have hdigits : digits = digits' := join_englishName_injective h
  have hvalue : m.toNat = n.toNat := by
    rw [← hmDecimal.value, ← hnDecimal.value, hdigits]
  omega

theorem strings_eq {numbers : List ℤ} (h : ∀ number ∈ numbers, 0 ≤ number) :
    ∃ outputs, strings numbers = some outputs ∧
      List.Forall₂ (fun number output => string number = some output ∧ Spells number output)
        numbers outputs := by
  induction numbers with
  | nil => exact ⟨[], rfl, .nil⟩
  | cons number numbers ih =>
    rw [List.forall_mem_cons] at h
    obtain ⟨output, hstring, hspells⟩ := string_eq number h.1
    obtain ⟨outputs, hstrings, hall⟩ := ih h.2
    refine ⟨output :: outputs, ?_, .cons ⟨hstring, hspells⟩ hall⟩
    unfold strings at hstrings ⊢
    rw [List.mapM_cons, hstring, hstrings]
    rfl

/-- Each number is written as the names of its decimal digits, and no two numbers are written
alike. -/
theorem strings_unambiguous (numbers : List ℤ) (h : ∀ number ∈ numbers, 0 ≤ number) :
    (∃ outputs, strings numbers = some outputs ∧
      List.Forall₂ (fun number output => string number = some output ∧ Spells number output)
        numbers outputs) ∧
    ∀ m n : ℤ, 0 ≤ m → 0 ≤ n → m ≠ n → string m ≠ string n :=
  ⟨strings_eq h, fun _ _ hm hn hne heq => hne (string_injective hm hn heq)⟩

theorem strings_unambiguous_two :
    ∃ outputs, strings [0, 10] = some outputs ∧
      List.Forall₂ (fun number output => string number = some output ∧ Spells number output)
        [0, 10] outputs :=
  (strings_unambiguous [0, 10] (by decide)).1

/-- Zero is written, but not in front. -/
example : strings [0, 10] = some ["Zero", "OneZero"] := by
  simp [strings, string, spell, digitNames, List.lookup_cons]

end DigitNames

end PracticeSwift.Playgrounds
