import Mathlib.Data.List.Forall2
import PracticeSwift.Library.Json

/-!
# Decoders that may trap

A hand-written `init(from:)` may stop the program where a synthesized one throws, so its failures
are of two kinds.  A decoder is followed with `do`; what it accepts is a statement about its
results alone.
-/

/-- How a decoder fails: with an error that its caller can catch, or with the end of the program. -/
inductive DecodingFailure
  | thrown
  | trapped
  deriving DecidableEq

abbrev Decoding := Except DecodingFailure

namespace Decoding

variable {α β : Type}

/-- `none` is thrown. -/
def ofOption : Option α → Decoding α
  | some a => .ok a
  | none => .error .thrown

/-- `decode(String.self, forKey: key)` -/
def string (json : Json) (key : String) : Decoding String :=
  ofOption ((json.field key).bind Json.string?)

/-- `decode(Int.self, forKey: key)` -/
def int (json : Json) (key : String) : Decoding Int64 :=
  ofOption ((json.field key).bind Json.int?)

/-- An array, element by element. -/
def array (decode : Json → Decoding α) : Json → Decoding (List α)
  | .array elements => elements.mapM decode
  | _ => .error .thrown

/-- `decode(forKey: key)` -/
def field (decode : Json → Decoding α) (json : Json) (key : String) : Decoding α := do
  decode (← ofOption (json.field key))

/-- `decodeIfPresent(forKey: key)`: a missing key and `null` are `nil`. -/
def ifPresent (decode : Json → Decoding α) (json : Json) (key : String) : Decoding (Option α) :=
  match json.field key with
  | none | some .null => .ok none
  | some value => return some (← decode value)

theorem bind_eq_ok_iff {d : Decoding α} {f : α → Decoding β} {b : β} :
    d >>= f = .ok b ↔ ∃ a, d = .ok a ∧ f a = .ok b := by
  cases d <;> simp [bind, Except.bind]

theorem pure_eq_ok_iff {a b : α} : (pure a : Decoding α) = .ok b ↔ a = b := by
  simp [pure, Except.pure]

theorem ofOption_eq_ok_iff {o : Option α} {a : α} : ofOption o = .ok a ↔ o = some a := by
  cases o <;> simp [ofOption]

theorem string_eq_ok_iff {json : Json} {key s : String} :
    string json key = .ok s ↔ json.field key = some (.string s) := by
  simp [string, ofOption_eq_ok_iff, Option.bind_eq_some_iff]

theorem mapM_eq_ok_iff {decode : Json → Decoding α} {elements : List Json} {l : List α} :
    elements.mapM decode = .ok l ↔
      List.Forall₂ (fun json a => decode json = .ok a) elements l := by
  induction elements generalizing l with
  | nil => cases l <;> simp [pure_eq_ok_iff]
  | cons json elements ih =>
    rw [List.mapM_cons, bind_eq_ok_iff]
    constructor
    · rintro ⟨a, ha, hrest⟩
      obtain ⟨as, has, heq⟩ := bind_eq_ok_iff.1 hrest
      obtain rfl := pure_eq_ok_iff.1 heq
      exact .cons ha (ih.1 has)
    · rintro (_ | ⟨ha, hrest⟩)
      exact ⟨_, ha, bind_eq_ok_iff.2 ⟨_, ih.2 hrest, rfl⟩⟩

/-- An array decodes, element by element and in order, when each of its elements does. -/
theorem array_eq_ok_iff {decode : Json → Decoding α} {json : Json} {l : List α} :
    array decode json = .ok l ↔ ∃ elements, json = .array elements ∧
      List.Forall₂ (fun json a => decode json = .ok a) elements l := by
  cases json <;> simp [array, mapM_eq_ok_iff]

theorem field_eq_ok_iff {decode : Json → Decoding α} {json : Json} {key : String} {a : α} :
    field decode json key = .ok a ↔
      ∃ value, json.field key = some value ∧ decode value = .ok a := by
  simp only [field, bind_eq_ok_iff, ofOption_eq_ok_iff]

/-- A decoder that takes `null` for no value of its own finds what the key holds. -/
theorem ifPresent_eq_ok_some_iff {decode : Json → Decoding α} {json : Json} {key : String}
    {a : α} (hnull : decode .null ≠ .ok a) :
    ifPresent decode json key = .ok (some a) ↔
      ∃ value, json.field key = some value ∧ decode value = .ok a := by
  unfold ifPresent
  split
  next h => simp [h]
  next h => simp [h, hnull]
  next value _ h =>
    simp only [h, bind_eq_ok_iff, pure_eq_ok_iff, Option.some.injEq, exists_eq_right,
      exists_eq_left']

/-- A statement about the elements of one list is one about the related elements of the other. -/
theorem forall_mem_iff_of_forall₂ {R : α → β → Prop} {P : α → Prop} {Q : β → Prop} {l : List α}
    {l' : List β} (h : List.Forall₂ R l l') (hiff : ∀ a b, R a b → (P a ↔ Q b)) :
    (∀ a ∈ l, P a) ↔ ∀ b ∈ l', Q b := by
  induction h with
  | nil => simp
  | cons hab _ ih => simp [hiff _ _ hab, ih]

/-- The same for the element at a position. -/
theorem getElem?_iff_of_forall₂ {R : α → β → Prop} {P : α → Prop} {Q : β → Prop} {l : List α}
    {l' : List β} (h : List.Forall₂ R l l') (hiff : ∀ a b, R a b → (P a ↔ Q b)) (i : ℕ) :
    (∃ a, l[i]? = some a ∧ P a) ↔ ∃ b, l'[i]? = some b ∧ Q b := by
  induction h generalizing i with
  | nil => simp
  | cons hab _ ih =>
    cases i with
    | zero => simp [hiff _ _ hab]
    | succ i => simpa using ih i

end Decoding
