import PracticeSwift.Library.Foundation
import Mathlib.Data.Rat.Defs

/-!
# JSON documents

JSON values and the decoders a synthesized `Decodable` conformance is made of: a scalar of the
right type, a field of an object, an array all of whose elements decode.  A decoder that throws is
`none`.  Strings are taken up to canonical equivalence, which is what equality of Swift strings
compares.
-/

/-- A JSON value. -/
inductive Json
  | null
  | bool (b : Bool)
  | number (q : ℚ)
  | string (s : String)
  | array (elements : List Json)
  | object (fields : List (String × Json))

namespace Json

open Foundation

def string? : Json → Option String
  | .string s => some s
  | _ => none

def bool? : Json → Option Bool
  | .bool b => some b
  | _ => none

/-- An `Int`: a number without a fraction, in range. -/
def int? : Json → Option Int64
  | .number q =>
      if h : q.den = 1 ∧ Int64.minValue.toInt ≤ q.num ∧ q.num ≤ Int64.maxValue.toInt then
        some (Int64.ofIntLE q.num h.2.1 h.2.2)
      else none
  | _ => none

/-- `as? Int` of a parsed value, for which `true` and `false` are the numbers 1 and 0. -/
def asInt? : Json → Option Int64
  | .bool b => some (if b then 1 else 0)
  | json => json.int?

@[simp] theorem string?_eq_some_iff {json : Json} {s : String} :
    json.string? = some s ↔ json = .string s := by
  cases json <;> simp [string?]

def isObject : Json → Bool
  | .object _ => true
  | _ => false

/-- The value stored under a key of an object. -/
def field (key : String) : Json → Option Json
  | .object fields => fields.lookup key
  | _ => none

/-- An array of values of one type: one element that does not decode spoils the whole array. -/
def array? {α : Type*} (decode : Json → Option α) : Json → Option (List α)
  | .array elements => elements.mapM decode
  | _ => none

/-- How an `Int` is written. -/
def ofInt (n : Int64) : Json := .number n.toInt

@[simp] theorem int?_ofInt (n : Int64) : (ofInt n).int? = some n := by
  have h : ((n.toInt : ℚ)).den = 1 ∧ Int64.minValue.toInt ≤ ((n.toInt : ℚ)).num ∧
      ((n.toInt : ℚ)).num ≤ Int64.maxValue.toInt := by
    rw [Rat.den_intCast, Rat.num_intCast]
    exact ⟨rfl, n.minValue_le_toInt, n.toInt_le⟩
  rw [ofInt, int?, dif_pos h]
  simp

/-- `mapM` succeeds with the results of the elements, when all of them have one. -/
theorem mapM_eq_some_iff {α β : Type*} (f : β → Option α) (l : List β) (r : List α) :
    l.mapM f = some r ↔ l.map f = r.map some := by
  induction l generalizing r with
  | nil => cases r <;> simp
  | cons b l ih =>
    rw [List.mapM_cons]
    cases r with
    | nil => simp [Option.bind_eq_some_iff]
    | cons a r => simp [Option.bind_eq_some_iff, ih]

theorem isSome_mapM {α β : Type*} {f : α → Option β} {l : List α} (h : ∀ a ∈ l, (f a).isSome) :
    (l.mapM f).isSome := by
  induction l with
  | nil => rfl
  | cons a l ih =>
    rw [List.forall_mem_cons] at h
    obtain ⟨b, hb⟩ := Option.isSome_iff_exists.1 h.1
    obtain ⟨bs, hbs⟩ := Option.isSome_iff_exists.1 (ih h.2)
    rw [List.mapM_cons, hb, hbs]
    rfl

/-- An array decodes when each of its elements does. -/
theorem mapM_map_of_decode {α β : Type*} {encode : α → β} {decode : β → Option α} {l : List α}
    (h : ∀ a ∈ l, decode (encode a) = some a) : (l.map encode).mapM decode = some l := by
  rw [mapM_eq_some_iff, List.map_map]
  exact List.map_congr_left h

/-- The coder of an array whose elements are written by `encode` and read by `decode`. -/
def arrayCoder {α : Type*} (encode : α → Json) (decode : Json → Option α)
    (h : ∀ a, decode (encode a) = some a) : TotalCoder (List α) Json where
  encode l := some (.array (l.map encode))
  decode := array? decode
  decode_encode := by
    rintro l _ ⟨⟩
    exact mapM_map_of_decode fun a _ => h a
  encodes l := ⟨_, rfl⟩

end Json
