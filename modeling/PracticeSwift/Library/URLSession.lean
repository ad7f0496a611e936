import PracticeSwift.Library.Json

/-!
# Data tasks

What the completion handler of a data task receives, and the two observable sequences made of it.
A sequence of one element that either emits it or fails is an `Option`.
-/

namespace URLSession

/-- The bytes of a body, up to what a JSON parser makes of them; `none` is no JSON. -/
abbrev Data := Option Json

inductive URLResponse
  | http (statusCode : ℤ)
  | other

/-- The arguments of a completion handler. -/
structure Result where
  data : Option Data
  response : Option URLResponse
  error : Bool := false

/-- `200 ..< 300 ~= statusCode` -/
def isSuccess (statusCode : ℤ) : Bool := 200 ≤ statusCode && statusCode < 300

/-- `rx.response(request:)`: the response and the data, or an error when one of them is missing or
the response is none of HTTP. -/
def rxResponse (result : Result) : Option (ℤ × Data) :=
  match result.response, result.data with
  | some (.http statusCode), some data => some (statusCode, data)
  | _, _ => none

theorem isSuccess_iff (statusCode : ℤ) :
    isSuccess statusCode = true ↔ 200 ≤ statusCode ∧ statusCode < 300 := by
  simp [isSuccess]

theorem rxResponse_eq_some_iff (result : Result) (statusCode : ℤ) (data : Data) :
    rxResponse result = some (statusCode, data) ↔
      result.response = some (.http statusCode) ∧ result.data = some data := by
  obtain ⟨body, response, _⟩ := result
  rcases response with _ | ⟨_ | _⟩ <;> cases body <;> simp [rxResponse]

/-- `rx.data(request:)`: as `rxResponse`, and a status out of the range is an error. -/
def rxData (result : Result) : Option Data := do
  let (statusCode, data) ← rxResponse result
  if isSuccess statusCode then return data else none

end URLSession
