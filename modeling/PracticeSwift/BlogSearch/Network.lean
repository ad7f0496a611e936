import PracticeSwift.Library.Rx
import PracticeSwift.Library.URLSession

/-!
# Blogs and the request for them

The answer of the blog search and the sequence that `searchBlog` makes of a request: one element
and its completion, whatever the request leads to, since a failure of the transport is caught and
turned into an element.
-/

open URLSession

namespace PracticeSwift.BlogSearch

/-- An instant. -/
abbrev Date := ℚ

/-- What the code takes from the system libraries. -/
structure Platform where
  /-- `Date.from(dateString:)`, which is a date formatter. -/
  dateFrom : String → Option Date
  /-- `URL(string:)` -/
  url : String → Option String
  /-- `URLComponents.url`, for the components of a query. -/
  queryURL : String → Option String
  /-- `Error.localizedDescription`, for the two cases of `SearchNetworkError`. -/
  invalidJSONDescription : String
  networkErrorDescription : String
  /-- `<` of strings. -/
  precedes : String → String → Bool

structure DKDocument where
  name : Option String
  datetime : Option Date
  thumbnail : Option String
  title : Option String

structure DKBlog where
  documents : List DKDocument

/-- `try? values.decode(String?.self, forKey: key)` -/
def optionalString (json : Json) (key : String) : Option String :=
  (json.field key).bind Json.string?

/-- `Date.parse` -/
def parseDate (platform : Platform) (json : Json) (key : String) : Option Date :=
  (optionalString json key).bind platform.dateFrom

/-- `DKDocument.init(from:)`: only a value that is no object is an error. -/
def DKDocument.decode (platform : Platform) (json : Json) : Option DKDocument :=
  if json.isObject then
    some
      { title := optionalString json "title"
        name := optionalString json "blogname"
        thumbnail := optionalString json "thumbnail"
        datetime := parseDate platform json "datetime" }
  else none

/-- `init(from:)` of the synthesized `Decodable`. -/
def DKBlog.decode (platform : Platform) (json : Json) : Option DKBlog := do
  let documents ← (← json.field "documents").array? (DKDocument.decode platform)
  return ⟨documents⟩

inductive SearchNetworkError
  | invalidJSON
  | networkError
  deriving DecidableEq

def SearchNetworkError.localizedDescription (platform : Platform) : SearchNetworkError → String
  | .invalidJSON => platform.invalidJSONDescription
  | .networkError => platform.networkErrorDescription

/-- `Result<DKBlog, SearchNetworkError>` -/
abbrev SearchResult := Except SearchNetworkError DKBlog

/-- What subscribing to a search does: it emits at once, or it starts a data task. -/
inductive Subscription
  | emits (events : Rx.Sequence SearchResult)
  | dataTask (url : String)

/-- `SearchBlogNetwork.searchBlog(query:)`, on subscription. -/
def searchBlog (platform : Platform) (query : String) : Subscription :=
  match platform.queryURL query with
  | none => .emits (.just (.error .invalidJSON))
  | some url => .dataTask url

/-- The decoding of the data of a response. -/
def decodeBlog (platform : Platform) (data : Data) : SearchResult :=
  match data.bind (DKBlog.decode platform) with
  | some blogData => .ok blogData
  | none => .error .invalidJSON

/-- The events of `session.rx.data(request:)` when the data task has this result. -/
def dataEvents (result : Result) : Rx.Sequence Data :=
  match rxData result with
  | some data => .just data
  | none => [.error]

/-- What the search emits when its data task has this result. -/
def searchEvents (platform : Platform) (result : Result) : Rx.Sequence SearchResult :=
  Rx.Sequence.asSingle <|
    Rx.Sequence.catchError (.just (.error .networkError)) <|
      (dataEvents result).map (Rx.Event.map (decodeBlog platform))

/-- The search result that a result of the data task stands for. -/
def searchResult (platform : Platform) (result : Result) : SearchResult :=
  match rxData result with
  | some data => decodeBlog platform data
  | none => .error .networkError

/-- A search never fails and never ends without an element. -/
theorem searchEvents_eq (platform : Platform) (result : Result) :
    searchEvents platform result = .just (searchResult platform result) := by
  unfold searchEvents searchResult dataEvents
  cases rxData result <;> rfl

end PracticeSwift.BlogSearch
