import PracticeSwift.BlogSearch.MainModel
import PracticeSwift.Library.Transition

/-!
# The streams of the main screen

`MainViewController.bind` and `MainViewModel.init` connect the same operators.  The search results
of the latest submission are shared by a branch of values, which become cells and are combined with
the chosen order for the list view, and a branch of errors, which become alerts.  The taps on alert
actions come back through the relay `alertActionTapped`.
-/

open Transition URLSession

namespace PracticeSwift.BlogSearch

/-- The states of the stateful operators, the data tasks under way, and what has left the screen:
the requests issued, the lists handed to the list view and the alerts raised, oldest first. -/
structure MainScreen where
  blogResult : Rx.FlatMapLatest := {}
  combined : Rx.CombineLatest AlertAction (List BlogListCellData) := {}
  merged : Rx.Merge := { active := 2 }
  tasks : List ℕ := []
  requests : List String := []
  handed : List (List BlogListCellData) := []
  alerts : List Alert := []

inductive Event
  /-- An element of `shouldLoadResult`. -/
  | submitted (query : String)
  /-- The data task of the search with this number ends. -/
  | responded (search : ℕ) (result : Result)
  /-- An element of `alertActionTapped`. -/
  | alertAction (action : AlertAction)
  | sortButtonTapped

/-- An event, and what the clock reads from then on. -/
abbrev Happening := Event × Readings

namespace MainScreen

variable (platform : Platform) (f : Functions)

/-- `.merge(alertErrorMessage, alertSheetForSorting)`, every element of which is presented. -/
def onAlert (s : MainScreen) (event : Rx.Event Alert) : MainScreen :=
  let (merged, alerts) := s.merged.on event
  { s with merged, alerts := s.alerts ++ Rx.elements alerts }

/-- The right sequence of `combineLatest`, bound to the list view. -/
def onCellData (readings : Readings) (s : MainScreen)
    (event : Rx.Event (List BlogListCellData)) : MainScreen :=
  let (combined, lists) := s.combined.onRight (fun type data => (f.sort type data readings).1) event
  { s with combined, handed := s.handed ++ Rx.elements lists }

/-- The left sequence of `combineLatest`, bound to the list view. -/
def onSortedType (readings : Readings) (s : MainScreen) (event : Rx.Event AlertAction) :
    MainScreen :=
  let (combined, lists) := s.combined.onLeft (fun type data => (f.sort type data readings).1) event
  { s with combined, handed := s.handed ++ Rx.elements lists }

/-- An event of the shared `blogResult`: first to `blogValue`, then to `blogError`. -/
def onBlogResult (readings : Readings) (s : MainScreen) (event : Rx.Event SearchResult) :
    MainScreen :=
  let s := (event.compactMap f.getBlogValue).foldl
    (fun s value => onCellData f readings s (value.map f.getBlogListCellData)) s
  (event.compactMap f.getBlogError).foldl
    (fun s message => onAlert s (message.map f.alertErrorMessage)) s

/-- Events of the search with the given number. -/
def onSearch (readings : Readings) (s : MainScreen) (search : ℕ)
    (events : Rx.Sequence SearchResult) : MainScreen :=
  let (blogResult, results) := s.blogResult.onInners search events
  results.foldl (onBlogResult f readings) { s with blogResult }

/-- The screen once everything is subscribed. -/
def start (readings : Readings) : MainScreen := onSortedType f readings {} (.next f.startType)

def step (s : MainScreen) : Happening → Option MainScreen
  | (.submitted query, readings) =>
    let (blogResult, started, results) := s.blogResult.onSource (.next query)
    let s := results.foldl (onBlogResult f readings) { s with blogResult }
    match started with
    | none => some s
    | some search =>
      match f.searchBlog query with
      | .emits events => some (onSearch f readings s search events)
      | .dataTask url => some { s with tasks := s.tasks ++ [search], requests := s.requests ++ [url] }
  | (.responded search result, readings) =>
    if search ∈ s.tasks then
      some (onSearch f readings { s with tasks := s.tasks.filter fun task => task ≠ search } search
        (searchEvents platform result))
    else none
  | (.alertAction action, readings) =>
    some (((Rx.Event.next action).filter f.isSortedType).foldl (onSortedType f readings) s)
  | (.sortButtonTapped, _) => some (onAlert s ((Rx.Event.next ()).map f.alertSheetForSorting))

/-- The runs of the screen of a version. -/
def system (version : Version) : System MainScreen Happening where
  start s := ∃ readings, s = start (version.functions platform) readings
  step s e s' := step platform (version.functions platform) s e = some s'

/-! ## What the screen is to show -/

/-- How many searches have been submitted. -/
def submissions : List Happening → ℕ
  | [] => 0
  | (.submitted _, _) :: past => submissions past + 1
  | (_, _) :: past => submissions past

/-- The search result that an event brings: a submission that makes no URL fails at once, and a
response counts when no later search has been submitted. -/
def arrived (past : List Happening) : Event → Option SearchResult
  | .submitted query =>
    match platform.queryURL query with
    | none => some (.error .invalidJSON)
    | some _ => none
  | .responded search result =>
    if search = submissions past then some (searchResult platform result) else none
  | _ => none

/-- What the list view is to show: the latest successful result, the order chosen last, and the
clock at the moment the list was handed over. -/
structure Display where
  blog : Option DKBlog := none
  type : AlertAction := .title
  readings : Readings := fun _ => 0

def display : List Happening → Display
  | [] => {}
  | (e, readings) :: past =>
    match arrived platform past e, e with
    | some (.ok blog), _ => { display past with blog := some blog, readings }
    | none, .alertAction .title => { display past with type := .title, readings }
    | none, .alertAction .datetime => { display past with type := .datetime, readings }
    | _, _ => display past

/-- The sorted cells, once there is a successful result. -/
def Display.list (d : Display) : Option (List BlogListCellData) :=
  d.blog.map fun blog =>
    (MainModel.sort platform d.type (MainModel.getBlogListCellData platform blog) d.readings).1

/-- The alert that tells of an error. -/
def errorAlert (description : String) : Alert :=
  ⟨some "오류 발생", some ("다음과 같음 오류가 발생하였습니다. " ++ description), [.confirm], .alert⟩

/-- The sheet that asks for the order. -/
def sortSheet : Alert := ⟨none, none, [.title, .datetime, .cancel], .actionSheet⟩

/-- The alerts that an event raises. -/
def raised (past : List Happening) (e : Event) : List Alert :=
  match arrived platform past e, e with
  | some (.error error), _ => [errorAlert (error.localizedDescription platform)]
  | none, .sortButtonTapped => [sortSheet]
  | _, _ => []

def expectedAlerts : List Happening → List Alert
  | [] => []
  | (e, _) :: past => expectedAlerts past ++ raised platform past e

/-- The requests of all submissions that make a URL. -/
def expectedRequests : List Happening → List String
  | [] => []
  | (.submitted query, _) :: past => expectedRequests past ++ (platform.queryURL query).toList
  | (_, _) :: past => expectedRequests past

/-- A platform that takes every query for a URL, and compares strings by their code points. -/
def anyQuery : Platform :=
  ⟨fun _ => none, fun _ => none, some, "invalid", "network", fun a b => a < b⟩

end MainScreen

end PracticeSwift.BlogSearch
