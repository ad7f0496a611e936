import PracticeSwift.Library.OrderedMap
import PracticeSwift.Library.Transition
import PracticeSwift.Library.URLSession

/-!
# The movie search

A click on the search button starts a data task; its completion handler runs on a network thread
and queues a block on the main queue, and the block assigns `movies` and records the search.  Tasks
may answer in any order, blocks run in the order in which they were queued, and nothing tells an
older search from a newer one, so `movies` is what the block that ran last has brought.
-/

open Transition URLSession

namespace PracticeSwift.MovieSearch

/-! ## The search API -/

structure Movie where
  title : String
  director : String
  thumbnailPath : String
  previewURL : String
  deriving DecidableEq

structure Response where
  resultCount : Int64
  movies : List Movie

/-- `init(from:)` of the synthesized `Codable`. -/
def Movie.decode (json : Json) : Option Movie := do
  let title ← (← json.field "trackName").string?
  let director ← (← json.field "artistName").string?
  let thumbnailPath ← (← json.field "artworkUrl100").string?
  let previewURL ← (← json.field "previewUrl").string?
  return ⟨title, director, thumbnailPath, previewURL⟩

/-- `init(from:)` of the synthesized `Codable`. -/
def Response.decode (json : Json) : Option Response := do
  let resultCount ← (← json.field "resultCount").int?
  let movies ← (← json.field "results").array? Movie.decode
  return ⟨resultCount, movies⟩

namespace SearchAPI

def parseMovies (data : Data) : List Movie :=
  match data.bind Response.decode with
  | some response => response.movies
  | none => []

/-- `(response as? HTTPURLResponse)?.statusCode` -/
def statusCode (response : Option URLResponse) : Option ℤ :=
  match response with
  | some (.http statusCode) => some statusCode
  | _ => none

/-- The calls of `completion` that the handler of the data task makes, with their arguments. -/
def handler (result : Result) : List (List Movie) :=
  if !result.error && (statusCode result.response).any isSuccess then
    match result.data with
    | none => [[]]
    | some resultData => [parseMovies resultData]
  else [[]]

/-- The movies of a response; a failed search has none. -/
def movies (result : Result) : List Movie :=
  if !result.error && (statusCode result.response).any isSuccess then
    (result.data.map parseMovies).getD []
  else []

/-- Every result completes the search exactly once. -/
theorem handler_eq (result : Result) : handler result = [movies result] := by
  unfold handler movies
  split
  · cases result.data <;> rfl
  · rfl

end SearchAPI

/-! ## The screen -/

/-- What `setValue` writes under a new key of `searchHistory`. -/
structure Record where
  term : String
  timestamp : ℤ
  deriving DecidableEq

/-- A block on the main queue: the movies for one search. -/
structure Block where
  search : ℕ
  term : String
  movies : List Movie

/-- The screen, the tasks under way by the number of their search, and the main queue. -/
structure SearchScreen where
  movies : List Movie := []
  submitted : ℕ := 0
  tasks : List (ℕ × String) := []
  queue : List Block := []
  searchHistory : List Record := []

inductive Event
  /-- The search button is clicked with this text in the search bar. -/
  | clicked (text : Option String)
  /-- The task of a search calls its handler. -/
  | responded (search : ℕ) (result : Result)
  /-- The next block of the main queue runs, with this reading of the clock. -/
  | handled (timestamp : ℤ)

namespace SearchScreen

def searchBarSearchButtonClicked (s : SearchScreen) (text : Option String) : SearchScreen :=
  match text with
  | none => s
  | some searchTerm =>
    if searchTerm.isEmpty then s
    else { s with tasks := s.tasks ++ [(s.submitted, searchTerm)], submitted := s.submitted + 1 }

def step (s : SearchScreen) : Event → Option SearchScreen
  | .clicked text => some (s.searchBarSearchButtonClicked text)
  | .responded search result =>
    match s.tasks.lookup search with
    | none => none
    | some term =>
      some { s with
        tasks := s.tasks.filter fun task => task.1 ≠ search
        queue := s.queue ++ (SearchAPI.handler result).map fun movies => ⟨search, term, movies⟩ }
  | .handled timestamp =>
    match s.queue with
    | [] => none
    | block :: queue =>
      some { s with
        movies := block.movies
        queue
        searchHistory := s.searchHistory ++ [⟨block.term, timestamp⟩] }

/-- The runs of the screen. -/
def system : System SearchScreen Event where
  start s := s = {}
  step s e s' := s.step e = some s'

/-- What a step does. -/
inductive Step (s : SearchScreen) : Event → SearchScreen → Prop
  | ignored (text : Option String) : Step s (.clicked text) s
  | submitted (searchTerm : String) :
      Step s (.clicked (some searchTerm))
        { s with tasks := s.tasks ++ [(s.submitted, searchTerm)], submitted := s.submitted + 1 }
  | responded {search : ℕ} {term : String} (result : Result)
      (pending : s.tasks.lookup search = some term) :
      Step s (.responded search result)
        { s with
          tasks := s.tasks.filter fun task => task.1 ≠ search
          queue := s.queue ++ [⟨search, term, SearchAPI.movies result⟩] }
  | handled {block : Block} {queue : List Block} (timestamp : ℤ)
      (queued : s.queue = block :: queue) :
      Step s (.handled timestamp)
        { s with
          movies := block.movies
          queue
          searchHistory := s.searchHistory ++ [⟨block.term, timestamp⟩] }

theorem step_cases {s s' : SearchScreen} {e : Event} (h : s.step e = some s') : Step s e s' := by
  cases e with
  | clicked text =>
    obtain rfl := Option.some.inj h
    unfold searchBarSearchButtonClicked
    split
    · exact .ignored _
    · split_ifs
      · exact .ignored _
      · exact .submitted _
  | responded search result =>
    simp only [step, SearchAPI.handler_eq] at h
    split at h
    · exact absurd h nofun
    · obtain rfl := Option.some.inj h
      exact .responded result ‹_›
  | handled timestamp =>
    simp only [step] at h
    split at h
    · exact absurd h nofun
    · obtain rfl := Option.some.inj h
      exact .handled timestamp ‹_›

/-! ## Which response is shown -/

/-- The responses of a history, oldest first, with the number of the search they answer. -/
def responses : List Event → List (ℕ × Result)
  | [] => []
  | .responded search result :: past => responses past ++ [(search, result)]
  | .clicked _ :: past | .handled _ :: past => responses past

/-- How many blocks have run. -/
def blocksRun : List Event → ℕ
  | [] => 0
  | .handled _ :: past => blocksRun past + 1
  | .clicked _ :: past | .responded _ _ :: past => blocksRun past

/-- The responses that have been handled on the main queue, oldest first. -/
def handledResponses (past : List Event) : List (ℕ × Result) :=
  (responses past).take (blocksRun past)

/-- The queue holds the responses that have not been handled, in order, and `movies` are those of
the last one that has. -/
structure Shows (past : List Event) (s : SearchScreen) : Prop where
  queue : s.queue.map (fun block => (block.search, block.movies)) =
    ((responses past).drop (blocksRun past)).map fun r => (r.1, SearchAPI.movies r.2)
  le : blocksRun past ≤ (responses past).length
  movies : s.movies =
    ((handledResponses past).getLast?.map fun r => SearchAPI.movies r.2).getD []

/-- What begins a rest of a list is the next element. -/
theorem getElem?_of_drop_eq_cons {α : Type} {l rest : List α} {n : ℕ} {a : α}
    (h : l.drop n = a :: rest) : n < l.length ∧ l[n]? = some a ∧ l.drop (n + 1) = rest := by
  refine ⟨?_, ?_, ?_⟩
  · by_contra hge
    rw [List.drop_eq_nil_of_le (by omega)] at h
    exact List.cons_ne_nil a rest h.symm
  · rw [← List.head?_drop, h, List.head?_cons]
  · rw [← List.drop_drop, h, List.drop_one, List.tail_cons]

theorem Shows.step {past : List Event} {s s' : SearchScreen} {e : Event} (h : Shows past s)
    (hs : Step s e s') : Shows (e :: past) s' := by
  obtain ⟨hqueue, hle, hmovies⟩ := h
  cases hs with
  | ignored => exact ⟨hqueue, hle, hmovies⟩
  | submitted => exact ⟨hqueue, hle, hmovies⟩
  | responded result pending =>
    refine ⟨?_, ?_, ?_⟩
    · rw [responses, blocksRun, List.map_append, hqueue, List.drop_append_of_le_length hle,
        List.map_append]
      rfl
    · rw [responses, blocksRun, List.length_append]
      exact Nat.le_add_right_of_le hle
    · rw [handledResponses, responses, blocksRun, List.take_append_of_le_length hle]
      exact hmovies
  | @handled block queue timestamp queued =>
    rw [queued, List.map_cons] at hqueue
    cases hrest : (responses past).drop (blocksRun past) with
    | nil => exact absurd (hrest ▸ hqueue) nofun
    | cons r rest =>
      rw [hrest, List.map_cons, List.cons.injEq, Prod.mk.injEq] at hqueue
      obtain ⟨⟨-, hblock⟩, hqueue⟩ := hqueue
      obtain ⟨hlt, hnext, hlater⟩ := getElem?_of_drop_eq_cons hrest
      refine ⟨?_, hlt, ?_⟩
      · rw [responses, blocksRun, hlater]
        exact hqueue
      · rw [handledResponses, responses, blocksRun, List.take_add_one, hnext,
          Option.toList_some, List.getLast?_append, List.getLast?_singleton]
        exact hblock

theorem shows_of_run {past : List Event} {s : SearchScreen} (h : system.Run past s) :
    Shows past s := by
  apply h.invariant
  · rintro _ rfl
    exact ⟨rfl, le_rfl, rfl⟩
  · intro past s e s' _ hs hstep
    exact hs.step (step_cases hstep)

/-- After every run `movies` are those of the response handled last, none before any has been; so
they are those of the last search when its response is the one handled last. -/
theorem movies_of_last_handled {past : List Event} {s : SearchScreen} (h : system.Run past s) :
    s.movies = ((handledResponses past).getLast?.map fun r => SearchAPI.movies r.2).getD [] ∧
      ∀ search result, search + 1 = s.submitted →
        (handledResponses past).getLast? = some (search, result) →
        s.movies = SearchAPI.movies result := by
  have hmovies := (shows_of_run h).movies
  refine ⟨hmovies, fun search result _ hlast => ?_⟩
  rw [hmovies, hlast]
  rfl

/-- A response with one movie. -/
def found (title : String) : Result where
  data := some (some (.object [("resultCount", .number 1), ("results", .array [.object
    [("trackName", .string title), ("artistName", .string "director"),
      ("artworkUrl100", .string "thumbnail"), ("previewUrl", .string "preview")]])]))
  response := some (.http 200)

/-- Two searches answered in order. -/
theorem movies_of_last_handled_in_order :
    ∃ s, system.Run [.handled 1, .responded 1 (found "Up"), .handled 0, .responded 0 (found "Big"),
        .clicked (some "up"), .clicked (some "big")] s ∧
      s.movies = SearchAPI.movies (found "Up") := by
  have hrun : system.Run [.handled 1, .responded 1 (found "Up"), .handled 0,
      .responded 0 (found "Big"), .clicked (some "up"), .clicked (some "big")] _ :=
    .step (.step (.step (.step (.step (.step (.start rfl) rfl) rfl) rfl) rfl) rfl) rfl
  exact ⟨_, hrun, (movies_of_last_handled hrun).2 1 _ rfl rfl⟩

/-- Two searches, the second answered and handled first: the result of the first one stays. -/
theorem late_response_wins :
    ¬ ∀ (past : List Event) (s : SearchScreen) (search : ℕ) (result : Result),
      system.Run past s → search + 1 = s.submitted →
        (search, result) ∈ handledResponses past → s.movies = SearchAPI.movies result := by
  intro h
  have hrun : system.Run [.handled 1, .responded 0 (found "Big"), .handled 0,
      .responded 1 (found "Up"), .clicked (some "up"), .clicked (some "big")] _ :=
    .step (.step (.step (.step (.step (.step (.start rfl) rfl) rfl) rfl) rfl) rfl) rfl
  have hmovies := h _ _ 1 (found "Up") hrun rfl List.mem_cons_self
  revert hmovies
  decide

end SearchScreen

end PracticeSwift.MovieSearch
