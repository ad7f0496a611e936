import PracticeSwift.BlogSearch.MainScreen

/-!
# The search bar and its rewrite

A tap on either search button submits the text of the field, unless it is empty or was submitted
last.  The original reads the field itself, which replays its text to a new observer; in the rewrite
the texts come through the relay `quaryText`, which does not.  Both bars are the bar of one text and
one last query (`Query`), and with the main screen behind it the two apps have the same runs.
-/

open Transition URLSession

namespace PracticeSwift.BlogSearch

/-- The operators of `shouldLoadResult`, the same in both versions. -/
structure ShouldLoadResult where
  text : Rx.WithLatestFrom (Option String) := {}
  distinct : Rx.DistinctUntilChanged String := {}

namespace ShouldLoadResult

variable (equal : String → String → Bool)

/-- The filter and `distinctUntilChanged`, behind `withLatestFrom`; `equal` is `==` of strings. -/
def forward (s : ShouldLoadResult)
    (texts : Rx.WithLatestFrom (Option String) × List (Rx.Event String)) :
    ShouldLoadResult × List (Rx.Event String) :=
  let filtered := texts.2.flatMap (Rx.Event.filter fun text => !text.isEmpty)
  let (distinct, queries) := Rx.feed (Rx.DistinctUntilChanged.on equal) s.distinct filtered
  (⟨texts.1, distinct⟩, queries)

/-- The field or `quaryText` emits. -/
def onText (s : ShouldLoadResult) (event : Rx.Event (Option String)) :
    ShouldLoadResult × List (Rx.Event String) :=
  s.forward equal (s.text.onSecond event)

/-- `searchBarButtonTapped` emits. -/
def onTapped (s : ShouldLoadResult) (event : Rx.Event Unit) :
    ShouldLoadResult × List (Rx.Event String) :=
  s.forward equal (s.text.onFirst (fun _ text => text.getD "") event)

end ShouldLoadResult

/-- The two buttons that `SearchBar.bind` merges. -/
inductive SearchButton
  | searchButtonClicked
  | searchButton

/-- A version of the search bar: what the texts of the field and the taps on its buttons do, and
what `shouldLoadResult` emits. -/
structure SearchBarVersion (Bar : Type) where
  start : Bar → Prop
  onText : Bar → Option String → Bar × List (Rx.Event String)
  onTap : Bar → SearchButton → Bar × List (Rx.Event String)

structure SearchBar where
  merged : Rx.Merge := { active := 2 }
  shouldLoadResult : ShouldLoadResult := {}

namespace SearchBar

variable (equal : String → String → Bool)

def onText (s : SearchBar) (text : Option String) : SearchBar × List (Rx.Event String) :=
  let (shouldLoadResult, queries) := s.shouldLoadResult.onText equal (.next text)
  ({ s with shouldLoadResult }, queries)

def onTap (s : SearchBar) (_ : SearchButton) : SearchBar × List (Rx.Event String) :=
  let (merged, taps) := s.merged.on (.next ())
  let (shouldLoadResult, queries) := Rx.feed (ShouldLoadResult.onTapped equal) s.shouldLoadResult taps
  (⟨merged, shouldLoadResult⟩, queries)

/-- On subscription the field, which is empty, replays its text. -/
def version : SearchBarVersion SearchBar where
  start s := ∃ text : Option String, text.getD "" = "" ∧ s = (onText equal {} text).1
  onText := onText equal
  onTap := onTap equal

end SearchBar

structure SearchBarViewModel where
  shouldLoadResult : ShouldLoadResult := {}

namespace SearchBarViewModel

variable (equal : String → String → Bool)

def quaryText (s : SearchBarViewModel) (text : Option String) :
    SearchBarViewModel × List (Rx.Event String) :=
  let (shouldLoadResult, queries) := s.shouldLoadResult.onText equal (.next text)
  (⟨shouldLoadResult⟩, queries)

def searchBarButtonTapped (s : SearchBarViewModel) :
    SearchBarViewModel × List (Rx.Event String) :=
  let (shouldLoadResult, queries) := s.shouldLoadResult.onTapped equal (.next ())
  (⟨shouldLoadResult⟩, queries)

/-- The view forwards every text and every tap, and perhaps the text of the field on launch. -/
def version : SearchBarVersion SearchBarViewModel where
  start s := s = {} ∨ ∃ text : Option String, text.getD "" = "" ∧ s = (quaryText equal {} text).1
  onText := quaryText equal
  onTap s _ := s.searchBarButtonTapped equal

end SearchBarViewModel

/-! ## The screen -/

structure SearchScreen (Bar : Type) where
  searchBar : Bar
  main : MainScreen

inductive Input
  /-- A text of the search field. -/
  | searchText (text : Option String)
  | searchButtonTapped (button : SearchButton)
  | responded (search : ℕ) (result : Result)
  | alertAction (action : AlertAction)
  | sortButtonTapped

namespace SearchScreen

variable {Bar : Type} (platform : Platform) (version : Version) (bar : SearchBarVersion Bar)

/-- What `shouldLoadResult` emits goes to the main screen. -/
def load (readings : Readings) (s : SearchScreen Bar) (emitted : Bar × List (Rx.Event String)) :
    Option (SearchScreen Bar) := do
  let main ← (Rx.elements emitted.2).foldlM
    (fun main query =>
      MainScreen.step platform (version.functions platform) main (.submitted query, readings))
    s.main
  return ⟨emitted.1, main⟩

def onMain (s : SearchScreen Bar) (e : Happening) : Option (SearchScreen Bar) := do
  let main ← MainScreen.step platform (version.functions platform) s.main e
  return { s with main }

def step (s : SearchScreen Bar) : Input × Readings → Option (SearchScreen Bar)
  | (.searchText text, readings) =>
    load platform version readings s (bar.onText s.searchBar text)
  | (.searchButtonTapped button, readings) =>
    load platform version readings s (bar.onTap s.searchBar button)
  | (.responded search result, readings) =>
    onMain platform version s (.responded search result, readings)
  | (.alertAction action, readings) => onMain platform version s (.alertAction action, readings)
  | (.sortButtonTapped, readings) => onMain platform version s (.sortButtonTapped, readings)

/-- The runs of a version of the app. -/
def system : System (SearchScreen Bar) (Input × Readings) where
  start s := bar.start s.searchBar ∧ (MainScreen.system platform version).start s.main
  step s e s' := step platform version bar s e = some s'

section

variable {platform version bar}
variable {readings : Readings} {s s' : SearchScreen Bar}

theorem load_eq_some_iff {emitted : Bar × List (Rx.Event String)} :
    load platform version readings s emitted = some s' ↔
      ∃ main, (Rx.elements emitted.2).foldlM
          (fun main query => MainScreen.step platform (version.functions platform) main
            (.submitted query, readings)) s.main = some main ∧
        ⟨emitted.1, main⟩ = s' := by
  simp only [load, Option.bind_eq_bind, Option.bind_eq_some_iff, Option.pure_def,
    Option.some.injEq]

theorem onMain_eq_some_iff {e : Happening} :
    onMain platform version s e = some s' ↔
      ∃ main, MainScreen.step platform (version.functions platform) s.main e = some main ∧
        { s with main } = s' := by
  simp only [onMain, Option.bind_eq_bind, Option.bind_eq_some_iff, Option.pure_def,
    Option.some.injEq]

end

/-- Related bars with the same main screen behind them. -/
def Related {Bar' : Type} (R : Bar → Bar' → Prop) (s : SearchScreen Bar) (s' : SearchScreen Bar') :
    Prop :=
  R s.searchBar s'.searchBar ∧ s'.main = s.main

end SearchScreen

/-- The app with the streams in the views. -/
def original (platform : Platform) (equal : String → String → Bool) :
    System (SearchScreen SearchBar) (Input × Readings) :=
  SearchScreen.system platform .original (SearchBar.version equal)

/-- The app with view models. -/
def mvvm (platform : Platform) (equal : String → String → Bool) :
    System (SearchScreen SearchBarViewModel) (Input × Readings) :=
  SearchScreen.system platform .mvvm (SearchBarViewModel.version equal)

theorem original_launched (platform : Platform) (equal : String → String → Bool) :
    (original platform equal).Run []
      ⟨(SearchBar.onText equal {} none).1,
        MainScreen.start (Version.original.functions platform) fun _ => 0⟩ :=
  .start ⟨⟨none, rfl, rfl⟩, fun _ => 0, rfl⟩

/-! ## The bar of one text and one last query -/

/-- What a search bar is for. -/
structure Query where
  text : String := ""
  last : Option String := none
  deriving DecidableEq

namespace Query

variable (equal : String → String → Bool)

/-- The query that a tap submits. -/
def submitted (q : Query) : Option String :=
  if q.text.isEmpty || q.last.any fun query => equal query q.text then none else some q.text

def tapped (q : Query) : Query := { q with last := q.submitted equal <|> q.last }

def version : SearchBarVersion Query where
  start q := q = {}
  onText q text := ({ q with text := text.getD "" }, [])
  onTap q _ := (q.tapped equal, ((q.submitted equal).map Rx.Event.next).toList)

end Query

variable {equal : String → String → Bool}

/-- The operators hold the text and the last query. -/
structure ShouldLoadResult.Holds (s : ShouldLoadResult) (q : Query) : Prop where
  alive : s.text.Alive
  disposed : s.distinct.disposed = false
  text : (s.text.latest.getD none).getD "" = q.text
  last : s.distinct.currentKey = q.last

theorem ShouldLoadResult.Holds.onText {s : ShouldLoadResult} {q : Query} (h : s.Holds q)
    (text : Option String) :
    (s.onText equal (.next text)).1.Holds ((Query.version equal).onText q text).1 ∧
      (s.onText equal (.next text)).2 = [] := by
  rw [ShouldLoadResult.onText, Rx.WithLatestFrom.onSecond_next h.alive]
  exact ⟨⟨⟨h.alive.secondDone, h.alive.disposed⟩, h.disposed, rfl, h.last⟩, rfl⟩

/-- A text is forwarded unless it is empty or was forwarded last. -/
theorem ShouldLoadResult.forward_next {s : ShouldLoadResult} (h : s.distinct.disposed = false)
    (text : Rx.WithLatestFrom (Option String)) (query : String) :
    s.forward equal (text, [.next query]) =
      if query.isEmpty || s.distinct.currentKey.any fun last => equal last query then
        (⟨text, s.distinct⟩, [])
      else (⟨text, { s.distinct with currentKey := some query }⟩, [.next query]) := by
  have hfilter : [Rx.Event.next query].flatMap (Rx.Event.filter fun text => !text.isEmpty) =
      if query.isEmpty then [] else [.next query] := by
    cases hempty : query.isEmpty <;>
      simp [Rx.Event.filter, Rx.Event.compactMap, Option.guard, hempty]
  rw [forward]
  simp only [hfilter]
  cases hempty : query.isEmpty with
  | true => rfl
  | false =>
    simp only [Bool.false_eq_true, if_false, Bool.false_or, Rx.feed_singleton,
      Rx.DistinctUntilChanged.on_next h]
    split_ifs <;> rfl

theorem ShouldLoadResult.Holds.onTapped {s : ShouldLoadResult} {q : Query} (h : s.Holds q) :
    (s.onTapped equal (.next ())).1.Holds (q.tapped equal) ∧
      (s.onTapped equal (.next ())).2 = ((q.submitted equal).map Rx.Event.next).toList := by
  rw [ShouldLoadResult.onTapped, Rx.WithLatestFrom.onFirst_next h.alive]
  have htext := h.text
  cases hlatest : s.text.latest with
  | none =>
    -- no text has come yet, as if it were empty
    rw [hlatest] at htext
    have hsubmitted : q.submitted equal = none := by
      rw [Query.submitted, ← htext]
      rfl
    rw [Query.tapped, hsubmitted]
    exact ⟨h, rfl⟩
  | some text =>
    rw [hlatest] at htext
    obtain htext : text.getD "" = q.text := htext
    simp only [Option.map_some, Option.toList_some, forward_next h.disposed, htext, h.last,
      Query.tapped, Query.submitted]
    split_ifs
    · exact ⟨h, rfl⟩
    · exact ⟨⟨h.alive, h.disposed, h.text, rfl⟩, rfl⟩

/-! ## Versions that cannot be told apart -/

/-- Related bars stay related and emit the same queries. -/
structure SearchBarVersion.Bisimilar {Bar Bar' : Type} (bar : SearchBarVersion Bar)
    (bar' : SearchBarVersion Bar') (R : Bar → Bar' → Prop) : Prop where
  start : ∀ b, bar.start b → ∃ b', bar'.start b' ∧ R b b'
  start_symm : ∀ b', bar'.start b' → ∃ b, bar.start b ∧ R b b'
  text : ∀ b b' text, R b b' →
    R (bar.onText b text).1 (bar'.onText b' text).1 ∧
      (bar.onText b text).2 = (bar'.onText b' text).2
  tap : ∀ b b' button, R b b' →
    R (bar.onTap b button).1 (bar'.onTap b' button).1 ∧
      (bar.onTap b button).2 = (bar'.onTap b' button).2

namespace SearchBarVersion.Bisimilar

variable {Bar Bar' : Type} {bar : SearchBarVersion Bar} {bar' : SearchBarVersion Bar'}
  {R : Bar → Bar' → Prop}

theorem symm (h : bar.Bisimilar bar' R) : bar'.Bisimilar bar fun b' b => R b b' where
  start := h.start_symm
  start_symm := h.start
  text b' b text hR := (h.text b b' text hR).imp id Eq.symm
  tap b' b button hR := (h.tap b b' button hR).imp id Eq.symm

theorem simulates (h : bar.Bisimilar bar' R) (platform : Platform) (version version' : Version) :
    (SearchScreen.system platform version bar).Simulates
      (SearchScreen.system platform version' bar') id (SearchScreen.Related R) where
  start := by
    rintro ⟨b, main⟩ ⟨hb, readings, hmain⟩
    obtain ⟨b', hb', hR⟩ := h.start b hb
    refine ⟨⟨b', main⟩, ⟨hb', readings, hmain.trans ?_⟩, hR, rfl⟩
    rw [version.functions_eq, version'.functions_eq]
  step := by
    rintro ⟨b, main⟩ ⟨b', main'⟩ ⟨e, readings⟩ s₁ ⟨hR, hmain⟩ hstep
    obtain rfl : main' = main := hmain
    have hload : ∀ emitted emitted', R emitted.1 emitted'.1 ∧ emitted.2 = emitted'.2 →
        SearchScreen.load platform version readings ⟨b, main'⟩ emitted = some s₁ →
        ∃ s₁', SearchScreen.load platform version' readings ⟨b', main'⟩ emitted' = some s₁' ∧
          SearchScreen.Related R s₁ s₁' := by
      rintro emitted emitted' ⟨hR, hqueries⟩ hload
      obtain ⟨main, hmain, rfl⟩ := SearchScreen.load_eq_some_iff.1 hload
      rw [version.functions_eq, ← version'.functions_eq, hqueries] at hmain
      exact ⟨_, SearchScreen.load_eq_some_iff.2 ⟨main, hmain, rfl⟩, hR, rfl⟩
    have hrest : ∀ e, SearchScreen.onMain platform version ⟨b, main'⟩ e = some s₁ →
        ∃ s₁', SearchScreen.onMain platform version' ⟨b', main'⟩ e = some s₁' ∧
          SearchScreen.Related R s₁ s₁' := by
      intro e honMain
      obtain ⟨main, hmain, rfl⟩ := SearchScreen.onMain_eq_some_iff.1 honMain
      rw [version.functions_eq, ← version'.functions_eq] at hmain
      exact ⟨_, SearchScreen.onMain_eq_some_iff.2 ⟨main, hmain, rfl⟩, hR, rfl⟩
    cases e with
    | searchText text => exact hload _ _ (h.text b b' text hR) hstep
    | searchButtonTapped button => exact hload _ _ (h.tap b b' button hR) hstep
    | responded search result => exact hrest _ hstep
    | alertAction action => exact hrest _ hstep
    | sortButtonTapped => exact hrest _ hstep

/-- Every run of one version is a run of the other, with the same main screen. -/
theorem run (h : bar.Bisimilar bar' R) {platform : Platform} {version : Version}
    (version' : Version) {past : List (Input × Readings)} {s : SearchScreen Bar}
    (hrun : (SearchScreen.system platform version bar).Run past s) :
    ∃ s', (SearchScreen.system platform version' bar').Run past s' ∧
      R s.searchBar s'.searchBar ∧ s'.main = s.main := by
  obtain ⟨s', hrun', hR⟩ := (h.simulates platform version version').run hrun
  rw [List.map_id] at hrun'
  exact ⟨s', hrun', hR⟩

end SearchBarVersion.Bisimilar

/-- An empty text leaves the operators as if nothing had come. -/
theorem ShouldLoadResult.holds_empty (equal : String → String → Bool) {text : Option String}
    (htext : text.getD "" = "") :
    (ShouldLoadResult.onText equal {} (.next text)).1.Holds {} := by
  have hempty : ShouldLoadResult.Holds {} {} := ⟨⟨rfl, rfl⟩, rfl, rfl, rfl⟩
  have hholds : (ShouldLoadResult.onText equal {} (.next text)).1.Holds
      { text := text.getD "" } := (hempty.onText text).1
  rwa [htext] at hholds

theorem SearchBar.bisimilar (equal : String → String → Bool) :
    (SearchBar.version equal).Bisimilar (Query.version equal)
      fun s q => s.merged.disposed = false ∧ s.shouldLoadResult.Holds q where
  start := by
    rintro _ ⟨text, htext, rfl⟩
    exact ⟨{}, rfl, rfl, ShouldLoadResult.holds_empty equal htext⟩
  start_symm := by
    rintro _ rfl
    exact ⟨_, ⟨none, rfl, rfl⟩, rfl, ShouldLoadResult.holds_empty equal rfl⟩
  text s q text hR := ⟨⟨hR.1, (hR.2.onText text).1⟩, (hR.2.onText text).2⟩
  tap s q button hR := by
    obtain ⟨hmerged, hholds⟩ := hR
    have htap : (SearchBar.version equal).onTap s button =
        (⟨s.merged, (s.shouldLoadResult.onTapped equal (.next ())).1⟩,
          (s.shouldLoadResult.onTapped equal (.next ())).2) := by
      show SearchBar.onTap equal s button = _
      rw [SearchBar.onTap, Rx.Merge.on_next hmerged]
      simp only [Rx.feed_singleton]
    rw [htap]
    exact ⟨⟨hmerged, hholds.onTapped.1⟩, hholds.onTapped.2⟩

theorem SearchBarViewModel.bisimilar (equal : String → String → Bool) :
    (SearchBarViewModel.version equal).Bisimilar (Query.version equal)
      fun s q => s.shouldLoadResult.Holds q where
  start := by
    rintro _ (rfl | ⟨text, htext, rfl⟩)
    · exact ⟨{}, rfl, ⟨rfl, rfl⟩, rfl, rfl, rfl⟩
    · exact ⟨{}, rfl, ShouldLoadResult.holds_empty equal htext⟩
  start_symm := by
    rintro _ rfl
    exact ⟨{}, Or.inl rfl, ⟨rfl, rfl⟩, rfl, rfl, rfl⟩
  text s q text hR := hR.onText text
  tap s q button hR := hR.onTapped

/-- The same requests, lists and alerts have left the screen. -/
structure MainScreen.SameOutput (s s' : MainScreen) : Prop where
  requests : s.requests = s'.requests
  handed : s.handed = s'.handed
  alerts : s.alerts = s'.alerts

theorem Query.run_unique {platform : Platform} {version : Version} {past : List (Input × Readings)}
    {s s' : SearchScreen Query}
    (h : (SearchScreen.system platform version (Query.version equal)).Run past s)
    (h' : (SearchScreen.system platform version (Query.version equal)).Run past s') : s = s' := by
  refine h.unique ?_ (fun _ _ _ _ h₁ h₂ => Option.some.inj (Eq.trans (Eq.symm h₁) h₂)) h'
  rintro ⟨q, main⟩ ⟨q', main'⟩ ⟨hq, readings, hmain⟩ ⟨hq', readings', hmain'⟩
  obtain rfl : q = {} := hq
  obtain rfl : q' = {} := hq'
  -- there is no list yet that the readings could matter for
  obtain rfl : main = main' := hmain.trans hmain'.symm
  rfl

/-- Whatever the user, the network and the clock do, the rewrite goes through it just when the
original does, and the same requests, lists and alerts come out in the same order. -/
theorem mvvm_like_original (platform : Platform) (equal : String → String → Bool)
    (past : List (Input × Readings)) :
    ((∃ s, (original platform equal).Run past s) ↔ ∃ s', (mvvm platform equal).Run past s') ∧
      ∀ s s', (original platform equal).Run past s → (mvvm platform equal).Run past s' →
        s.main.SameOutput s'.main := by
  have horiginal := SearchBar.bisimilar equal
  have hmvvm := SearchBarViewModel.bisimilar equal
  refine ⟨⟨?_, ?_⟩, fun s s' hs hs' => ?_⟩
  · rintro ⟨s, hs⟩
    obtain ⟨q, hq, -, -⟩ := horiginal.run .mvvm hs
    obtain ⟨s', hs', -, -⟩ := hmvvm.symm.run .mvvm hq
    exact ⟨s', hs'⟩
  · rintro ⟨s', hs'⟩
    obtain ⟨q, hq, -, -⟩ := hmvvm.run .original hs'
    obtain ⟨s, hs, -, -⟩ := horiginal.symm.run .original hq
    exact ⟨s, hs⟩
  · obtain ⟨q, hq, -, hmain⟩ := horiginal.run .mvvm hs
    obtain ⟨q', hq', -, hmain'⟩ := hmvvm.run .mvvm hs'
    obtain rfl := Query.run_unique hq hq'
    have hsame : s.main = s'.main := hmain.symm.trans hmain'
    exact ⟨congrArg _ hsame, congrArg _ hsame, congrArg _ hsame⟩

/-- A tap before any text does nothing in either version; the search after it fails. -/
theorem mvvm_like_original_early_tap :
    ∃ s s', s.main.requests = ["rx"] ∧ s.main.alerts = [MainScreen.errorAlert "network"] ∧
      (original MainScreen.anyQuery (· == ·)).Run
        [(.responded 1 ⟨none, none, true⟩, fun _ => 0),
          (.searchButtonTapped .searchButton, fun _ => 0), (.searchText (some "rx"), fun _ => 0),
          (.searchButtonTapped .searchButtonClicked, fun _ => 0)] s ∧
      (mvvm MainScreen.anyQuery (· == ·)).Run
        [(.responded 1 ⟨none, none, true⟩, fun _ => 0),
          (.searchButtonTapped .searchButton, fun _ => 0), (.searchText (some "rx"), fun _ => 0),
          (.searchButtonTapped .searchButtonClicked, fun _ => 0)] s' ∧
      s.main.SameOutput s'.main := by
  have h : ∃ s, (original MainScreen.anyQuery (· == ·)).Run
        [(.responded 1 ⟨none, none, true⟩, fun _ => 0),
          (.searchButtonTapped .searchButton, fun _ => 0), (.searchText (some "rx"), fun _ => 0),
          (.searchButtonTapped .searchButtonClicked, fun _ => 0)] s ∧
      s.main.requests = ["rx"] ∧ s.main.alerts = [MainScreen.errorAlert "network"] :=
    ⟨_, .step (.step (.step (.step (original_launched _ _) rfl) rfl) rfl) rfl, rfl, rfl⟩
  obtain ⟨s, hs, hrequests, halerts⟩ := h
  obtain ⟨hruns, hsame⟩ := mvvm_like_original _ _ _
  obtain ⟨s', hs'⟩ := hruns.1 ⟨s, hs⟩
  exact ⟨s, s', hrequests, halerts, hs, hs', hsame s s' hs hs'⟩

end PracticeSwift.BlogSearch
