import PracticeSwift.BlogSearch.RightList
import PracticeSwift.BlogSearch.SearchBar

/-!
# Suppressed taps

A tap for the query submitted last is suppressed by `distinctUntilChanged`, which sits before the
network and never learns how the search has ended.  While the search is under way, and after it has
succeeded, nothing is lost by that: its result is or will be the one displayed.  After a failure the
tap does nothing either, and the query is not searched for again before another one.
-/

open Transition URLSession

namespace PracticeSwift.BlogSearch

namespace MainScreen

variable (platform : Platform)

/-- The query submitted last. -/
def lastSubmitted : List Happening → Option String
  | [] => none
  | (.submitted query, _) :: _ => some query
  | (_, _) :: past => lastSubmitted past

/-- The result of the search submitted last, once it has arrived. -/
def outcome : List Happening → Option SearchResult
  | [] => none
  | (e, _) :: past =>
    match arrived platform past e, e with
    | some result, _ => some result
    | none, .submitted _ => none
    | none, _ => outcome past

variable {platform} {past : List Happening} {s s' : MainScreen}

/-- An event that brings nothing and submits nothing leaves the search submitted last as it was. -/
theorem eq_of_not_arrived {e : Event} (he : ∀ query, e ≠ .submitted query) {readings : Readings}
    (h : arrived platform past e = none) :
    lastSubmitted ((e, readings) :: past) = lastSubmitted past ∧
      outcome platform ((e, readings) :: past) = outcome platform past ∧
      (display platform ((e, readings) :: past)).blog = (display platform past).blog := by
  cases e with
  | submitted query => exact absurd rfl (he query)
  | responded _ _ => simp [lastSubmitted, outcome, display, h]
  | alertAction action =>
    refine ⟨rfl, rfl, ?_⟩
    simp only [display, h]
    cases action <;> rfl
  | sortButtonTapped => exact ⟨rfl, rfl, rfl⟩

theorem outcome_of_arrived {e : Event} {readings : Readings} {result : SearchResult}
    (h : arrived platform past e = some result) :
    outcome platform ((e, readings) :: past) = some result := by
  simp [outcome, h]

theorem outcome_submitted {query : String} {readings : Readings}
    (h : arrived platform past (.submitted query) = none) :
    outcome platform ((.submitted query, readings) :: past) = none := by
  simp [outcome, h]

/-- Induction from the event that brought the outcome to the events since, none of which submits or
brings anything. -/
theorem outcome_induction {result : SearchResult} {motive : List Happening → Prop}
    (arrived : ∀ past e readings, arrived platform past e = some result →
      motive ((e, readings) :: past))
    (since : ∀ past e readings, (∀ query, e ≠ .submitted query) →
      MainScreen.arrived platform past e = none → motive past → motive ((e, readings) :: past))
    (h : outcome platform past = some result) : motive past := by
  induction past with
  | nil => exact absurd h (by simp [outcome])
  | cons happening past ih =>
    obtain ⟨e, readings⟩ := happening
    cases harrived : MainScreen.arrived platform past e with
    | some result' =>
      rw [outcome_of_arrived harrived] at h
      exact arrived past e readings (harrived.trans h)
    | none =>
      by_cases he : ∃ query, e = .submitted query
      · obtain ⟨query, rfl⟩ := he
        exact absurd ((outcome_submitted harrived).symm.trans h) (by simp)
      · have he : ∀ query, e ≠ .submitted query := not_exists.1 he
        obtain ⟨-, houtcome, -⟩ := eq_of_not_arrived he harrived
        exact since past e readings he harrived (ih (houtcome.symm.trans h))

/-- A success is what is displayed. -/
theorem blog_of_outcome {blog : DKBlog} (h : outcome platform past = some (.ok blog)) :
    (display platform past).blog = some blog := by
  refine outcome_induction (motive := fun past => (display platform past).blog = some blog)
    (fun past e readings harrived => ?_) (fun past e readings he harrived ih => ?_) h
  · simp [display, harrived]
  · exact (eq_of_not_arrived he harrived).2.2.trans ih

/-- A failure has raised its alert. -/
theorem mem_alerts_of_outcome {error : SearchNetworkError}
    (h : outcome platform past = some (.error error)) :
    errorAlert (error.localizedDescription platform) ∈ expectedAlerts platform past := by
  refine outcome_induction (motive := fun past =>
      errorAlert (error.localizedDescription platform) ∈ expectedAlerts platform past)
    (fun past e readings harrived => ?_) (fun past e readings he harrived ih => ?_) h
  · simp [expectedAlerts, raised, harrived]
  · exact List.mem_append_left _ ih

/-- The request of the query submitted last is the last one. -/
theorem getLast?_requests {query url : String} (h : lastSubmitted past = some query)
    (hurl : platform.queryURL query = some url) :
    (expectedRequests platform past).getLast? = some url := by
  induction past with
  | nil => exact absurd h (by simp [lastSubmitted])
  | cons happening past ih =>
    obtain ⟨e, readings⟩ := happening
    cases e with
    | submitted query' =>
      obtain rfl := Option.some.inj h
      rw [expectedRequests, hurl]
      exact List.getLast?_concat
    | responded _ _ => exact ih h
    | alertAction _ => exact ih h
    | sortButtonTapped => exact ih h

/-- The search submitted last has a data task until its result arrives, and no later search has
one; a query that makes no URL has failed. -/
structure Pending (platform : Platform) (past : List Happening) (s : MainScreen) : Prop where
  le : ∀ task ∈ s.tasks, task ≤ submissions past
  mem_iff : submissions past ∈ s.tasks ↔
    lastSubmitted past ≠ none ∧ outcome platform past = none
  unmade : ∀ query, lastSubmitted past = some query → platform.queryURL query = none →
    outcome platform past = some (.error .invalidJSON)

theorem Shows.tasks {d : Display} {alerts : List Alert} (h : Shows platform d alerts s)
    (readings : Readings) (result : SearchResult) :
    (onBlogResult (Version.mvvm.functions platform) readings s (.next result)).tasks =
      s.tasks := by
  cases result with
  | error error => rw [onBlogResult_error _ _ h.merged]
  | ok blog => rw [onBlogResult_ok _ _ h.combined]

/-- An event that brings nothing, submits nothing and ends no task of the latest search. -/
theorem Pending.of_not_arrived (h : Pending platform past s) {e : Event} {readings : Readings}
    (he : ∀ query, e ≠ .submitted query) (harrived : arrived platform past e = none)
    (hsubmissions : submissions ((e, readings) :: past) = submissions past)
    (hle : ∀ task ∈ s'.tasks, task ∈ s.tasks)
    (hmem : submissions past ∈ s.tasks → submissions past ∈ s'.tasks) :
    Pending platform ((e, readings) :: past) s' where
  le task htask := hsubmissions ▸ h.le task (hle task htask)
  mem_iff := by
    obtain ⟨hlast, houtcome, -⟩ := eq_of_not_arrived he harrived
    rw [hsubmissions, hlast, houtcome, ← h.mem_iff]
    exact ⟨hle _, hmem⟩
  unmade query hquery hurl := by
    obtain ⟨hlast, houtcome, -⟩ := eq_of_not_arrived he harrived
    rw [houtcome]
    exact h.unmade query (hlast.symm.trans hquery) hurl

/-- An event that brings a result leaves no task of the latest search. -/
theorem Pending.of_arrived {e : Event} {readings : Readings} {result : SearchResult}
    (harrived : arrived platform past e = some result)
    (hurl : ∀ query, lastSubmitted ((e, readings) :: past) = some query →
      platform.queryURL query = none → result = .error .invalidJSON)
    (hlt : ∀ task ∈ s'.tasks, task < submissions ((e, readings) :: past)) :
    Pending platform ((e, readings) :: past) s' where
  le task htask := Nat.le_of_lt (hlt task htask)
  unmade query hquery hnone := by
    rw [outcome_of_arrived harrived, hurl query hquery hnone]
  mem_iff := by
    rw [outcome_of_arrived harrived]
    exact iff_of_false (fun hmem => Nat.lt_irrefl _ (hlt _ hmem)) (by simp)

theorem Pending.submitted (h : Pending platform past s) (hs : Tracks platform past s)
    {query : String} {readings : Readings}
    (hstep : MainScreen.step platform (Version.mvvm.functions platform) s
      (.submitted query, readings) = some s') :
    Pending platform ((.submitted query, readings) :: past) s' := by
  rw [step_submitted hs.alive] at hstep
  obtain rfl := Option.some.inj hstep
  cases hurl : platform.queryURL query with
  | none =>
    have hshows : Shows platform (display platform past) (expectedAlerts platform past)
        { s with blogResult :=
            { s.blogResult with latest := s.blogResult.latest + 1, hasLatest := false } } :=
      hs.shows.of_eq rfl rfl rfl rfl
    have htasks := hshows.tasks readings (.error .invalidJSON)
    have harrived : arrived platform past (.submitted query) = some (.error .invalidJSON) := by
      simp [arrived, hurl]
    exact of_arrived harrived (fun _ _ _ => rfl)
      fun task htask => Nat.lt_succ_of_le (h.le task (htasks ▸ htask))
  | some url =>
    have harrived : arrived platform past (.submitted query) = none := by
      simp [arrived, hurl]
    refine ⟨fun task htask => ?_, ?_, fun query' hquery hnone => ?_⟩
    · rcases List.mem_append.1 htask with htask | htask
      · exact Nat.le_succ_of_le (h.le task htask)
      · rw [List.mem_singleton.1 htask, hs.latest]
        exact Nat.le_refl _
    · rw [outcome_submitted harrived, hs.latest]
      exact iff_of_true (List.mem_append_right _ (List.mem_singleton.2 rfl))
        ⟨by simp [lastSubmitted], rfl⟩
    · obtain rfl := Option.some.inj hquery
      exact absurd (hurl.symm.trans hnone) (by simp)

theorem Pending.responded (h : Pending platform past s) (hs : Tracks platform past s)
    {search : ℕ} {result : Result} {readings : Readings}
    (hstep : MainScreen.step platform (Version.mvvm.functions platform) s
      (.responded search result, readings) = some s') :
    Pending platform ((.responded search result, readings) :: past) s' := by
  have htask := mem_tasks_of_step hstep
  by_cases hlatest : search = submissions past
  · have harrived : arrived platform past (.responded search result) =
        some (searchResult platform result) := by
      simp [arrived, hlatest]
    obtain rfl : search = s.blogResult.latest := hlatest.trans hs.latest.symm
    rw [step_responded_latest hs.alive htask] at hstep
    obtain rfl := Option.some.inj hstep
    have hshows : Shows platform (display platform past) (expectedAlerts platform past)
        { s with
          blogResult := { s.blogResult with hasLatest := false }
          tasks := s.tasks.filter fun task => task ≠ s.blogResult.latest } :=
      hs.shows.of_eq rfl rfl rfl rfl
    have htasks := hshows.tasks readings (searchResult platform result)
    have hpending : outcome platform past = none := (h.mem_iff.1 (hlatest ▸ htask)).2
    refine of_arrived harrived (fun query hquery hnone => ?_) fun task htask => ?_
    · exact absurd (hpending.symm.trans (h.unmade query hquery hnone)) (by simp)
    · obtain ⟨htask, hne⟩ := List.mem_filter.1 (htasks ▸ htask)
      exact Nat.lt_of_le_of_ne (h.le task htask) (hlatest ▸ of_decide_eq_true hne)
  · rw [step_responded_superseded htask (hs.latest ▸ hlatest)] at hstep
    obtain rfl := Option.some.inj hstep
    refine h.of_not_arrived (by simp) (by simp [arrived, hlatest]) rfl
      (fun task htask => List.mem_of_mem_filter htask) fun hmem => ?_
    exact List.mem_filter.2 ⟨hmem, decide_eq_true (Ne.symm hlatest)⟩

theorem Pending.step (h : Pending platform past s) (hs : Tracks platform past s) {e : Happening}
    (hstep : MainScreen.step platform (Version.mvvm.functions platform) s e = some s') :
    Pending platform (e :: past) s' := by
  obtain ⟨e, readings⟩ := e
  cases e with
  | submitted query => exact h.submitted hs hstep
  | responded search result => exact h.responded hs hstep
  | alertAction action =>
    obtain rfl := Option.some.inj hstep
    cases action with
    | title => exact h.of_not_arrived (by simp) rfl rfl (fun _ => id) id
    | datetime => exact h.of_not_arrived (by simp) rfl rfl (fun _ => id) id
    | cancel => exact h.of_not_arrived (by simp) rfl rfl (fun _ => id) id
    | confirm => exact h.of_not_arrived (by simp) rfl rfl (fun _ => id) id
  | sortButtonTapped =>
    obtain rfl := Option.some.inj hstep
    exact h.of_not_arrived (by simp) rfl rfl (fun _ => id) id

theorem pending_of_run {version : Version} (h : (system platform version).Run past s) :
    Pending platform past s := by
  apply h.invariant
  · rintro _ ⟨readings, rfl⟩
    exact ⟨fun task htask => absurd htask List.not_mem_nil,
      iff_of_false List.not_mem_nil (by simp [lastSubmitted]),
      fun _ hquery => absurd hquery (by simp [lastSubmitted])⟩
  · intro past s e s' hrun hs hstep
    have hstep : MainScreen.step platform (version.functions platform) s e = some s' := hstep
    rw [Version.functions_eq] at hstep
    exact hs.step (tracks_of_run hrun) hstep

/-- How the search submitted last stands: its request is the last one and under way, and a success
will be displayed; or that request has succeeded and its result is displayed; or the search has
failed and its alert has been raised. -/
inductive Standing (platform : Platform) (version : Version) (past : List Happening)
    (s : MainScreen) (query : String) : Prop
  | inFlight {url : String} (made : platform.queryURL query = some url)
      (request : s.requests.getLast? = some url) (task : submissions past ∈ s.tasks)
      (served : ∀ result blog readings, searchResult platform result = .ok blog →
        ∃ s', MainScreen.step platform (version.functions platform) s
            (.responded (submissions past) result, readings) = some s' ∧
          s'.handed.getLast? =
            ({ display platform past with blog := some blog, readings } : Display).list platform)
  | succeeded {url : String} {blog : DKBlog} (made : platform.queryURL query = some url)
      (request : s.requests.getLast? = some url)
      (arrived : outcome platform past = some (.ok blog))
      (blog : (display platform past).blog = some blog)
      (list : s.handed.getLast? = (display platform past).list platform)
  | failed {error : SearchNetworkError} (arrived : outcome platform past = some (.error error))
      (alert : errorAlert (error.localizedDescription platform) ∈ s.alerts)

theorem standing_of_run {version : Version} (h : (system platform version).Run past s)
    {query : String} (hlast : lastSubmitted past = some query) :
    Standing platform version past s query := by
  have hs := tracks_of_run h
  have hpending := pending_of_run h
  cases houtcome : outcome platform past with
  | none =>
    cases hurl : platform.queryURL query with
    | none => exact absurd (houtcome.symm.trans (hpending.unmade query hlast hurl)) (by simp)
    | some url =>
      have htask : submissions past ∈ s.tasks :=
        hpending.mem_iff.2 ⟨by simp [hlast], houtcome⟩
      refine .inFlight hurl (hs.requests ▸ getLast?_requests hlast hurl) htask
        fun result blog readings hresult => ?_
      have hstep := @step_responded_latest platform s hs.alive (hs.latest ▸ htask) result readings
      rw [hs.latest, ← version.functions_eq] at hstep
      refine ⟨_, hstep, ?_⟩
      have hrun := (shows_right_list platform version (h.step hstep)).list
      rw [hrun]
      simp [display, arrived, hresult]
  | some result =>
    cases result with
    | error error =>
      exact .failed houtcome (hs.shows.alerts ▸ mem_alerts_of_outcome houtcome)
    | ok blog =>
      cases hurl : platform.queryURL query with
      | none => exact absurd (houtcome.symm.trans (hpending.unmade query hlast hurl)) (by simp)
      | some url =>
        exact .succeeded hurl (hs.requests ▸ getLast?_requests hlast hurl) houtcome
          (blog_of_outcome houtcome) hs.shows.list

end MainScreen

/-! ## Histories of the whole app -/

/-- The text in the search field. -/
def fieldText : List (Input × Readings) → String
  | [] => ""
  | (.searchText text, _) :: _ => text.getD ""
  | (_, _) :: past => fieldText past

variable (equal : String → String → Bool)

/-- The bar after these inputs. -/
def Query.after : List (Input × Readings) → Query
  | [] => {}
  | (.searchText text, _) :: past => { after past with text := text.getD "" }
  | (.searchButtonTapped _, _) :: past => (after past).tapped equal
  | (_, _) :: past => after past

/-- What an input is to the main screen, behind a search bar in this state. -/
def Input.happenings (q : Query) (readings : Readings) : Input → List Happening
  | .searchText _ => []
  | .searchButtonTapped _ => ((q.submitted equal).map fun query => (.submitted query, readings)).toList
  | .responded search result => [(.responded search result, readings)]
  | .alertAction action => [(.alertAction action, readings)]
  | .sortButtonTapped => [(.sortButtonTapped, readings)]

/-- What the inputs are to the main screen. -/
def happenings : List (Input × Readings) → List Happening
  | [] => []
  | (e, readings) :: past => e.happenings equal (Query.after equal past) readings ++ happenings past

variable {equal} {past : List (Input × Readings)}

theorem Query.text_after : (Query.after equal past).text = fieldText past := by
  induction past with
  | nil => rfl
  | cons input past ih =>
    obtain ⟨e, readings⟩ := input
    cases e with
    | searchText _ => rfl
    | searchButtonTapped _ => exact ih
    | responded _ _ => exact ih
    | alertAction _ => exact ih
    | sortButtonTapped => exact ih

theorem Query.last_after :
    (Query.after equal past).last = MainScreen.lastSubmitted (happenings equal past) := by
  induction past with
  | nil => rfl
  | cons input past ih =>
    obtain ⟨e, readings⟩ := input
    cases e with
    | searchText _ => exact ih
    | searchButtonTapped button =>
      cases hsubmitted : (Query.after equal past).submitted equal <;>
        simp [Query.after, Query.tapped, happenings, Input.happenings, hsubmitted, ih,
          MainScreen.lastSubmitted]
    | responded _ _ => exact ih
    | alertAction _ => exact ih
    | sortButtonTapped => exact ih

/-- Behind the search bar runs the main screen. -/
theorem Query.run_main {platform : Platform} {version : Version} {s : SearchScreen Query}
    (h : (SearchScreen.system platform version (Query.version equal)).Run past s) :
    s.searchBar = Query.after equal past ∧
      (MainScreen.system platform version).Run (happenings equal past) s.main := by
  apply h.invariant
  · rintro s ⟨hbar, hmain⟩
    exact ⟨hbar, .start hmain⟩
  · rintro past ⟨q, main⟩ ⟨e, readings⟩ s' _ ⟨hq, hmain⟩ hstep
    obtain rfl : q = Query.after equal past := hq
    have honMain : ∀ e, SearchScreen.onMain platform version ⟨Query.after equal past, main⟩ e =
        some s' → s'.searchBar = Query.after equal past ∧
          (MainScreen.system platform version).Run (e :: happenings equal past) s'.main := by
      intro e he
      obtain ⟨main', hmain', rfl⟩ := SearchScreen.onMain_eq_some_iff.1 he
      exact ⟨rfl, hmain.step hmain'⟩
    cases e with
    | searchText text =>
      obtain rfl := Option.some.inj hstep
      exact ⟨rfl, hmain⟩
    | searchButtonTapped button =>
      obtain ⟨main', hmain', rfl⟩ := SearchScreen.load_eq_some_iff.1 hstep
      simp only [Query.version] at hmain'
      refine ⟨rfl, ?_⟩
      cases hsubmitted : (Query.after equal past).submitted equal with
      | none =>
        rw [hsubmitted] at hmain'
        obtain rfl := Option.some.inj hmain'
        simpa [happenings, Input.happenings, hsubmitted] using hmain
      | some query =>
        rw [hsubmitted] at hmain'
        obtain ⟨_, hquery, hmain'⟩ := Option.bind_eq_some_iff.1 hmain'
        obtain rfl := Option.some.inj hmain'
        simpa [happenings, Input.happenings, hsubmitted] using hmain.step hquery
    | responded search result => exact honMain _ hstep
    | alertAction action => exact honMain _ hstep
    | sortButtonTapped => exact honMain _ hstep

/-! ## Suppression -/

/-- When a tap is suppressed, and how the search it repeats stands. -/
structure Suppresses {Bar : Type} (platform : Platform) (equal : String → String → Bool)
    (version : Version) (bar : SearchBarVersion Bar) (past : List (Input × Readings))
    (s : SearchScreen Bar) : Prop where
  /-- A tap submits the text of the field, unless it is empty or the query submitted last. -/
  submits : ∀ button, Rx.elements (bar.onTap s.searchBar button).2 =
    if (fieldText past).isEmpty ||
        (MainScreen.lastSubmitted (happenings equal past)).any fun query =>
          equal query (fieldText past) then []
    else [fieldText past]
  /-- A tap that submits nothing does nothing behind the search bar. -/
  unchanged : ∀ button readings, Rx.elements (bar.onTap s.searchBar button).2 = [] →
    ∃ s', SearchScreen.step platform version bar s (.searchButtonTapped button, readings) = some s' ∧
      s'.main = s.main
  /-- The query that suppresses the text is the one submitted last. -/
  standing : ∀ button, fieldText past ≠ "" → Rx.elements (bar.onTap s.searchBar button).2 = [] →
    ∃ query, MainScreen.lastSubmitted (happenings equal past) = some query ∧
      equal query (fieldText past) = true ∧
      MainScreen.Standing platform version (happenings equal past) s.main query

theorem SearchBarVersion.Bisimilar.suppresses {Bar : Type} {bar : SearchBarVersion Bar}
    {R : Bar → Query → Prop} (h : bar.Bisimilar (Query.version equal) R) {platform : Platform}
    {version : Version} {s : SearchScreen Bar}
    (hrun : (SearchScreen.system platform version bar).Run past s) :
    Suppresses platform equal version bar past s := by
  obtain ⟨⟨q, main⟩, hq, hR, hmain⟩ := h.run version hrun
  obtain ⟨rfl, hmainRun⟩ := Query.run_main hq
  obtain rfl : main = s.main := hmain
  have hsubmits : ∀ button, Rx.elements (bar.onTap s.searchBar button).2 =
      if (fieldText past).isEmpty ||
          (MainScreen.lastSubmitted (happenings equal past)).any fun query =>
            equal query (fieldText past) then []
      else [fieldText past] := by
    intro button
    rw [(h.tap _ _ button hR).2, ← @Query.text_after equal past, ← Query.last_after]
    simp only [Query.version, Query.submitted]
    split_ifs <;> rfl
  refine ⟨hsubmits, fun button readings hnone => ?_, fun button htext hnone => ?_⟩
  · refine ⟨⟨(bar.onTap s.searchBar button).1, s.main⟩, ?_, rfl⟩
    rw [SearchScreen.step, SearchScreen.load, hnone]
    rfl
  · rw [hsubmits] at hnone
    have hrepeated : ((fieldText past).isEmpty ||
        (MainScreen.lastSubmitted (happenings equal past)).any fun query =>
          equal query (fieldText past)) = true := by
      by_contra hfalse
      exact absurd ((if_neg hfalse).symm.trans hnone) (by simp)
    rw [Bool.or_eq_true, String.isEmpty_iff, Option.any_eq_true] at hrepeated
    obtain ⟨query, hlast, hequal⟩ := hrepeated.resolve_left htext
    exact ⟨query, hlast, hequal, MainScreen.standing_of_run hmainRun hlast⟩

/-- In every run of either version a tap for a text is suppressed just when the query submitted last
equals it.  That search is under way, or has succeeded and is displayed, or has failed, and then
nothing but another query leads to another try. -/
theorem suppressed_search_stands (platform : Platform) (equal : String → String → Bool)
    (past : List (Input × Readings)) :
    (∀ s, (original platform equal).Run past s →
      Suppresses platform equal .original (SearchBar.version equal) past s) ∧
    ∀ s, (mvvm platform equal).Run past s →
      Suppresses platform equal .mvvm (SearchBarViewModel.version equal) past s :=
  ⟨fun _ hrun => (SearchBar.bisimilar equal).suppresses hrun,
    fun _ hrun => (SearchBarViewModel.bisimilar equal).suppresses hrun⟩

/-- The query has been found: its cells are displayed, and a tap for it again does nothing. -/
theorem suppressed_search_stands_found :
    ∃ s, (original MainScreen.anyQuery (· == ·)).Run
        [(.responded 1 (MainScreen.found ["Rx"]), fun _ => 0),
          (.searchButtonTapped .searchButton, fun _ => 0), (.searchText (some "rx"), fun _ => 0)]
        s ∧
      s.main.handed = [[MainScreen.cell "Rx"]] ∧
      Suppresses MainScreen.anyQuery (· == ·) .original
        (SearchBar.version (· == ·))
        [(.responded 1 (MainScreen.found ["Rx"]), fun _ => 0),
          (.searchButtonTapped .searchButton, fun _ => 0), (.searchText (some "rx"), fun _ => 0)]
        s := by
  have h : ∃ s, (original MainScreen.anyQuery (· == ·)).Run
        [(.responded 1 (MainScreen.found ["Rx"]), fun _ => 0),
          (.searchButtonTapped .searchButton, fun _ => 0), (.searchText (some "rx"), fun _ => 0)]
        s ∧ s.main.handed = [[MainScreen.cell "Rx"]] :=
    ⟨_, .step (.step (.step (original_launched _ _) rfl) rfl) rfl, rfl⟩
  obtain ⟨s, hs, hhanded⟩ := h
  exact ⟨s, hs, hhanded, (suppressed_search_stands _ _ _).1 s hs⟩

/-- The request for `rx` has failed, and tapping search again is suppressed. -/
theorem failed_query_is_suppressed :
    ¬ ∀ (platform : Platform) (equal : String → String → Bool) (past : List (Input × Readings))
        (s : SearchScreen SearchBar) (button : SearchButton),
      (original platform equal).Run past s → fieldText past ≠ "" →
      Rx.elements ((SearchBar.version equal).onTap s.searchBar button).2 = [] →
      MainScreen.submissions (happenings equal past) ∈ s.main.tasks ∨
        ∃ blog, MainScreen.outcome platform (happenings equal past) = some (.ok blog) := by
  intro h
  have hrun : (original MainScreen.anyQuery (· == ·)).Run
      [(.responded 1 ⟨none, none, true⟩, fun _ => 0),
        (.searchButtonTapped .searchButton, fun _ => 0), (.searchText (some "rx"), fun _ => 0)] _ :=
    .step (.step (.step (original_launched _ _) rfl) rfl) rfl
  rcases h _ _ _ _ .searchButton hrun (by decide) rfl with htask | ⟨blog, houtcome⟩
  · exact absurd htask (by decide)
  · have hfailed : some (Except.error SearchNetworkError.networkError) = some (Except.ok blog) :=
      houtcome
    exact absurd hfailed (by simp)

end PracticeSwift.BlogSearch
