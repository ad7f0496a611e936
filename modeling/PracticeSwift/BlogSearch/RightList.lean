import PracticeSwift.BlogSearch.MainScreen

/-!
# The right list

The streams of the main screen, operator by operator, do what `display`, `expectedAlerts` and
`expectedRequests` say of a history: responses to superseded searches are dropped, a failure is
an element like any other and ends nothing, and the list handed over last is the latest successful
result in the order chosen last.
-/

open Transition URLSession

namespace PracticeSwift.BlogSearch.MainScreen

section

variable (platform : Platform) {s : MainScreen} {d : Display} {alerts : List Alert}
  (readings : Readings)

/-- What reaches the list view and the user: the operators behind `blogResult` hold the display,
the list view has its list, and these alerts have been raised. -/
structure Shows (d : Display) (alerts : List Alert) (s : MainScreen) : Prop where
  combined : s.combined =
    { left := some d.type, right := d.blog.map (MainModel.getBlogListCellData platform) }
  merged : s.merged.disposed = false
  list : s.handed.getLast? = d.list platform
  nothing : d.blog = none → s.handed = []
  alerts : s.alerts = alerts

/-! ## The branches -/

theorem onAlert_next (h : s.merged.disposed = false) (alert : Alert) :
    onAlert s (.next alert) = { s with alerts := s.alerts ++ [alert] } := by
  simp only [onAlert, Rx.Merge.on_next h]
  rfl

theorem onBlogResult_error (h : s.merged.disposed = false) (error : SearchNetworkError) :
    onBlogResult (Version.mvvm.functions platform) readings s (.next (.error error)) =
      { s with
        alerts := s.alerts ++ [errorAlert (error.localizedDescription platform)] } :=
  onAlert_next h _

theorem onBlogResult_ok {type : AlertAction} {right : Option (List BlogListCellData)}
    (h : s.combined = { left := some type, right }) (blog : DKBlog) :
    onBlogResult (Version.mvvm.functions platform) readings s (.next (.ok blog)) =
      { s with
        combined :=
          { left := some type, right := some (MainModel.getBlogListCellData platform blog) }
        handed := s.handed ++
          [(MainModel.sort platform type (MainModel.getBlogListCellData platform blog) readings).1] } := by
  have halive : s.combined.Alive := by
    rw [h]
    exact ⟨rfl, rfl, rfl⟩
  show onCellData _ readings s (.next (MainModel.getBlogListCellData platform blog)) = _
  rw [onCellData, Rx.CombineLatest.onRight_next halive, h]
  rfl

theorem onSortedType_next {left : Option AlertAction} {right : Option (List BlogListCellData)}
    (h : s.combined = { left, right }) (type : AlertAction) :
    onSortedType (Version.mvvm.functions platform) readings s (.next type) =
      { s with
        combined := { left := some type, right }
        handed := s.handed ++
          (right.map fun data => (MainModel.sort platform type data readings).1).toList } := by
  have halive : s.combined.Alive := by
    rw [h]
    exact ⟨rfl, rfl, rfl⟩
  rw [onSortedType, Rx.CombineLatest.onLeft_next halive, h]
  cases right <;> rfl

/-- A superseded search changes nothing. -/
theorem onSearch_of_ne (f : Functions) {search : ℕ} (h : search ≠ s.blogResult.latest)
    (events : Rx.Sequence SearchResult) : onSearch f readings s search events = s := by
  rw [onSearch, Rx.FlatMapLatest.onInners_of_ne h]
  rfl

/-- The latest search brings its result. -/
theorem onSearch_just (f : Functions) (h : s.blogResult.Alive) (result : SearchResult) :
    onSearch f readings s s.blogResult.latest (.just result) =
      onBlogResult f readings { s with blogResult := { s.blogResult with hasLatest := false } }
        (.next result) := by
  rw [onSearch, Rx.FlatMapLatest.onInners_just h]
  rfl

/-! ## What is shown -/

variable {platform}

theorem Shows.blog (h : Shows platform d alerts s) (blog : DKBlog) :
    Shows platform { d with blog := some blog, readings } alerts
      (onBlogResult (Version.mvvm.functions platform) readings s (.next (.ok blog))) := by
  rw [onBlogResult_ok platform readings h.combined]
  exact ⟨rfl, h.merged, List.getLast?_concat, nofun, h.alerts⟩

theorem Shows.error (h : Shows platform d alerts s) (error : SearchNetworkError) :
    Shows platform d (alerts ++ [errorAlert (error.localizedDescription platform)])
      (onBlogResult (Version.mvvm.functions platform) readings s (.next (.error error))) := by
  rw [onBlogResult_error platform readings h.merged]
  exact ⟨h.combined, h.merged, h.list, h.nothing, congrArg (· ++ _) h.alerts⟩

theorem Shows.alert (h : Shows platform d alerts s) (alert : Alert) :
    Shows platform d (alerts ++ [alert]) (onAlert s (.next alert)) := by
  rw [onAlert_next h.merged]
  exact ⟨h.combined, h.merged, h.list, h.nothing, congrArg (· ++ _) h.alerts⟩

theorem Shows.type (h : Shows platform d alerts s) (type : AlertAction) :
    Shows platform { d with type, readings } alerts
      (onSortedType (Version.mvvm.functions platform) readings s (.next type)) := by
  rw [onSortedType_next platform readings h.combined]
  refine ⟨rfl, h.merged, ?_, fun hblog => ?_, h.alerts⟩
  · have hlist := h.list
    cases hblog : d.blog with
    | none =>
      rw [Display.list, hblog] at hlist
      exact (congrArg List.getLast? (List.append_nil s.handed)).trans hlist
    | some blog => exact List.getLast?_concat
  · have hblog : d.blog = none := hblog
    rw [hblog]
    exact (List.append_nil s.handed).trans (h.nothing hblog)

end

/-! ## Runs -/

section

variable {platform : Platform} {past : List Happening} {s s' : MainScreen}

/-- The state that a history leads to. -/
structure Tracks (platform : Platform) (past : List Happening) (s : MainScreen) : Prop where
  latest : s.blogResult.latest = submissions past
  alive : s.blogResult.Alive
  shows : Shows platform (display platform past) (expectedAlerts platform past) s
  requests : s.requests = expectedRequests platform past

/-- A submission supersedes the searches before it and starts its own, or fails at once. -/
theorem step_submitted (h : s.blogResult.Alive) (query : String) (readings : Readings) :
    MainScreen.step platform (Version.mvvm.functions platform) s (.submitted query, readings) =
      some (match platform.queryURL query with
        | none =>
          onBlogResult (Version.mvvm.functions platform) readings
            { s with blogResult :=
                { s.blogResult with latest := s.blogResult.latest + 1, hasLatest := false } }
            (.next (.error .invalidJSON))
        | some url =>
          { s with
            blogResult := { s.blogResult with latest := s.blogResult.latest + 1, hasLatest := true }
            tasks := s.tasks ++ [s.blogResult.latest + 1]
            requests := s.requests ++ [url] }) := by
  simp only [MainScreen.step, Rx.FlatMapLatest.onSource_next h, List.foldl_nil]
  have hsearch : (Version.mvvm.functions platform).searchBlog query = searchBlog platform query := rfl
  simp only [hsearch, searchBlog]
  cases platform.queryURL query with
  | none =>
    refine congrArg some ?_
    exact onSearch_just (s := { s with blogResult :=
      { s.blogResult with latest := s.blogResult.latest + 1, hasLatest := true } })
      readings _ ⟨h.stopped, h.disposed⟩ _
  | some url => rfl

theorem mem_tasks_of_step {f : Functions} {search : ℕ} {result : Result} {readings : Readings}
    (hstep : MainScreen.step platform f s (.responded search result, readings) = some s') :
    search ∈ s.tasks := by
  simp only [MainScreen.step] at hstep
  split_ifs at hstep with htask
  exact htask

/-- The response to the latest search brings its result. -/
theorem step_responded_latest (h : s.blogResult.Alive) (htask : s.blogResult.latest ∈ s.tasks)
    (result : Result) (readings : Readings) :
    MainScreen.step platform (Version.mvvm.functions platform) s
        (.responded s.blogResult.latest result, readings) =
      some (onBlogResult (Version.mvvm.functions platform) readings
        { s with
          blogResult := { s.blogResult with hasLatest := false }
          tasks := s.tasks.filter fun task => task ≠ s.blogResult.latest }
        (.next (searchResult platform result))) := by
  simp only [MainScreen.step, if_pos htask, searchEvents_eq]
  exact congrArg some (onSearch_just (s := { s with tasks := s.tasks.filter fun task => task ≠
    s.blogResult.latest }) readings (Version.mvvm.functions platform) h _)

/-- The response to a superseded search is only taken note of. -/
theorem step_responded_superseded {f : Functions} {search : ℕ} (htask : search ∈ s.tasks)
    (hne : search ≠ s.blogResult.latest) (result : Result) (readings : Readings) :
    MainScreen.step platform f s (.responded search result, readings) =
      some { s with tasks := s.tasks.filter fun task => task ≠ search } := by
  simp only [MainScreen.step, if_pos htask]
  exact congrArg some (onSearch_of_ne (s := { s with tasks := s.tasks.filter fun task => task ≠
    search }) readings f hne _)

/-- Nothing of what is shown depends on the searches under way. -/
theorem Shows.of_eq {d : Display} {alerts : List Alert} (h : Shows platform d alerts s)
    (hcombined : s'.combined = s.combined) (hmerged : s'.merged = s.merged)
    (hhanded : s'.handed = s.handed) (halerts : s'.alerts = s.alerts) :
    Shows platform d alerts s' where
  combined := hcombined.trans h.combined
  merged := hmerged ▸ h.merged
  list := hhanded ▸ h.list
  nothing hblog := hhanded.trans (h.nothing hblog)
  alerts := halerts.trans h.alerts

/-- The result that an event brings is shown, or raises its alert. -/
theorem Tracks.delivered {e : Event} {readings : Readings} {result : SearchResult}
    (hlatest : s.blogResult.latest = submissions ((e, readings) :: past))
    (halive : s.blogResult.Alive)
    (hshows : Shows platform (display platform past) (expectedAlerts platform past) s)
    (hrequests : s.requests = expectedRequests platform ((e, readings) :: past))
    (harrived : arrived platform past e = some result) :
    Tracks platform ((e, readings) :: past)
      (onBlogResult (Version.mvvm.functions platform) readings s (.next result)) := by
  cases result with
  | error error =>
    have hdisplay : display platform ((e, readings) :: past) = display platform past := by
      simp [display, harrived]
    have halerts : expectedAlerts platform ((e, readings) :: past) =
        expectedAlerts platform past ++
          [errorAlert (error.localizedDescription platform)] := by
      simp [expectedAlerts, raised, harrived]
    have hshows' := hshows.error readings error
    rw [← halerts, ← hdisplay] at hshows'
    rw [onBlogResult_error _ _ hshows.merged] at hshows' ⊢
    exact ⟨hlatest, halive, hshows', hrequests⟩
  | ok blog =>
    have hdisplay : display platform ((e, readings) :: past) =
        { display platform past with blog := some blog, readings } := by
      simp [display, harrived]
    have halerts : expectedAlerts platform ((e, readings) :: past) =
        expectedAlerts platform past := by
      simp [expectedAlerts, raised, harrived]
    have hshows' := hshows.blog readings blog
    rw [← halerts, ← hdisplay] at hshows'
    rw [onBlogResult_ok _ _ hshows.combined] at hshows' ⊢
    exact ⟨hlatest, halive, hshows', hrequests⟩

theorem Tracks.submitted (h : Tracks platform past s) (query : String) (readings : Readings)
    (hstep : MainScreen.step platform (Version.mvvm.functions platform) s
      (.submitted query, readings) = some s') :
    Tracks platform ((.submitted query, readings) :: past) s' := by
  rw [step_submitted h.alive] at hstep
  obtain rfl := Option.some.inj hstep
  have hlatest : s.blogResult.latest + 1 = submissions past + 1 := congrArg (· + 1) h.latest
  cases hurl : platform.queryURL query with
  | none =>
    have hrequests : s.requests =
        expectedRequests platform ((.submitted query, readings) :: past) := by
      simp [expectedRequests, hurl, h.requests]
    refine Tracks.delivered hlatest ⟨h.alive.stopped, h.alive.disposed⟩ ?_ hrequests ?_
    · exact h.shows.of_eq rfl rfl rfl rfl
    · simp [arrived, hurl]
  | some url =>
    have harrived : arrived platform past (.submitted query) = none := by
      simp [arrived, hurl]
    refine ⟨hlatest, ⟨h.alive.stopped, h.alive.disposed⟩, ?_, ?_⟩
    · have hshows : Shows platform (display platform past) (expectedAlerts platform past ++ []) _ :=
        (List.append_nil (expectedAlerts platform past)).symm ▸ h.shows
      simp only [display, expectedAlerts, raised, harrived]
      exact hshows.of_eq rfl rfl rfl rfl
    · simp [expectedRequests, hurl, h.requests]

theorem Tracks.responded (h : Tracks platform past s) {search : ℕ} {result : Result}
    (readings : Readings)
    (hstep : MainScreen.step platform (Version.mvvm.functions platform) s
      (.responded search result, readings) = some s') :
    Tracks platform ((.responded search result, readings) :: past) s' := by
  have htask := mem_tasks_of_step hstep
  have htasks : Shows platform (display platform past) (expectedAlerts platform past)
      { s with tasks := s.tasks.filter fun task => task ≠ search } := h.shows.of_eq rfl rfl rfl rfl
  by_cases hlatest : search = submissions past
  · obtain rfl : search = s.blogResult.latest := hlatest.trans h.latest.symm
    rw [step_responded_latest h.alive htask] at hstep
    obtain rfl := Option.some.inj hstep
    refine Tracks.delivered h.latest ⟨h.alive.stopped, h.alive.disposed⟩ ?_ h.requests ?_
    · exact htasks.of_eq rfl rfl rfl rfl
    · simp [arrived, hlatest]
  · rw [step_responded_superseded htask (h.latest ▸ hlatest)] at hstep
    obtain rfl := Option.some.inj hstep
    have harrived : arrived platform past (.responded search result) = none := by
      simp [arrived, hlatest]
    refine ⟨h.latest, h.alive, ?_, h.requests⟩
    simp only [display, expectedAlerts, raised, harrived, List.append_nil]
    exact htasks

theorem Tracks.step (h : Tracks platform past s) {e : Happening}
    (hstep : MainScreen.step platform (Version.mvvm.functions platform) s e = some s') :
    Tracks platform (e :: past) s' := by
  obtain ⟨e, readings⟩ := e
  cases e with
  | submitted query => exact h.submitted query readings hstep
  | responded search result => exact h.responded readings hstep
  | alertAction action =>
    obtain rfl := Option.some.inj hstep
    have halerts : expectedAlerts platform ((.alertAction action, readings) :: past) =
        expectedAlerts platform past := List.append_nil _
    cases action with
    | title => exact ⟨h.latest, h.alive, halerts ▸ h.shows.type readings .title, h.requests⟩
    | datetime => exact ⟨h.latest, h.alive, halerts ▸ h.shows.type readings .datetime, h.requests⟩
    | cancel => exact ⟨h.latest, h.alive, halerts ▸ h.shows, h.requests⟩
    | confirm => exact ⟨h.latest, h.alive, halerts ▸ h.shows, h.requests⟩
  | sortButtonTapped =>
    obtain rfl := Option.some.inj hstep
    exact ⟨h.latest, h.alive, h.shows.alert (sortSheet), h.requests⟩

/-- An event that brings a result hands it to the two branches and changes nothing else but the
searches under way. -/
theorem Tracks.exists_onBlogResult (h : Tracks platform past s) {e : Event} {readings : Readings}
    {result : SearchResult} (harrived : arrived platform past e = some result)
    (hstep : MainScreen.step platform (Version.mvvm.functions platform) s (e, readings) = some s') :
    ∃ blogResult tasks, s' = onBlogResult (Version.mvvm.functions platform) readings
      { s with blogResult, tasks } (.next result) := by
  cases e with
  | submitted query =>
    rw [step_submitted h.alive] at hstep
    obtain rfl := Option.some.inj hstep
    cases hurl : platform.queryURL query with
    | none =>
      simp only [arrived, hurl, Option.some.injEq] at harrived
      subst harrived
      exact ⟨_, s.tasks, rfl⟩
    | some url => simp [arrived, hurl] at harrived
  | responded search result =>
    simp only [arrived] at harrived
    split_ifs at harrived with hlatest
    obtain rfl := Option.some.inj harrived
    have htask := mem_tasks_of_step hstep
    obtain rfl : search = s.blogResult.latest := hlatest.trans h.latest.symm
    rw [step_responded_latest h.alive htask] at hstep
    obtain rfl := Option.some.inj hstep
    exact ⟨_, _, rfl⟩
  | alertAction => exact absurd harrived nofun
  | sortButtonTapped => exact absurd harrived nofun

theorem tracks_of_run {version : Version} (h : (system platform version).Run past s) :
    Tracks platform past s := by
  apply h.invariant
  · rintro _ ⟨readings, rfl⟩
    rw [Version.functions_eq]
    rw [start, onSortedType_next platform readings rfl]
    exact ⟨rfl, ⟨rfl, rfl⟩, ⟨rfl, rfl, rfl, fun _ => rfl, rfl⟩, rfl⟩
  · intro past s e s' _ hs hstep
    have hstep : MainScreen.step platform (version.functions platform) s e = some s' := hstep
    rw [Version.functions_eq] at hstep
    exact hs.step hstep

/-- The list view shows the right list, and the screen goes on serving. -/
structure ShowsRightList (platform : Platform) (version : Version) (past : List Happening)
    (s : MainScreen) : Prop where
  /-- The last list handed over is the latest result that counts, in the order chosen last. -/
  list : s.handed.getLast? = (display platform past).list platform
  /-- Without a success nothing is handed over. -/
  nothing : (display platform past).blog = none → s.handed = []
  /-- Every failure that counts has raised its alert, every tap on the sort button its sheet. -/
  alerts : s.alerts = expectedAlerts platform past
  requests : s.requests = expectedRequests platform past
  superseded : ∀ search result readings s', search ≠ submissions past →
    step platform (version.functions platform) s (.responded search result, readings) = some s' →
    s' = { s with tasks := s.tasks.filter fun task => task ≠ search }
  failure : ∀ e readings s' error, arrived platform past e = some (.error error) →
    step platform (version.functions platform) s (e, readings) = some s' →
    s'.handed = s.handed ∧
      s'.alerts = s.alerts ++ [errorAlert (error.localizedDescription platform)]
  dismissed : ∀ action readings s', action = .cancel ∨ action = .confirm →
    step platform (version.functions platform) s (.alertAction action, readings) = some s' → s' = s
  /-- Every submission is served; one that makes a URL starts a request, whose response will
  count. -/
  served : ∀ query readings, ∃ s',
    step platform (version.functions platform) s (.submitted query, readings) = some s' ∧
      ∀ url, platform.queryURL query = some url →
        s'.requests = s.requests ++ [url] ∧ submissions past + 1 ∈ s'.tasks

/-- In every run of either version the screen shows the right list. -/
theorem shows_right_list (platform : Platform) (version : Version) {past : List Happening}
    {s : MainScreen} (h : (system platform version).Run past s) :
    ShowsRightList platform version past s := by
  have hs := tracks_of_run h
  refine ⟨hs.shows.list, hs.shows.nothing, hs.shows.alerts, hs.requests, ?_, ?_, ?_, ?_⟩
  · intro search result readings s' hne hstep
    rw [step_responded_superseded (mem_tasks_of_step hstep) (hs.latest ▸ hne)] at hstep
    exact (Option.some.inj hstep).symm
  · intro e readings s' error harrived hstep
    rw [Version.functions_eq] at hstep
    obtain ⟨blogResult, tasks, rfl⟩ := hs.exists_onBlogResult harrived hstep
    rw [onBlogResult_error (s := { s with blogResult, tasks }) _ _ hs.shows.merged]
    exact ⟨rfl, rfl⟩
  · rintro action readings s' (rfl | rfl) hstep
    all_goals
      rw [Version.functions_eq] at hstep
      exact (Option.some.inj hstep).symm
  · intro query readings
    rw [Version.functions_eq, step_submitted hs.alive, ← hs.latest]
    refine ⟨_, rfl, fun url hurl => ?_⟩
    rw [hurl]
    exact ⟨rfl, List.mem_append_right _ (List.mem_singleton.2 rfl)⟩

/-- A document of a response. -/
def document (title : String) : Json := .object [("title", .string title)]

/-- A response with documents of these titles. -/
def found (titles : List String) : Result where
  data := some (some (.object [("documents", .array (titles.map document))]))
  response := some (.http 200)

/-- What is shown of a document with this title. -/
def cell (title : String) : BlogListCellData :=
  { thumbnailURL := none, name := none, title := some title, datetime := none }

/-- Two searches, the second of which is answered first: its documents stay, sorted by title. -/
theorem shows_right_list_late_response :
    ∃ s, (system anyQuery .original).Run
        [(.responded 1 (found ["Old"]), fun _ => 0),
          (.responded 2 (found ["Swift", "Rx"]), fun _ => 0),
          (.submitted "rx", fun _ => 0), (.submitted "old", fun _ => 0)] s ∧
      s.handed.getLast? = some [cell "Rx", cell "Swift"] := by
  have hrun : (system anyQuery .original).Run
      [(.responded 1 (found ["Old"]), fun _ => 0),
        (.responded 2 (found ["Swift", "Rx"]), fun _ => 0),
        (.submitted "rx", fun _ => 0), (.submitted "old", fun _ => 0)] _ :=
    .step (.step (.step (.step (.start ⟨fun _ => 0, rfl⟩) rfl) rfl) rfl) rfl
  exact ⟨_, hrun, (shows_right_list _ _ hrun).list.trans rfl⟩

end

end PracticeSwift.BlogSearch.MainScreen
