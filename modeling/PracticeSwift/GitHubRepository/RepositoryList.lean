import PracticeSwift.Library.Transition
import PracticeSwift.Library.URLSession

/-!
# The repository table

A refresh requests the repositories on a background thread.  When the response arrives there, the
subject `repositories` gets the new list at once, while the reload of the table is only queued on
the main queue; until it runs the table goes by the row count it was last told.  A row is in range
as long as no list arrives that is shorter than that count.
-/

open Transition URLSession

namespace PracticeSwift.GitHubRepository

structure Repository where
  id : Int64
  name : String
  description : String
  stargazersCount : Int64
  language : String

/-- The repository of a dictionary that has all the fields. -/
def Repository.ofDictionary (dic : Json) : Option Repository := do
  let id ← (← dic.field "id").asInt?
  let name ← (← dic.field "name").string?
  let description ← (← dic.field "description").string?
  let stargazersCount ← (← dic.field "stargazers_count").asInt?
  let language ← (← dic.field "language").string?
  return ⟨id, name, description, stargazersCount, language⟩

/-- `json as? [[String: Any]]`, and the empty array where this fails. -/
def dictionaries (data : Data) : List Json :=
  match data with
  | some (.array elements) => if elements.all Json.isObject then elements else []
  | _ => []

/-- The list that `fetchRepository` publishes, if it publishes one. -/
def fetchRepository (result : Result) : Option (List Repository) := do
  let (statusCode, data) ← rxResponse result
  guard (isSuccess statusCode)
  let objects := dictionaries data
  guard (0 < objects.length)
  return objects.filterMap Repository.ofDictionary

/-- The screen: the value of the subject `repositories` (`none` once it has ended), the blocks
queued on the main queue and the row count that the table was told last. -/
structure RepositoryList where
  repositories : Option (List Repository) := some []
  queued : ℕ := 0
  rows : ℕ := 0

inductive Event
  /-- The response to a request arrives on the background thread. -/
  | response (result : Result)
  /-- The next block of the main queue reloads the table. -/
  | reload
  /-- The table asks for a cell. -/
  | cell (row : ℕ)

namespace RepositoryList

/-- `tableView(_:numberOfRowsInSection:)` -/
def numberOfRowsInSection (s : RepositoryList) : ℕ :=
  match s.repositories with
  | some repositories => repositories.length
  | none => 0

/-- `tableView(_:cellForRowAt:)`: the repository of the cell; the outer `none` is the trap of an
index out of range, which no `catch` catches. -/
def cellForRowAt (s : RepositoryList) (row : ℕ) : Option (Option Repository) :=
  match s.repositories with
  | some repositories => (repositories[row]?).map some
  | none => some none

def step (s : RepositoryList) : Event → Option RepositoryList
  | .response result =>
    match fetchRepository result with
    | some newRepositories =>
      some { s with repositories := s.repositories.map fun _ => newRepositories
                    queued := s.queued + 1 }
    | none => some s
  | .reload =>
    if 0 < s.queued then some { s with queued := s.queued - 1, rows := s.numberOfRowsInSection }
    else none
  | .cell row => if row < s.rows then (s.cellForRowAt row).map fun _ => s else none

/-- The runs of the screen from its launch. -/
def system : System RepositoryList Event where
  start s := s = {}
  step s e s' := s.step e = some s'

/-- What a step does to a screen whose subject holds a list. -/
inductive Step (s : RepositoryList) (repositories : List Repository) :
    Event → RepositoryList → Prop
  | published {result : Result} {newRepositories : List Repository}
      (fetched : fetchRepository result = some newRepositories) :
      Step s repositories (.response result)
        { s with repositories := some newRepositories, queued := s.queued + 1 }
  | reload :
      Step s repositories .reload
        { repositories := some repositories, queued := s.queued - 1, rows := repositories.length }
  | unchanged (e : Event) : Step s repositories e s

theorem step_cases {s s' : RepositoryList} {e : Event} {repositories : List Repository}
    (hvalue : s.repositories = some repositories) (h : s.step e = some s') :
    Step s repositories e s' := by
  cases e with
  | response result =>
    simp only [step, hvalue, Option.map_some] at h
    split at h <;> obtain rfl := Option.some.inj h
    · exact .published ‹_›
    · exact .unchanged _
  | reload =>
    simp only [step, numberOfRowsInSection, hvalue] at h
    split_ifs at h
    obtain rfl := Option.some.inj h
    exact .reload
  | cell row =>
    simp only [step] at h
    split_ifs at h
    obtain ⟨_, -, rfl⟩ := Option.map_eq_some_iff.1 h
    exact .unchanged _

/-- The subject always holds a list. -/
theorem exists_repositories {past : List Event} {s : RepositoryList} (h : system.Run past s) :
    ∃ repositories, s.repositories = some repositories := by
  apply h.preserves (I := fun s => ∃ repositories, s.repositories = some repositories)
  · rintro _ rfl
    exact ⟨[], rfl⟩
  · rintro s e s' ⟨repositories, hvalue⟩ hstep
    cases step_cases hvalue hstep with
    | @published _ newRepositories => exact ⟨newRepositories, rfl⟩
    | reload => exact ⟨repositories, rfl⟩
    | unchanged => exact ⟨repositories, hvalue⟩

/-- Every cell the table may ask for is there. -/
def InRange (s : RepositoryList) : Prop :=
  ∀ row < s.rows, (s.cellForRowAt row).isSome

theorem inRange_iff {s : RepositoryList} {repositories : List Repository}
    (hvalue : s.repositories = some repositories) : InRange s ↔ s.rows ≤ repositories.length := by
  simp only [InRange, cellForRowAt, hvalue, Option.isSome_map, isSome_getElem?]
  constructor
  · intro h
    by_contra hlt
    exact lt_irrefl _ (h repositories.length (by omega))
  · intro h row hrow
    omega

/-- No list published so far was shorter than the row count at that moment. -/
def NeverShorter (past : List Event) : Prop :=
  ∀ old s result newRepositories, .response result :: old <:+ past → system.Run old s →
    fetchRepository result = some newRepositories → s.rows ≤ newRepositories.length

theorem NeverShorter.earlier {past old : List Event} (h : NeverShorter past)
    (hold : old <:+ past) : NeverShorter old :=
  fun _ _ _ _ hsuffix => h _ _ _ _ (hsuffix.trans hold)

theorem inRange_of_neverShorter {past : List Event} {s : RepositoryList}
    (h : system.Run past s) (hpast : NeverShorter past) : InRange s := by
  induction h with
  | start h =>
    obtain rfl := h
    exact fun row hrow => absurd hrow (Nat.not_lt_zero row)
  | @step past s s' e h hstep ih =>
    obtain ⟨repositories, hvalue⟩ := exists_repositories h
    have hrows := (inRange_iff hvalue).1 (ih (hpast.earlier (List.suffix_cons e past)))
    cases step_cases hvalue hstep with
    | @published result newRepositories fetched =>
      have hle : s.rows ≤ newRepositories.length :=
        hpast _ _ _ _ (List.suffix_refl _) h fetched
      exact (inRange_iff rfl).2 hle
    | reload =>
      have hle : repositories.length ≤ repositories.length := le_rfl
      exact (inRange_iff rfl).2 hle
    | unchanged => exact (inRange_iff hvalue).2 hrows

/-- In every state of a run the cells the table may ask for are in range exactly when no list that
arrived was shorter than the row count the table had last been told. -/
theorem inRange_iff_neverShorter (past : List Event) :
    (∀ old s₀, old <:+ past → system.Run old s₀ → InRange s₀) ↔ NeverShorter past := by
  constructor
  · intro hall old s₀ result newRepositories hold hrun fetched
    obtain ⟨repositories, hvalue⟩ := exists_repositories hrun
    have hstep : s₀.step (.response result) = some
        { s₀ with repositories := some newRepositories, queued := s₀.queued + 1 } := by
      simp only [step, fetched, hvalue, Option.map_some]
    have hin := hall _ _ hold (hrun.step hstep)
    rwa [inRange_iff rfl] at hin
  · intro hpast old s₀ hold hrun
    exact inRange_of_neverShorter hrun (hpast.earlier hold)

/-- A dictionary with all the fields. -/
def dictionary (name : String) : Json :=
  .object [("id", .number 1), ("name", .string name), ("description", .string "library"),
    ("stargazers_count", .number 5), ("language", .string "Swift")]

/-- The response with the given dictionaries. -/
def success (objects : List Json) : Result :=
  { data := some (some (.array objects)), response := some (.http 200) }

/-- Two repositories, a reload, and one repository: the second row traps. -/
theorem row_out_of_range :
    ¬ ∀ (past : List Event) (s : RepositoryList), system.Run past s → InRange s := by
  intro h
  have hrun : system.Run [.response (success [dictionary "swift"]), .reload,
      .response (success [dictionary "swift", dictionary "swift-nio"])] _ :=
    .step (.step (.step (.start rfl) rfl) rfl) rfl
  have hcell := h _ _ hrun 1 (by decide)
  revert hcell
  decide

end RepositoryList

end PracticeSwift.GitHubRepository
