import Mathlib.Data.List.Forall2
import Mathlib.Data.Option.Basic
import PracticeSwift.GitHubRepository.RepositoryList

/-!
# The end of a refresh

Pulling the table down starts the spinner and a request.  The spinner is ended by the subscriber,
after the new list has been published and the table reloaded, so only a response that gets through
both filters ends it; the pipeline has no handler for an error or for its completion.
-/

open URLSession

namespace PracticeSwift.GitHubRepository

/-- What the subscriber of `fetchRepository` does, in order. -/
inductive Effect
  /-- `repositories.onNext(newRepositories)` -/
  | onNext (newRepositories : List Repository)
  /-- `tableView.reloadData()` -/
  | reloadData
  /-- `refreshControl?.endRefreshing()` -/
  | endRefreshing

/-- The effects of a request with this result.  An error of the transport, like an element that a
filter drops, reaches no handler. -/
def effects (result : Result) : List Effect :=
  match fetchRepository result with
  | some newRepositories => [.onNext newRepositories, .reloadData, .endRefreshing]
  | none => []

/-! ## Complete objects -/

/-- The object has all the fields of the repository. -/
structure Describes (dic : Json) (repository : Repository) : Prop where
  id : ∃ value, dic.field "id" = some value ∧ value.asInt? = some repository.id
  name : dic.field "name" = some (.string repository.name)
  description : dic.field "description" = some (.string repository.description)
  stargazersCount :
    ∃ value, dic.field "stargazers_count" = some value ∧
      value.asInt? = some repository.stargazersCount
  language : dic.field "language" = some (.string repository.language)

theorem ofDictionary_eq_some_iff (dic : Json) (repository : Repository) :
    Repository.ofDictionary dic = some repository ↔ Describes dic repository := by
  simp only [Repository.ofDictionary, Option.bind_eq_bind, Option.bind_eq_some_iff,
    Json.string?_eq_some_iff, Option.pure_def, Option.some.injEq]
  constructor
  · rintro ⟨_, hid, id, hidValue, _, hname, name, rfl, _, hdescription, description, rfl,
      _, hcount, count, hcountValue, _, hlanguage, language, rfl, rfl⟩
    exact ⟨⟨_, hid, hidValue⟩, hname, hdescription, ⟨_, hcount, hcountValue⟩, hlanguage⟩
  · rintro ⟨⟨_, hid, hidValue⟩, hname, hdescription, ⟨_, hcount, hcountValue⟩, hlanguage⟩
    exact ⟨_, hid, _, hidValue, _, hname, _, rfl, _, hdescription, _, rfl, _, hcount, _,
      hcountValue, _, hlanguage, _, rfl, rfl⟩

/-- The objects that a repository is made of. -/
def IsComplete (dic : Json) : Prop := ∃ repository, Describes dic repository

instance : DecidablePred IsComplete := fun dic =>
  decidable_of_iff ((Repository.ofDictionary dic).isSome = true) <| by
    simp only [Option.isSome_iff_exists, ofDictionary_eq_some_iff, IsComplete]

/-- The repositories are those of the complete objects, in order. -/
theorem describes_filterMap (objects : List Json) :
    List.Forall₂ Describes (objects.filter IsComplete)
      (objects.filterMap Repository.ofDictionary) := by
  induction objects with
  | nil => exact .nil
  | cons dic objects ih =>
    cases h : Repository.ofDictionary dic with
    | none =>
      have hnot : ¬ IsComplete dic := by
        rintro ⟨repository, hrepository⟩
        simp [(ofDictionary_eq_some_iff dic repository).2 hrepository] at h
      simpa [h, hnot] using ih
    | some repository =>
      have hdescribes := (ofDictionary_eq_some_iff dic repository).1 h
      have hcomplete : IsComplete dic := ⟨repository, hdescribes⟩
      simpa [h, hcomplete] using And.intro hdescribes ih

/-! ## Which refreshes end -/

/-- The result is a response of success whose body is a non-empty array of these objects. -/
structure Lists (result : Result) (objects : List Json) : Prop where
  response : ∃ statusCode, result.response = some (.http statusCode) ∧
    200 ≤ statusCode ∧ statusCode < 300
  data : result.data = some (some (.array objects))
  ne_nil : objects ≠ []
  isObject : ∀ dic ∈ objects, dic.isObject

/-- The elements of an array of objects; everything else is taken for an empty array. -/
theorem dictionaries_eq_of_ne_nil {data : Data} (h : dictionaries data ≠ []) :
    data = some (.array (dictionaries data)) ∧ ∀ dic ∈ dictionaries data, dic.isObject := by
  unfold dictionaries at h ⊢
  split at h
  · split_ifs at h with hall
    · rw [if_pos hall]
      exact ⟨rfl, List.all_eq_true.1 hall⟩
    · exact absurd rfl h
  · exact absurd rfl h

theorem fetchRepository_eq_some_iff (result : Result) (newRepositories : List Repository) :
    fetchRepository result = some newRepositories ↔
      ∃ objects, Lists result objects ∧
        objects.filterMap Repository.ofDictionary = newRepositories := by
  simp only [fetchRepository, Option.bind_eq_bind, Option.bind_eq_some_iff, Prod.exists,
    rxResponse_eq_some_iff, Option.guard_eq_some', isSuccess_iff, exists_const, Option.pure_def,
    Option.some.injEq, List.length_pos_iff]
  constructor
  · rintro ⟨statusCode, data, ⟨hresponse, hdata⟩, hstatus, hne, rfl⟩
    obtain ⟨hself, hall⟩ := dictionaries_eq_of_ne_nil hne
    have hbody : result.data = some (some (.array (dictionaries data))) :=
      hdata.trans (congrArg some hself)
    exact ⟨_, ⟨⟨statusCode, hresponse, hstatus⟩, hbody, hne, hall⟩, rfl⟩
  · rintro ⟨objects, ⟨⟨statusCode, hresponse, hstatus⟩, hdata, hne, hall⟩, rfl⟩
    have hobjects : dictionaries (some (.array objects)) = objects :=
      if_pos (List.all_eq_true.2 hall)
    exact ⟨statusCode, _, ⟨hresponse, hdata⟩, hstatus, by rwa [hobjects], by rw [hobjects]⟩

/-- What a refresh is for: it ends the spinner, and a list of objects is published before that as
the list of the complete ones. -/
structure Refreshes (result : Result) : Prop where
  ends : .endRefreshing ∈ effects result
  publishes : ∀ objects, Lists result objects → ∃ newRepositories later,
    effects result = .onNext newRepositories :: later ∧ .endRefreshing ∈ later ∧
      List.Forall₂ Describes (objects.filter IsComplete) newRepositories

/-- The spinner ends exactly after a response of success with a non-empty array of objects, and the
right list has been published then. -/
theorem refreshes_iff_lists (result : Result) :
    Refreshes result ↔ ∃ objects, Lists result objects := by
  constructor
  · intro h
    cases hfetch : fetchRepository result with
    | none => simpa [effects, hfetch] using h.ends
    | some newRepositories =>
      obtain ⟨objects, hlists, -⟩ := (fetchRepository_eq_some_iff _ _).1 hfetch
      exact ⟨objects, hlists⟩
  · rintro ⟨objects, hlists⟩
    have hfetch : ∀ {objects}, Lists result objects → _ := fun hlists =>
      (fetchRepository_eq_some_iff result _).2 ⟨_, hlists, rfl⟩
    refine ⟨by simp [effects, hfetch hlists], fun objects' hlists' => ?_⟩
    exact ⟨_, _, by rw [effects, hfetch hlists'], by simp, describes_filterMap objects'⟩

/-- After a request that fails the spinner goes on. -/
theorem spinner_goes_on : ¬ ∀ result : Result, Refreshes result := by
  intro h
  have hends := (h { data := none, response := none, error := true }).ends
  revert hends
  exact List.not_mem_nil

end PracticeSwift.GitHubRepository
