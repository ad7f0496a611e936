import PracticeSwift.Library.URLSession

/-!
# The news list

`WebService.getArticles` hands the result of its data task to a completion closure, and the table
controller shows the articles it is given.  The first guard of the handler lets through the results
that have an error and reports the others as failures, so that no response of success is ever
shown.
-/

open URLSession

namespace PracticeSwift.NewsList

structure Article where
  title : String
  description : String
  deriving DecidableEq

structure ArticleList where
  articles : List Article

def Article.decode (json : Json) : Option Article := do
  let title ← (← json.field "title").string?
  let description ← (← json.field "description").string?
  return ⟨title, description⟩

def ArticleList.decode (json : Json) : Option ArticleList := do
  let articles ← (← json.field "articles").array? Article.decode
  return ⟨articles⟩

/-- `try? JSONDecoder().decode(ArticleList.self, from: data)` -/
def decodeArticleList (data : Data) : Option ArticleList := data.bind ArticleList.decode

namespace WebService

/-- What the handler of the data task does: the arguments `completion` is called with, in order,
and whether a `nil` is unwrapped by force. -/
structure Handling where
  completions : List (Option (List Article)) := []
  trapped : Bool := false
  deriving DecidableEq

/-- `getArticles(url:completion:)`, from the moment its data task has a result. -/
def getArticles (result : Result) : Handling :=
  -- `guard error != nil` leaves when there is no error.
  if !result.error then { completions := [none] }
  else match result.data with
    | none => {}
    | some articleData =>
      match decodeArticleList articleData with
      | none => { trapped := true }
      | some articleList => { completions := [some articleList.articles] }

end WebService

/-! ## The table -/

structure ArticleListViewModel where
  articles : List Article

namespace ArticleListViewModel

def numberOfSections (_ : ArticleListViewModel) : ℕ := 1

def numberOfRowInSection (vm : ArticleListViewModel) (_ : ℕ) : ℕ := vm.articles.length

/-- `none` is the trap of an index out of range. -/
def articleAtIndex (vm : ArticleListViewModel) (index : ℕ) : Option Article := vm.articles[index]?

end ArticleListViewModel

/-- The texts of `titleLabel` and `descriptionLabel`. -/
structure ArticleTableViewCell where
  title : String
  description : String
  deriving DecidableEq

def ArticleTableViewCell.of (article : Article) : ArticleTableViewCell :=
  ⟨article.title, article.description⟩

structure NewsListTableViewController where
  articleListVM : Option ArticleListViewModel := none

namespace NewsListTableViewController

/-- The closure that `setup` passes for `completion`. -/
def completion (s : NewsListTableViewController) :
    Option (List Article) → NewsListTableViewController
  | none => s
  | some articles => { s with articleListVM := some ⟨articles⟩ }

def numberOfSections (s : NewsListTableViewController) : ℕ :=
  match s.articleListVM with
  | none => 0
  | some vm => vm.numberOfSections

/-- `tableView(_:numberOfRowsInSection:)`; `none` is the trap of a missing view model. -/
def numberOfRowsInSection (s : NewsListTableViewController) (inSection : ℕ) : Option ℕ :=
  s.articleListVM.map fun vm => vm.numberOfRowInSection inSection

/-- `tableView(_:cellForRowAt:)` -/
def cellForRowAt (s : NewsListTableViewController) (row : ℕ) : Option ArticleTableViewCell := do
  let article ← (← s.articleListVM).articleAtIndex row
  return .of article

/-- The cells that the table asks for when it reloads, section by section. -/
def table (s : NewsListTableViewController) : Option (List (List ArticleTableViewCell)) :=
  (List.range s.numberOfSections).mapM fun inSection => do
    (List.range (← s.numberOfRowsInSection inSection)).mapM s.cellForRowAt

/-- The controller after `setup` and the result of its request. -/
def setup (result : Result) : NewsListTableViewController :=
  (WebService.getArticles result).completions.foldl completion {}

theorem mapM_getElem?_range {α β : Type} (l : List α) (f : α → β) :
    (List.range l.length).mapM (fun i => l[i]?.map f) = some (l.map f) := by
  rw [Json.mapM_eq_some_iff]
  apply List.ext_getElem
  · simp
  · intro i _ hi
    have hlt : i < l.length := by simpa using hi
    simp [hlt]

theorem cellForRowAt_completion (s : NewsListTableViewController) (articles : List Article)
    (row : ℕ) : (s.completion (some articles)).cellForRowAt row = articles[row]?.map .of := by
  show (articles[row]?).bind _ = _
  cases articles[row]? <;> rfl

/-- The table shows the articles of its view model, all of them and in order. -/
theorem table_completion (s : NewsListTableViewController) (articles : List Article) :
    (s.completion (some articles)).table = some [articles.map .of] := by
  have hcells : (List.range articles.length).mapM (s.completion (some articles)).cellForRowAt =
      some (articles.map .of) := by
    rw [← mapM_getElem?_range]
    exact congrArg (List.mapM · _) (funext (cellForRowAt_completion s articles))
  have hrows : (s.completion (some articles)).numberOfRowsInSection 0 = some articles.length := rfl
  show List.mapM _ [0] = _
  simp [hrows, hcells]

end NewsListTableViewController

/-! ## What a request should lead to -/

/-- The articles of a successful request. -/
def articles (result : Result) : Option (List Article) :=
  if result.error then none
  else (result.data.bind decodeArticleList).map ArticleList.articles

/-- The completion is called once, with the articles of the request or with `nil`, nothing traps
and the articles are shown. -/
structure Reports (result : Result) : Prop where
  completions : (WebService.getArticles result).completions = [articles result]
  trapped : (WebService.getArticles result).trapped = false
  shows : ∀ shown, articles result = some shown →
    (NewsListTableViewController.setup result).table = some [shown.map .of]

theorem getArticles_of_no_error {result : Result} (h : result.error = false) :
    WebService.getArticles result = { completions := [none] } := by
  simp [WebService.getArticles, h]

/-- With an error the handler calls `completion` with articles or not at all. -/
theorem completions_ne_of_error {result : Result} (h : result.error = true) :
    (WebService.getArticles result).completions ≠ [none] := by
  cases hdata : result.data with
  | none => simp [WebService.getArticles, h, hdata]
  | some articleData =>
    cases hlist : decodeArticleList articleData <;>
      simp [WebService.getArticles, h, hdata, hlist]

/-- This is so exactly for the requests without an error that have no articles. -/
theorem reports_iff (result : Result) :
    Reports result ↔ result.error = false ∧ result.data.bind decodeArticleList = none := by
  constructor
  · intro h
    cases herror : result.error with
    | false =>
      have hcalled : [none] = [articles result] := by
        rw [← h.completions, getArticles_of_no_error herror]
      have hnone : articles result = none := (List.singleton_inj.1 hcalled).symm
      rw [articles, herror, if_neg Bool.false_ne_true, Option.map_eq_none_iff] at hnone
      exact ⟨rfl, hnone⟩
    | true =>
      have hnone : articles result = none := by simp [articles, herror]
      exact absurd (hnone ▸ h.completions) (completions_ne_of_error herror)
  · rintro ⟨herror, hnone⟩
    have hnil : articles result = none := by simp only [articles, hnone, Option.map_none, ite_self]
    have hhandled := getArticles_of_no_error herror
    refine ⟨by rw [hhandled, hnil], by rw [hhandled], fun shown hshown => ?_⟩
    simp [hnil] at hshown

/-- A response with one article. -/
def oneArticle : Result where
  data := some (some (.object [("articles", .array [.object
    [("title", .string "Swift"), ("description", .string "released")]])]))
  response := some (.http 200)

/-- The response of success is reported as a failure and shown to no one. -/
theorem success_not_reported :
    ¬ ∀ result : Result, Reports result := by
  intro h
  have hcalled := (h oneArticle).completions
  revert hcalled
  decide

end PracticeSwift.NewsList
