import PracticeSwift.BlogSearch.Network
import PracticeSwift.Library.Sorting

/-!
# The functions of the main screen

What the streams of the main screen apply to their elements, in the two versions of the app: the
closures of `MainViewController.bind` and the methods of `MainModel`.  Every `Date()` is a reading
of the clock of its own.
-/

namespace PracticeSwift.BlogSearch

structure BlogListCellData where
  thumbnailURL : Option String
  name : Option String
  title : Option String
  datetime : Option Date
  deriving DecidableEq

inductive AlertAction
  | title
  | datetime
  | cancel
  | confirm
  deriving DecidableEq

/-- `UIAlertController.Style` -/
inductive AlertStyle
  | actionSheet
  | alert
  deriving DecidableEq

structure Alert where
  title : Option String
  message : Option String
  actions : List AlertAction
  style : AlertStyle
  deriving DecidableEq

/-! ## The clock -/

/-- The readings that the clock will give. -/
abbrev Readings := ℕ → Date

abbrev Clock := StateM Readings

/-- `Date()` -/
def Clock.date : Clock Date := fun readings => (readings 0, fun n => readings (n + 1))

/-- `datetime ?? Date()` -/
def Clock.orDate (datetime : Option Date) : Clock Date :=
  match datetime with
  | some date => pure date
  | none => Clock.date

/-! ## The two versions -/

/-- The functions that the streams of a version apply, and what `sortedType` starts with. -/
structure Functions where
  searchBlog : String → Subscription
  getBlogValue : SearchResult → Option DKBlog
  getBlogError : SearchResult → Option String
  getBlogListCellData : DKBlog → List BlogListCellData
  isSortedType : AlertAction → Bool
  startType : AlertAction
  sort : AlertAction → List BlogListCellData → Clock (List BlogListCellData)
  alertSheetForSorting : Unit → Alert
  alertErrorMessage : String → Alert

namespace MainModel

variable (platform : Platform)

def getBlogValue (result : SearchResult) : Option DKBlog :=
  match result with
  | .ok value => some value
  | .error _ => none

def getBlogError (result : SearchResult) : Option String :=
  match result with
  | .error error => some (error.localizedDescription platform)
  | .ok _ => none

def getBlogListCellData (value : DKBlog) : List BlogListCellData :=
  value.documents.map fun doc =>
    { thumbnailURL := platform.url (doc.thumbnail.getD "")
      name := doc.name
      title := doc.title
      datetime := doc.datetime }

/-- The predicate of the `.datetime` case. -/
def datetimeOrder (a b : BlogListCellData) : Clock Bool := do
  let right ← Clock.orDate b.datetime
  let left ← Clock.orDate a.datetime
  return right < left

/-- The predicate of the `.title` case. -/
def titleOrder (a b : BlogListCellData) : Clock Bool :=
  return platform.precedes (a.title.getD "") (b.title.getD "")

def sort (type : AlertAction) (data : List BlogListCellData) : Clock (List BlogListCellData) :=
  match type with
  | .datetime => Sorting.sorted datetimeOrder data
  | .title => Sorting.sorted (titleOrder platform) data
  | _ => return data

end MainModel

namespace MainViewController

variable (platform : Platform)

/-- The closure that makes `blogValue`. -/
def blogValue (data : SearchResult) : Option DKBlog :=
  match data with
  | .ok value => some value
  | .error _ => none

/-- The closure that makes `blogError`. -/
def blogError (data : SearchResult) : Option String :=
  match data with
  | .error error => some (error.localizedDescription platform)
  | .ok _ => none

/-- The closure that makes `cellData`. -/
def cellData (blog : DKBlog) : List BlogListCellData :=
  blog.documents.map fun doc =>
    { thumbnailURL := platform.url (doc.thumbnail.getD "")
      name := doc.name
      title := doc.title
      datetime := doc.datetime }

/-- The closure of `combineLatest`. -/
def combined (type : AlertAction) (data : List BlogListCellData) :
    Clock (List BlogListCellData) :=
  match type with
  | .datetime =>
    Sorting.sorted
      (fun a b => do
        let right ← Clock.orDate b.datetime
        let left ← Clock.orDate a.datetime
        return right < left)
      data
  | .title =>
    Sorting.sorted (fun a b => return platform.precedes (a.title.getD "") (b.title.getD "")) data
  | _ => return data

/-- The closure of the filter of `sortedType`. -/
def sortedType : AlertAction → Bool
  | .title | .datetime => true
  | _ => false

/-- The closure that makes `alertSheetForSorting`. -/
def alertSheetForSorting (_ : Unit) : Alert where
  title := none
  message := none
  actions := [.title, .datetime, .cancel]
  style := .actionSheet

/-- The closure that makes `alertErrorMessage`. -/
def alertErrorMessage (message : String) : Alert where
  title := some "오류 발생"
  message := some ("다음과 같음 오류가 발생하였습니다. " ++ message)
  actions := [.confirm]
  style := .alert

/-- What `bind` hands to its operators. -/
def bind : Functions where
  searchBlog := searchBlog platform
  getBlogValue := blogValue
  getBlogError := blogError platform
  getBlogListCellData := cellData platform
  isSortedType := sortedType
  startType := .title
  sort := combined platform
  alertSheetForSorting
  alertErrorMessage

end MainViewController

namespace MainViewModel

variable (platform : Platform)

/-- The closure of the filter of `sortedType`. -/
def sortedType : AlertAction → Bool
  | .title | .datetime => true
  | _ => false

/-- The closure that makes `alertSheetForSorting`. -/
def alertSheetForSorting (_ : Unit) : Alert where
  title := none
  message := none
  actions := [.title, .datetime, .cancel]
  style := .actionSheet

/-- The closure that makes `alertErrorMessage`. -/
def alertErrorMessage (message : String) : Alert where
  title := some "오류 발생"
  message := some ("다음과 같음 오류가 발생하였습니다. " ++ message)
  actions := [.confirm]
  style := .alert

/-- What `init(model:)` hands to its operators; `MainModel.searchBlog` hands the query on. -/
def init : Functions where
  searchBlog := searchBlog platform
  getBlogValue := MainModel.getBlogValue
  getBlogError := MainModel.getBlogError platform
  getBlogListCellData := MainModel.getBlogListCellData platform
  isSortedType := sortedType
  startType := .title
  sort := MainModel.sort platform
  alertSheetForSorting
  alertErrorMessage

end MainViewModel

/-- The app with the streams in the view controller, and its rewrite with view models. -/
inductive Version
  | original
  | mvvm

def Version.functions (platform : Platform) : Version → Functions
  | .original => MainViewController.bind platform
  | .mvvm => MainViewModel.init platform

/-- The closures of the view controller are the methods of the model and the closures of the view
model. -/
theorem bind_eq_init (platform : Platform) :
    MainViewController.bind platform = MainViewModel.init platform := by
  have hvalue : MainViewController.blogValue = MainModel.getBlogValue := by
    funext data
    cases data <;> rfl
  have herror : MainViewController.blogError platform = MainModel.getBlogError platform := by
    funext data
    cases data <;> rfl
  have hsort : MainViewController.combined platform = MainModel.sort platform := by
    funext type data
    cases type <;> rfl
  have hsortedType : MainViewController.sortedType = MainViewModel.sortedType := by
    funext type
    cases type <;> rfl
  simp only [MainViewController.bind, MainViewModel.init, hvalue, herror, hsort, hsortedType]
  rfl

/-- The rewrite applies the same functions. -/
theorem Version.functions_eq (platform : Platform) (version : Version) :
    version.functions platform = Version.mvvm.functions platform := by
  cases version with
  | original => exact bind_eq_init platform
  | mvvm => rfl

/-- Sorting loses no cell and adds none. -/
theorem perm_sort (platform : Platform) (type : AlertAction) (data : List BlogListCellData)
    (readings : Readings) : (MainModel.sort platform type data readings).1.Perm data := by
  cases type with
  | title => exact Sorting.perm_sorted _ _ _
  | datetime => exact Sorting.perm_sorted _ _ _
  | cancel => exact List.Perm.refl _
  | confirm => exact List.Perm.refl _

end PracticeSwift.BlogSearch
