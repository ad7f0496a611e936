import PracticeSwift.BlogSearch.MainModel

/-!
# Malformed documents

Every field of a document is optional and read on its own, so an object with any fields of any
types is a document.  The documents of an answer are decoded one by one and turned into cells one
by one: a field that is missing or has the wrong type costs its own cell this field and nothing
else.
-/

namespace PracticeSwift.BlogSearch

variable (platform : Platform)

theorem optionalString_eq_some_iff (doc : Json) (key s : String) :
    optionalString doc key = some s ↔ doc.field key = some (.string s) := by
  simp [optionalString, Option.bind_eq_some_iff]

/-! ## One document -/

/-- What is read from a document. -/
structure DKDocument.Reads (doc : Json) (document : DKDocument) : Prop where
  title : ∀ s, document.title = some s ↔ doc.field "title" = some (.string s)
  name : ∀ s, document.name = some s ↔ doc.field "blogname" = some (.string s)
  thumbnail : ∀ s, document.thumbnail = some s ↔ doc.field "thumbnail" = some (.string s)
  datetime : ∀ date, document.datetime = some date ↔
    ∃ s, doc.field "datetime" = some (.string s) ∧ platform.dateFrom s = some date

/-- What a cell keeps of its document. -/
structure BlogListCellData.Shows (document : DKDocument) (cell : BlogListCellData) : Prop where
  name : cell.name = document.name
  title : cell.title = document.title
  datetime : cell.datetime = document.datetime

/-- The document of an object. -/
def DKDocument.ofObject (doc : Json) : DKDocument where
  title := optionalString doc "title"
  name := optionalString doc "blogname"
  thumbnail := optionalString doc "thumbnail"
  datetime := parseDate platform doc "datetime"

theorem DKDocument.decode_of_isObject {doc : Json} (h : doc.isObject) :
    decode platform doc = some (ofObject platform doc) :=
  if_pos h

theorem DKDocument.reads_ofObject (doc : Json) : Reads platform doc (ofObject platform doc) where
  title := optionalString_eq_some_iff doc "title"
  name := optionalString_eq_some_iff doc "blogname"
  thumbnail := optionalString_eq_some_iff doc "thumbnail"
  datetime date := by
    simp only [ofObject, parseDate, Option.bind_eq_some_iff, optionalString_eq_some_iff]

/-! ## All documents -/

theorem forall₂_map {α β : Type} {R : α → β → Prop} {f : α → β} (h : ∀ a, R a (f a)) (l : List α) :
    List.Forall₂ R l (l.map f) :=
  List.forall₂_map_right_iff.2 (List.forall₂_same.2 fun a _ => h a)

theorem DKBlog.decode_eq {json : Json} {docs : List Json}
    (hdocs : json.field "documents" = some (.array docs))
    (hobjects : ∀ doc ∈ docs, doc.isObject) :
    decode platform json = some ⟨docs.map (DKDocument.ofObject platform)⟩ := by
  have hall : docs.mapM (DKDocument.decode platform) =
      some (docs.map (DKDocument.ofObject platform)) := by
    rw [Json.mapM_eq_some_iff, List.map_map]
    exact List.map_congr_left fun doc hdoc =>
      DKDocument.decode_of_isObject platform (hobjects doc hdoc)
  simp only [decode, hdocs, Json.array?, hall, Option.bind_eq_bind, Option.bind_some]
  rfl

theorem shows_getBlogListCellData (version : Version) (blog : DKBlog) :
    List.Forall₂ BlogListCellData.Shows blog.documents
      ((version.functions platform).getBlogListCellData blog) := by
  rw [Version.functions_eq]
  apply forall₂_map
  intro document
  exact ⟨rfl, rfl, rfl⟩

/-- A cell depends on the document in its place only. -/
theorem getElem?_getBlogListCellData (version : Version) (blog : DKBlog) (i : ℕ) :
    ((version.functions platform).getBlogListCellData blog)[i]? =
      blog.documents[i]?.bind fun document =>
        ((version.functions platform).getBlogListCellData ⟨[document]⟩).head? := by
  rw [Version.functions_eq]
  show (List.map _ _)[i]? = _
  rw [List.getElem?_map]
  cases blog.documents[i]? <;> rfl

/-- Whatever objects the documents are, each becomes the cell in its place, and replacing one of
them by another object changes no other cell. -/
theorem documents_to_cells (version : Version) (json : Json) (docs : List Json)
    (hdocs : json.field "documents" = some (.array docs))
    (hobjects : ∀ doc ∈ docs, doc.isObject) :
    ∃ blog, DKBlog.decode platform json = some blog ∧
      List.Forall₂ (DKDocument.Reads platform) docs blog.documents ∧
      List.Forall₂ BlogListCellData.Shows blog.documents
        ((version.functions platform).getBlogListCellData blog) ∧
      ∀ (i : ℕ) (doc' json' : Json), doc'.isObject →
        json'.field "documents" = some (.array (docs.set i doc')) →
        ∃ blog', DKBlog.decode platform json' = some blog' ∧
          ∀ j ≠ i, ((version.functions platform).getBlogListCellData blog')[j]? =
            ((version.functions platform).getBlogListCellData blog)[j]? := by
  have hreads := forall₂_map (DKDocument.reads_ofObject platform) docs
  refine ⟨_, DKBlog.decode_eq platform hdocs hobjects, hreads, shows_getBlogListCellData _ _ _, ?_⟩
  intro i doc' json' hdoc' hjson'
  have hobjects' : ∀ doc ∈ docs.set i doc', doc.isObject := by
    intro doc hdoc
    rcases List.mem_or_eq_of_mem_set hdoc with h | rfl
    · exact hobjects doc h
    · exact hdoc'
  refine ⟨_, DKBlog.decode_eq platform hjson' hobjects', fun j hj => ?_⟩
  rw [getElem?_getBlogListCellData, getElem?_getBlogListCellData, List.getElem?_map,
    List.getElem?_map, List.getElem?_set_ne (Ne.symm hj)]

/-- A platform that knows one date. -/
def epoch : Platform where
  dateFrom s := if s = "1970-01-01T00:00:00.000Z" then some 0 else none
  url s := if s = "" then none else some s
  queryURL _ := none
  invalidJSONDescription := "invalidJSON"
  networkErrorDescription := "networkError"
  precedes a b := a < b

/-- An empty document, and one with a number for its title and no text for its date. -/
def malformed : List Json :=
  [.object [], .object [("title", .number 1), ("blogname", .string "daum"), ("datetime", .null)]]

def answer : Json := .object [("documents", .array malformed)]

theorem documents_to_cells_malformed :
    ∃ blog, DKBlog.decode epoch answer = some blog ∧
      List.Forall₂ (DKDocument.Reads epoch) malformed blog.documents ∧
      List.Forall₂ BlogListCellData.Shows blog.documents
        (MainModel.getBlogListCellData epoch blog) := by
  obtain ⟨blog, hblog, hreads, hshows, -⟩ :=
    documents_to_cells epoch .mvvm answer malformed rfl (by decide)
  exact ⟨blog, hblog, hreads, hshows⟩

/-- The second cell keeps its name. -/
example :
    (MainModel.getBlogListCellData epoch
        ⟨malformed.map (DKDocument.ofObject epoch)⟩).map BlogListCellData.name =
      [none, some "daum"] := by
  decide

end PracticeSwift.BlogSearch
