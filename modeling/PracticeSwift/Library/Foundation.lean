import Mathlib.Data.List.AList
import Mathlib.Data.Int.Notation

/-!
# Machine integers, coders and files

What a program that keeps values in files rests on: Swift's trapping arithmetic, an encoder with the
decoder that reads back what it wrote, and a file manager whose calls may fail.  The disk is a
finite map from locations to contents; a failed call leaves it as it was, and a process that dies
inside an operation has performed a prefix of the writes the operation issues.
-/

namespace Foundation

/-! ## Machine integers -/

/-- `a + b` on `Int`: `none` is the trap on overflow. -/
def checkedAdd (a b : Int64) : Option Int64 :=
  if h : Int64.minValue.toInt ≤ a.toInt + b.toInt ∧ a.toInt + b.toInt ≤ Int64.maxValue.toInt then
    some (Int64.ofIntLE (a.toInt + b.toInt) h.1 h.2)
  else none

theorem toInt_of_checkedAdd {a b c : Int64} (h : checkedAdd a b = some c) :
    c.toInt = a.toInt + b.toInt := by
  unfold checkedAdd at h
  split_ifs at h
  obtain rfl := Option.some.inj h
  exact Int64.toInt_ofIntLE

/-- A counter that does not trap grows. -/
theorem lt_of_checkedAdd_one {a c : Int64} (h : checkedAdd a 1 = some c) : a < c := by
  rw [Int64.lt_iff_toInt_lt, toInt_of_checkedAdd h]
  exact Int.lt_succ _

/-- `a - b` on `Int`. -/
def checkedSub (a b : Int64) : Option Int64 :=
  if h : Int64.minValue.toInt ≤ a.toInt - b.toInt ∧ a.toInt - b.toInt ≤ Int64.maxValue.toInt then
    some (Int64.ofIntLE (a.toInt - b.toInt) h.1 h.2)
  else none

/-- A difference in range does not trap. -/
theorem exists_checkedSub {a b : Int64} (hlow : Int64.minValue.toInt ≤ a.toInt - b.toInt)
    (hhigh : a.toInt - b.toInt ≤ Int64.maxValue.toInt) :
    ∃ c, checkedSub a b = some c ∧ c.toInt = a.toInt - b.toInt :=
  ⟨_, dif_pos ⟨hlow, hhigh⟩, Int64.toInt_ofIntLE⟩

/-! ## Coders -/

/-- An encoder, which may throw (`none`), and the decoder of the same type. -/
structure Coder (α Data : Type*) where
  encode : α → Option Data
  decode : Data → Option α
  decode_encode : ∀ {a : α} {d : Data}, encode a = some d → decode d = some a

/-- A coder of a type none of whose values makes the encoder throw. -/
structure TotalCoder (α Data : Type*) extends Coder α Data where
  encodes : ∀ a, ∃ d, encode a = some d

/-! ## Files -/

/-- The location of a file: its directory and its name there. -/
structure URL (Directory : Type*) where
  directory : Directory
  lastPathComponent : String
  deriving DecidableEq

/-- The files on disk. -/
abbrev FileSystem (Directory Data : Type*) := AList fun _ : URL Directory => Data

/-- The file manager and coder calls that fail during an operation. -/
structure Faults where
  encode : Bool := false
  removeItem : Bool := false
  createFile : Bool := false
  contents : Bool := false
  decode : Bool := false
  deriving DecidableEq

/-- Nothing fails. -/
def Faults.none : Faults := {}

namespace FileManager

variable {Directory Data : Type*} [DecidableEq Directory]

def fileExists (fs : FileSystem Directory Data) (url : URL Directory) : Bool :=
  (fs.lookup url).isSome

def contents (fs : FileSystem Directory Data) (url : URL Directory) : Option Data :=
  fs.lookup url

/-- A call of the file manager that changed the disk. -/
inductive Write (Directory Data : Type*)
  | removeItem (url : URL Directory)
  | createFile (url : URL Directory) (contents : Data)

def perform (fs : FileSystem Directory Data) : Write Directory Data → FileSystem Directory Data
  | .removeItem url => fs.erase url
  | .createFile url contents => fs.insert url contents

/-- The disk after the writes, in order. -/
def performAll (fs : FileSystem Directory Data) (writes : List (Write Directory Data)) :
    FileSystem Directory Data :=
  writes.foldl perform fs

/-- The items of a directory. -/
def contentsOfDirectory (fs : FileSystem Directory Data) (directory : Directory) :
    List (URL Directory) :=
  fs.keys.filter fun url => url.directory = directory

def Write.url : Write Directory Data → URL Directory
  | .removeItem url => url
  | .createFile url _ => url

theorem fileExists_iff (fs : FileSystem Directory Data) (url : URL Directory) :
    fileExists fs url = true ↔ ∃ data, contents fs url = some data :=
  Option.isSome_iff_exists

theorem fileExists_eq_false_iff (fs : FileSystem Directory Data) (url : URL Directory) :
    fileExists fs url = false ↔ contents fs url = none := by
  simp [fileExists, contents]

@[simp] theorem performAll_nil (fs : FileSystem Directory Data) : performAll fs [] = fs := rfl

@[simp] theorem performAll_cons (fs : FileSystem Directory Data) (w : Write Directory Data)
    (ws : List (Write Directory Data)) : performAll fs (w :: ws) = performAll (perform fs w) ws :=
  rfl

@[simp] theorem contents_removeItem (fs : FileSystem Directory Data) (url : URL Directory) :
    contents (perform fs (.removeItem url)) url = none :=
  AList.lookup_erase url fs

@[simp] theorem contents_createFile (fs : FileSystem Directory Data) (url : URL Directory)
    (data : Data) : contents (perform fs (.createFile url data)) url = some data :=
  AList.lookup_insert fs

theorem contents_perform_of_ne (fs : FileSystem Directory Data) {w : Write Directory Data}
    {url : URL Directory} (h : url ≠ w.url) : contents (perform fs w) url = contents fs url := by
  cases w with
  | removeItem => exact AList.lookup_erase_ne h
  | createFile => exact AList.lookup_insert_ne h

/-- Writes elsewhere leave a file alone. -/
theorem contents_performAll_of_ne (fs : FileSystem Directory Data)
    {ws : List (Write Directory Data)} {url : URL Directory} (h : ∀ w ∈ ws, url ≠ w.url) :
    contents (performAll fs ws) url = contents fs url := by
  induction ws generalizing fs with
  | nil => rfl
  | cons w ws ih =>
    rw [List.forall_mem_cons] at h
    rw [performAll_cons, ih _ h.2, contents_perform_of_ne fs h.1]

/-- Removing items one after the other removes these and no others. -/
theorem contents_removeItems (fs : FileSystem Directory Data) (urls : List (URL Directory))
    (url : URL Directory) :
    contents (performAll fs (urls.map .removeItem)) url =
      if url ∈ urls then none else contents fs url := by
  induction urls generalizing fs with
  | nil => rfl
  | cons u urls ih =>
    rw [List.map_cons, performAll_cons, ih]
    by_cases hu : url = u
    · subst hu
      rw [contents_removeItem, if_pos List.mem_cons_self, ite_self]
    · rw [contents_perform_of_ne fs hu]
      exact if_congr (by rw [List.mem_cons, or_iff_right hu]) rfl rfl

/-- The items of a directory are the files that are there. -/
theorem mem_contentsOfDirectory_iff (fs : FileSystem Directory Data) (url : URL Directory)
    (directory : Directory) :
    url ∈ contentsOfDirectory fs directory ↔
      url.directory = directory ∧ contents fs url ≠ none := by
  rw [contentsOfDirectory, List.mem_filter, decide_eq_true_iff, and_comm, contents,
    ← AList.mem_keys, ← AList.lookup_isSome, Option.isSome_iff_ne_none]

end FileManager

end Foundation
