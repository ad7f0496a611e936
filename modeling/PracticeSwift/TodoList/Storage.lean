import PracticeSwift.Library.Foundation

/-!
# Storage of the todo app

`Storage` keeps one value per file of the documents or the caches directory.  `store` encodes the
value, removes the file if there is one and creates it anew; the writes it issues are kept as a
list (`storeWrites`), so that a process that dies inside the call has performed a prefix of them.
-/

open Foundation FileManager

namespace PracticeSwift.TodoList

/-- The directories `Storage` writes to (the source's spelling). -/
inductive Directory
  | documets
  | caches
  deriving DecidableEq

namespace Storage

variable {α Data : Type}

/-- The disk of the app. -/
abbrev Disk (Data : Type) := FileSystem Directory Data

def url (directory : Directory) (fileName : String) : URL Directory := ⟨directory, fileName⟩

/-- `createFile`, whose result is ignored. -/
def createWrite (faults : Faults) (url : URL Directory) (data : Data) :
    List (Write Directory Data) :=
  if faults.createFile then [] else [.createFile url data]

/-- The changes of the disk that `store` makes, in order. -/
def storeWrites (coder : Coder α Data) (faults : Faults) (disk : Disk Data) (obj : α)
    (directory : Directory) (fileName : String) : List (Write Directory Data) :=
  let url := url directory fileName
  match if faults.encode then none else coder.encode obj with
  | none => []
  | some data =>
    if fileExists disk url then
      if faults.removeItem then [] else .removeItem url :: createWrite faults url data
    else createWrite faults url data

def store (coder : Coder α Data) (faults : Faults) (disk : Disk Data) (obj : α)
    (directory : Directory) (fileName : String) : Disk Data :=
  performAll disk (storeWrites coder faults disk obj directory fileName)

/-- The disk left behind when the process dies after `n` of the writes of `store`. -/
def storeUntil (n : ℕ) (coder : Coder α Data) (faults : Faults) (disk : Disk Data) (obj : α)
    (directory : Directory) (fileName : String) : Disk Data :=
  performAll disk ((storeWrites coder faults disk obj directory fileName).take n)

def retrive (coder : Coder α Data) (faults : Faults) (disk : Disk Data) (fileName : String)
    (directory : Directory) : Option α :=
  let url := url directory fileName
  if fileExists disk url then
    match if faults.contents then none else contents disk url with
    | none => none
    | some data => if faults.decode then none else coder.decode data
  else none

def remove (faults : Faults) (disk : Disk Data) (fileName : String) (directory : Directory) :
    Disk Data :=
  let url := url directory fileName
  if fileExists disk url then
    if faults.removeItem then disk else perform disk (.removeItem url)
  else disk

/-- The first `removeItem` that throws ends the loop, as does a directory that cannot be listed. -/
def clear (faults : Faults) (disk : Disk Data) (directory : Directory) : Disk Data :=
  if faults.removeItem then disk
  else performAll disk ((contentsOfDirectory disk directory).map .removeItem)

/-! ## What a call does to its file -/

section

variable (coder : Coder α Data) (disk : Disk Data) (obj : α) (directory : Directory)
  (fileName : String)

/-- However `store` ends, its file is the old one, the new one, or gone. -/
theorem contents_store_cases (faults : Faults) :
    contents (store coder faults disk obj directory fileName) (url directory fileName) =
        contents disk (url directory fileName) ∨
      contents (store coder faults disk obj directory fileName) (url directory fileName) = none ∨
      ∃ data, coder.encode obj = some data ∧
        contents (store coder faults disk obj directory fileName) (url directory fileName) =
          some data := by
  unfold store storeWrites createWrite
  cases hdata : coder.encode obj with
  | none => exact Or.inl (by simp)
  | some data =>
    cases faults.encode with
    | true => exact Or.inl (by simp)
    | false =>
      by_cases hfile : fileExists disk (url directory fileName)
      · cases faults.removeItem <;> cases faults.createFile <;> simp [hfile]
      · cases faults.createFile <;> simp [hfile]

/-- Without a failure the file holds the encoded value. -/
theorem contents_store {data : Data} (hdata : coder.encode obj = some data) :
    contents (store coder .none disk obj directory fileName) (url directory fileName) =
      some data := by
  unfold store storeWrites createWrite
  by_cases hfile : fileExists disk (url directory fileName) <;>
    simp [hfile, hdata, Faults.none]

/-- However `retrive` ends, it returns what the file decodes to, or nothing. -/
theorem retrive_cases (faults : Faults) :
    retrive coder faults disk fileName directory = none ∨
      ∃ data, contents disk (url directory fileName) = some data ∧
        retrive coder faults disk fileName directory = coder.decode data := by
  unfold retrive
  cases hdata : contents disk (url directory fileName) with
  | none => exact Or.inl (by simp [(fileExists_eq_false_iff _ _).2 hdata])
  | some data =>
    have hfile := (fileExists_iff _ _).2 ⟨data, hdata⟩
    cases hc : faults.contents with
    | true => exact Or.inl (by simp [hfile])
    | false =>
      cases hd : faults.decode with
      | true => exact Or.inl (by simp [hfile, hdata])
      | false => exact Or.inr ⟨data, rfl, by simp [hfile, hdata]⟩

theorem retrive_of_contents {data : Data}
    (hdata : contents disk (url directory fileName) = some data) :
    retrive coder .none disk fileName directory = coder.decode data := by
  have hfile := (fileExists_iff _ _).2 ⟨data, hdata⟩
  simp [retrive, hfile, hdata, Faults.none]

/-- A file that cannot be read or decoded is as good as none. -/
theorem retrive_of_failure {faults : Faults}
    (hfail : faults.contents = true ∨ faults.decode = true) :
    retrive coder faults disk fileName directory = none := by
  rcases retrive_cases coder disk directory fileName faults with hnone | ⟨data, hdata, -⟩
  · exact hnone
  · have hfile := (fileExists_iff _ _).2 ⟨data, hdata⟩
    rcases hfail with h | h
    · simp [retrive, hfile, h]
    · cases hc : faults.contents <;> simp [retrive, hfile, hdata, h, hc]

theorem retrive_of_absent (faults : Faults)
    (habsent : contents disk (url directory fileName) = none) :
    retrive coder faults disk fileName directory = none := by
  simp [retrive, (fileExists_eq_false_iff _ _).2 habsent]

end

end Storage

end PracticeSwift.TodoList
