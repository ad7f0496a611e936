import PracticeSwift.TodoList.Todo

/-!
# Storage as a map

Without failures of the file system `Storage` is a map from directories and file names to the values
stored last, whatever their types: a `store` is an insertion, even though it removes the old file
first, a `remove` and a `clear` forget, and a `store` whose value cannot be encoded leaves the old
value, since it encodes before it removes.
-/

open Foundation FileManager Transition

namespace PracticeSwift.TodoList.Storage

variable {ι : Type} {α : ι → Type} {Data : Type}

/-- A call of `Storage`, with the type of the value. -/
inductive Call (α : ι → Type)
  | store (i : ι) (obj : α i) (directory : Directory) (fileName : String)
  | retrive (i : ι) (fileName : String) (directory : Directory)
  | remove (fileName : String) (directory : Directory)
  | clear (directory : Directory)

/-- The pairs of a directory and a file name that a call is about. -/
def Call.Touches : Call α → Directory → String → Prop
  | .store _ _ directory' fileName', directory, fileName =>
    directory' = directory ∧ fileName' = fileName
  | .retrive .., _, _ => False
  | .remove fileName' directory', directory, fileName =>
    directory' = directory ∧ fileName' = fileName
  | .clear directory', directory, _ => directory' = directory

variable (coder : ∀ i, Coder (α i) Data)

/-- The disk after a call. -/
def call (disk : Disk Data) : Call α → Disk Data
  | .store i obj directory fileName => store (coder i) .none disk obj directory fileName
  | .retrive .. => disk
  | .remove fileName directory => remove .none disk fileName directory
  | .clear directory => clear .none disk directory

/-- The runs from empty directories. -/
def system : System (Disk Data) (Call α) where
  start disk := disk = ∅
  step disk c disk' := disk' = call coder disk c

/-- The value of the last `store` that was not followed by a `remove` or `clear`; a `store` that
cannot encode its value does not count. -/
def lastStored (directory : Directory) (fileName : String) : List (Call α) → Option (Σ i, α i)
  | [] => none
  | .store i obj directory' fileName' :: past =>
    if (directory' = directory ∧ fileName' = fileName) ∧ ((coder i).encode obj).isSome then
      some ⟨i, obj⟩
    else lastStored directory fileName past
  | .retrive .. :: past => lastStored directory fileName past
  | .remove fileName' directory' :: past =>
    if directory' = directory ∧ fileName' = fileName then none
    else lastStored directory fileName past
  | .clear directory' :: past =>
    if directory' = directory then none else lastStored directory fileName past

/-- Retrieving from the disk gives the value, or nothing whatever the type. -/
def Retrieves (disk : Disk Data) (directory : Directory) (fileName : String) :
    Option (Σ i, α i) → Prop
  | some ⟨i, obj⟩ => retrive (coder i) .none disk fileName directory = some obj
  | none => ∀ i, retrive (coder i) .none disk fileName directory = none

/-! ## What a call does to the files -/

section

variable (disk : Disk Data) {directory directory' : Directory} {fileName fileName' : String}

theorem url_ne (h : ¬ (directory' = directory ∧ fileName' = fileName)) :
    url directory fileName ≠ url directory' fileName' := by
  intro heq
  obtain ⟨rfl, rfl⟩ := URL.mk.inj heq
  exact h ⟨rfl, rfl⟩

theorem url_of_mem_storeWrites {β : Type} {coder : Coder β Data} {faults : Faults} {obj : β}
    {w : Write Directory Data} (h : w ∈ storeWrites coder faults disk obj directory fileName) :
    w.url = url directory fileName := by
  have hcreate : ∀ {data}, w ∈ createWrite faults (url directory fileName) data →
      w.url = url directory fileName := by
    intro data hw
    unfold createWrite at hw
    split_ifs at hw
    · exact absurd hw List.not_mem_nil
    · obtain rfl := List.mem_singleton.1 hw
      rfl
  simp only [storeWrites] at h
  split at h
  · exact absurd h List.not_mem_nil
  · split_ifs at h
    · exact absurd h List.not_mem_nil
    · rcases List.mem_cons.1 h with rfl | h
      · rfl
      · exact hcreate h
    · exact hcreate h

theorem contents_remove : contents (remove .none disk fileName directory)
    (url directory fileName) = none := by
  unfold remove
  by_cases hfile : fileExists disk (url directory fileName) = true
  · simp [hfile, Faults.none]
  · simp only [hfile]
    exact (fileExists_eq_false_iff _ _).1 (by simpa using hfile)

theorem contents_clear : contents (clear .none disk directory) (url directory' fileName) =
    if directory = directory' then none else contents disk (url directory' fileName) := by
  have hclear : clear .none disk directory =
      performAll disk ((contentsOfDirectory disk directory).map .removeItem) := rfl
  rw [hclear, contents_removeItems]
  by_cases hd : directory = directory'
  · subst hd
    rw [if_pos rfl]
    split_ifs with hmem
    · rfl
    · rw [mem_contentsOfDirectory_iff] at hmem
      by_contra hne
      exact hmem ⟨rfl, hne⟩
  · rw [if_neg hd, if_neg]
    intro hmem
    exact hd ((mem_contentsOfDirectory_iff _ _ _).1 hmem).1.symm

/-- A call leaves the files it is not about alone. -/
theorem contents_call_of_not_touches {c : Call α} (h : ¬ c.Touches directory fileName) :
    contents (call coder disk c) (url directory fileName) =
      contents disk (url directory fileName) := by
  cases c with
  | store i obj directory' fileName' =>
    refine contents_performAll_of_ne disk fun w hw => ?_
    rw [url_of_mem_storeWrites disk hw]
    exact url_ne h
  | retrive => rfl
  | remove fileName' directory' =>
    simp only [call, remove]
    split_ifs
    · rfl
    · exact contents_perform_of_ne disk (url_ne h)
    · rfl
  | clear directory' => exact (contents_clear disk).trans (if_neg h)

/-- A value that cannot be encoded is not stored, and nothing happens to the old one. -/
theorem call_store_of_encode_eq_none {i : ι} {obj : α i} (h : (coder i).encode obj = none)
    (directory : Directory) (fileName : String) :
    call coder disk (.store i obj directory fileName) = disk := by
  simp [call, store, storeWrites, h]

theorem retrive_congr {β : Type} (coder : Coder β Data) {disk disk' : Disk Data}
    (h : contents disk' (url directory fileName) = contents disk (url directory fileName)) :
    retrive coder .none disk' fileName directory = retrive coder .none disk fileName directory := by
  cases hdata : contents disk (url directory fileName) with
  | none =>
    rw [retrive_of_absent coder disk' directory fileName .none (h.trans hdata),
      retrive_of_absent coder disk directory fileName .none hdata]
  | some data =>
    rw [retrive_of_contents coder disk' directory fileName (h.trans hdata),
      retrive_of_contents coder disk directory fileName hdata]

end

/-! ## Runs -/

/-- The file holds the encoded value, or there is no file. -/
def Holds (disk : Disk Data) (directory : Directory) (fileName : String) :
    Option (Σ i, α i) → Prop
  | some ⟨i, obj⟩ => ∃ data, (coder i).encode obj = some data ∧
      contents disk (url directory fileName) = some data
  | none => contents disk (url directory fileName) = none

theorem Holds.congr {disk disk' : Disk Data} {directory : Directory} {fileName : String}
    {value : Option (Σ i, α i)} (hold : Holds coder disk directory fileName value)
    (h : contents disk' (url directory fileName) = contents disk (url directory fileName)) :
    Holds coder disk' directory fileName value := by
  cases value with
  | none => exact h.trans hold
  | some value =>
    obtain ⟨data, hencode, hdata⟩ := hold
    exact ⟨data, hencode, h.trans hdata⟩

theorem Holds.call {disk : Disk Data} {past : List (Call α)} {directory : Directory}
    {fileName : String}
    (h : Holds coder disk directory fileName (lastStored coder directory fileName past))
    (c : Call α) :
    Holds coder (Storage.call coder disk c) directory fileName
      (lastStored coder directory fileName (c :: past)) := by
  by_cases htouch : c.Touches directory fileName
  · cases c with
    | store i obj directory' fileName' =>
      obtain ⟨rfl, rfl⟩ := htouch
      cases hencode : (coder i).encode obj with
      | none =>
        rw [call_store_of_encode_eq_none coder disk hencode, lastStored, if_neg (by simp [hencode])]
        exact h
      | some data =>
        rw [lastStored, if_pos ⟨⟨rfl, rfl⟩, by simp [hencode]⟩]
        exact ⟨data, hencode, contents_store _ _ _ _ _ hencode⟩
    | retrive => exact htouch.elim
    | remove fileName' directory' =>
      obtain ⟨rfl, rfl⟩ := htouch
      rw [lastStored, if_pos ⟨rfl, rfl⟩]
      exact contents_remove disk
    | clear directory' =>
      obtain rfl := htouch
      rw [lastStored, if_pos rfl]
      exact (contents_clear disk).trans (if_pos rfl)
  · have hlast : lastStored coder directory fileName (c :: past) =
        lastStored coder directory fileName past := by
      cases c with
      | store => exact if_neg fun h => htouch h.1
      | retrive => rfl
      | remove => exact if_neg htouch
      | clear => exact if_neg htouch
    rw [hlast]
    exact h.congr coder (contents_call_of_not_touches coder disk htouch)

theorem holds_of_run {past : List (Call α)} {disk : Disk Data}
    (h : (system coder).Run past disk) (directory : Directory) (fileName : String) :
    Holds coder disk directory fileName (lastStored coder directory fileName past) := by
  refine h.invariant (I := fun past disk =>
    Holds coder disk directory fileName (lastStored coder directory fileName past)) ?_ ?_
  · rintro _ rfl
    rfl
  · rintro past disk c _ - hold rfl
    exact hold.call coder c

/-- In every run retrieving gives the value stored last, and nothing where there is none; a call
changes what is retrieved only where it is about; and a value that cannot be encoded leaves the disk
as it is. -/
theorem storage_is_map {past : List (Call α)} {disk : Disk Data}
    (h : (system coder).Run past disk) :
    (∀ directory fileName, Retrieves coder disk directory fileName
        (lastStored coder directory fileName past)) ∧
      (∀ c directory fileName, ¬ c.Touches directory fileName → ∀ i,
        retrive (coder i) .none (call coder disk c) fileName directory =
          retrive (coder i) .none disk fileName directory) ∧
      ∀ i obj directory fileName, (coder i).encode obj = none →
        call coder disk (.store i obj directory fileName) = disk := by
  refine ⟨fun directory fileName => ?_, fun c directory fileName htouch i => ?_,
    fun i obj directory fileName hencode =>
      call_store_of_encode_eq_none coder disk hencode directory fileName⟩
  · have hold := holds_of_run coder h directory fileName
    cases hlast : lastStored coder directory fileName past with
    | none =>
      rw [hlast] at hold
      exact fun i => retrive_of_absent (coder i) disk directory fileName .none hold
    | some value =>
      rw [hlast] at hold
      obtain ⟨data, hencode, hdata⟩ := hold
      refine (retrive_of_contents (coder value.1) disk directory fileName hdata).trans ?_
      exact (coder value.1).decode_encode hencode
  · exact retrive_congr (coder i) (contents_call_of_not_touches coder disk htouch)

/-- A second `store` to the file and a `clear` of the other directory. -/
theorem storage_is_map_overwritten :
    ∃ disk, (system fun _ : Unit => todosCoder.toCoder).Run
        [.clear .caches, .store () [⟨2, false, "bread", false⟩] .documets "todos.json",
          .store () [⟨1, true, "milk", true⟩] .documets "todos.json"] disk ∧
      retrive todosCoder.toCoder .none disk "todos.json" .documets =
        some [⟨2, false, "bread", false⟩] := by
  have hrun : (system fun _ : Unit => todosCoder.toCoder).Run
      [.clear .caches, .store () [⟨2, false, "bread", false⟩] .documets "todos.json",
        .store () [⟨1, true, "milk", true⟩] .documets "todos.json"] _ :=
    .step (.step (.step (.start rfl) rfl) rfl) rfl
  exact ⟨_, hrun, (storage_is_map _ hrun).1 .documets "todos.json"⟩

end PracticeSwift.TodoList.Storage
