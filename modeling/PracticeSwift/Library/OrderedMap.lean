import Mathlib.Data.List.Basic
import PracticeSwift.Library.KeyedList

/-!
# Insertion-ordered finite maps

A map that remembers the order in which its keys came in: a list of entries with distinct keys.
New keys go to the end, a replacement keeps its place, a removal keeps the order of the rest.
-/

/-! ## Entry lists -/

namespace List

variable {κ ν : Type*} [DecidableEq κ]

/-- Write `v` at `k`: in place where the key is, at the end where it is not. -/
def assign (k : κ) (v : ν) : List (κ × ν) → List (κ × ν)
  | [] => [(k, v)]
  | e :: l => if e.1 = k then (k, v) :: l else e :: assign k v l

theorem lookup_cons_eq_ite (k a : κ) (v : ν) (l : List (κ × ν)) :
    ((a, v) :: l).lookup k = if k = a then some v else l.lookup k := by
  rw [lookup_cons]
  by_cases h : k = a
  · rw [if_pos h, beq_iff_eq.2 h]
  · rw [if_neg h, beq_eq_false_iff_ne.2 h]

theorem lookup_assign (k k' : κ) (v : ν) (l : List (κ × ν)) :
    (l.assign k v).lookup k' = if k' = k then some v else l.lookup k' := by
  induction l with
  | nil => exact lookup_cons_eq_ite k' k v []
  | cons e l ih =>
    obtain ⟨a, b⟩ := e
    by_cases ha : a = k
    · subst ha
      rw [assign, if_pos rfl, lookup_cons_eq_ite, lookup_cons_eq_ite]
      by_cases h : k' = a
      · rw [if_pos h, if_pos h]
      · rw [if_neg h, if_neg h, if_neg h]
    · rw [assign, if_neg ha, lookup_cons_eq_ite, lookup_cons_eq_ite, ih]
      by_cases h : k' = a
      · subst h
        rw [if_pos rfl, if_neg ha, if_pos rfl]
      · rw [if_neg h, if_neg h]

theorem map_fst_assign (k : κ) (v : ν) (l : List (κ × ν)) :
    (l.assign k v).map Prod.fst =
      if k ∈ l.map Prod.fst then l.map Prod.fst else l.map Prod.fst ++ [k] := by
  induction l with
  | nil => rfl
  | cons e l ih =>
    by_cases he : e.1 = k
    · subst he
      simp [assign]
    · rw [assign, if_neg he, map_cons, ih, map_cons]
      by_cases hk : k ∈ l.map Prod.fst
      · rw [if_pos hk, if_pos (mem_cons_of_mem _ hk)]
      · rw [if_neg hk, if_neg (not_mem_cons_of_ne_of_not_mem (Ne.symm he) hk), cons_append]

/-- Renaming the keys injectively commutes with a write. -/
theorem map_assign {κ' ν' : Type*} [DecidableEq κ'] {f : κ → κ'} (hf : Function.Injective f)
    (g : ν → ν') (k : κ) (v : ν) (l : List (κ × ν)) :
    (l.assign k v).map (Prod.map f g) = (l.map (Prod.map f g)).assign (f k) (g v) := by
  induction l with
  | nil => rfl
  | cons e l ih =>
    by_cases he : e.1 = k
    · simp [assign, he]
    · simp [assign, he, hf.ne he, ih]

/-- Renaming the keys injectively keeps what is found under them. -/
theorem lookup_map {κ' ν' : Type*} [DecidableEq κ'] {f : κ → κ'} (hf : Function.Injective f)
    (g : ν → ν') (k : κ) (l : List (κ × ν)) :
    (l.map (Prod.map f g)).lookup (f k) = (l.lookup k).map g := by
  induction l with
  | nil => rfl
  | cons e l ih =>
    obtain ⟨a, b⟩ := e
    rw [map_cons, Prod.map_apply, lookup_cons_eq_ite, lookup_cons_eq_ite, ih]
    by_cases h : k = a
    · rw [if_pos h, if_pos (congrArg f h), Option.map_some]
    · rw [if_neg h, if_neg (hf.ne h)]

/-- Dropping the entries of one key hides that key alone. -/
theorem lookup_filter_ne (k k' : κ) (l : List (κ × ν)) :
    (l.filter fun e => e.1 ≠ k).lookup k' = if k' = k then none else l.lookup k' := by
  induction l with
  | nil => exact (ite_self none).symm
  | cons e l ih =>
    obtain ⟨a, b⟩ := e
    by_cases ha : a = k
    · subst ha
      rw [filter_cons_of_neg (by simp), ih, lookup_cons_eq_ite]
      by_cases h : k' = a
      · rw [if_pos h, if_pos h]
      · rw [if_neg h, if_neg h, if_neg h]
    · rw [filter_cons_of_pos (by simp [ha]), lookup_cons_eq_ite, lookup_cons_eq_ite, ih]
      by_cases h : k' = a
      · subst h
        rw [if_pos rfl, if_neg ha, if_pos rfl]
      · rw [if_neg h, if_neg h]

theorem isSome_lookup_iff (k : κ) (l : List (κ × ν)) :
    (l.lookup k).isSome ↔ k ∈ l.map Prod.fst := by
  rw [lookup_isSome_iff, mem_map]
  exact exists_congr fun e => and_congr_right fun _ => by rw [beq_iff_eq, eq_comm]

end List

/-! ## Maps -/

/-- A finite map from `κ` to `ν` whose entries are kept in insertion order. -/
@[ext]
structure OrderedMap (κ ν : Type*) where
  entries : List (κ × ν)
  nodup_keys : (entries.map Prod.fst).Nodup

namespace OrderedMap

variable {κ ν : Type*}

def keys (m : OrderedMap κ ν) : List κ := m.entries.map Prod.fst

def empty : OrderedMap κ ν := ⟨[], List.nodup_nil⟩

/-- Append a new key. -/
def insertLast (m : OrderedMap κ ν) (k : κ) (v : ν) (h : k ∉ m.keys) : OrderedMap κ ν where
  entries := m.entries ++ [(k, v)]
  nodup_keys := by
    rw [List.map_append, List.map_singleton, ← List.concat_eq_append]
    exact m.nodup_keys.concat h

theorem mem_keys_of_mem {m : OrderedMap κ ν} {e : κ × ν} (h : e ∈ m.entries) : e.1 ∈ m.keys :=
  List.mem_map_of_mem h

variable [DecidableEq κ]

/-! ### Lookup and assignment -/

def lookup (m : OrderedMap κ ν) (k : κ) : Option ν := m.entries.lookup k

@[simp] theorem lookup_empty (k : κ) : (empty : OrderedMap κ ν).lookup k = none := rfl

theorem isSome_lookup_iff (m : OrderedMap κ ν) (k : κ) : (m.lookup k).isSome ↔ k ∈ m.keys :=
  List.isSome_lookup_iff k m.entries

theorem lookup_eq_none_iff (m : OrderedMap κ ν) (k : κ) : m.lookup k = none ↔ k ∉ m.keys := by
  rw [← isSome_lookup_iff, Option.not_isSome_iff_eq_none]

/-- Keys being distinct, an entry is what its key looks up. -/
theorem mem_entries_iff (m : OrderedMap κ ν) (k : κ) (v : ν) :
    (k, v) ∈ m.entries ↔ m.lookup k = some v := by
  have found : ∀ w, m.lookup k = some w → (k, w) ∈ m.entries := by
    intro w hw
    obtain ⟨before, after, hsplit, -⟩ := List.lookup_eq_some_iff.1 hw
    rw [hsplit]
    exact List.mem_append_right _ List.mem_cons_self
  constructor
  · intro h
    obtain ⟨w, hw⟩ := Option.isSome_iff_exists.1 ((m.isSome_lookup_iff k).2 (mem_keys_of_mem h))
    have he := List.inj_on_of_nodup_map m.nodup_keys h (found w hw) rfl
    rw [hw, (Prod.mk.inj he).2]
  · exact found v

/-- Maps with the same lookups have the same entries, up to order. -/
theorem perm_of_lookup_eq {m m' : OrderedMap κ ν} (h : ∀ k, m.lookup k = m'.lookup k) :
    m.entries.Perm m'.entries := by
  apply (List.perm_ext_iff_of_nodup m.nodup_keys.of_map m'.nodup_keys.of_map).2
  rintro ⟨k, v⟩
  rw [mem_entries_iff, mem_entries_iff, h]

/-- Write `v` at `k`. -/
def assign (m : OrderedMap κ ν) (k : κ) (v : ν) : OrderedMap κ ν where
  entries := m.entries.assign k v
  nodup_keys := by
    rw [List.map_fst_assign]
    split_ifs with h
    · exact m.nodup_keys
    · rw [← List.concat_eq_append]
      exact m.nodup_keys.concat h

@[simp] theorem lookup_assign (m : OrderedMap κ ν) (k k' : κ) (v : ν) :
    (m.assign k v).lookup k' = if k' = k then some v else m.lookup k' :=
  List.lookup_assign k k' v m.entries

theorem keys_assign_of_notMem {m : OrderedMap κ ν} {k : κ} (h : k ∉ m.keys) (v : ν) :
    (m.assign k v).keys = m.keys ++ [k] :=
  (List.map_fst_assign k v m.entries).trans (if_neg h)

/-! ### Lists as maps -/

private theorem map_fst_zipIdx (l : List ν) :
    (l.zipIdx.map Prod.swap).map Prod.fst = List.range l.length := by
  rw [List.map_map, List.range_eq_range']
  exact List.zipIdx_map_snd 0 l

/-- The elements of a list under their indices. -/
def ofList (l : List ν) : OrderedMap ℕ ν where
  entries := l.zipIdx.map Prod.swap
  nodup_keys := by
    rw [map_fst_zipIdx]
    exact List.nodup_range

@[simp] theorem keys_ofList (l : List ν) : (ofList l).keys = List.range l.length :=
  map_fst_zipIdx l

@[simp] theorem lookup_ofList (l : List ν) (i : ℕ) : (ofList l).lookup i = l[i]? := by
  apply Option.ext
  intro v
  show (ofList l).lookup i = some v ↔ l[i]? = some v
  rw [← mem_entries_iff]
  simp [ofList, List.mk_mem_zipIdx_iff_getElem?]

/-- A map whose keys are `0`, `1`, … in order is the list of its values. -/
theorem eq_ofList {m : OrderedMap ℕ ν} {n : ℕ} (h : m.keys = List.range n) :
    m = ofList (m.entries.map Prod.snd) := by
  have hlen : m.entries.length = n := by simpa [keys] using congrArg List.length h
  refine OrderedMap.ext (List.ext_getElem (by simp [ofList]) fun i hi _ => ?_)
  have hkey : m.keys[i]? = (List.range n)[i]? := by rw [h]
  simp only [keys, List.getElem?_map, List.getElem?_eq_getElem hi,
    List.getElem?_range (hlen ▸ hi)] at hkey
  simp only [ofList, List.getElem_map, List.getElem_zipIdx, Prod.swap_prod_mk]
  exact Prod.ext (by simpa using hkey) rfl

/-- Write the elements of a list under consecutive keys. -/
def assignFrom (m : OrderedMap ℕ ν) (k : ℕ) : List ν → OrderedMap ℕ ν
  | [] => m
  | v :: l => assignFrom (m.assign k v) (k + 1) l

/-- New consecutive keys go to the end, in order. -/
theorem keys_assignFrom {m : OrderedMap ℕ ν} {k : ℕ} {l : List ν}
    (h : ∀ i < l.length, k + i ∉ m.keys) :
    (m.assignFrom k l).keys = m.keys ++ List.range' k l.length := by
  induction l generalizing m k with
  | nil => simp [assignFrom]
  | cons v l ih =>
    have hk : k ∉ m.keys := h 0 (Nat.zero_lt_succ _)
    rw [assignFrom, ih, keys_assign_of_notMem hk, List.length_cons, List.range'_succ,
      List.append_assoc, List.singleton_append]
    intro i hi hmem
    rw [keys_assign_of_notMem hk, List.mem_append, List.mem_singleton] at hmem
    rcases hmem with hmem | hmem
    · exact h (i + 1) (Nat.succ_lt_succ hi) (by rwa [show k + (i + 1) = k + 1 + i by omega])
    · omega

/-! ### Replacement and removal -/

/-- Replacing a value keeps the keys. -/
private theorem map_fst_replace (l : List (κ × ν)) (k : κ) (v : ν) :
    (l.map fun e => if e.1 = k then (k, v) else e).map Prod.fst = l.map Prod.fst := by
  rw [List.map_map]
  refine List.map_congr_left fun e _ => ?_
  simp only [Function.comp_apply]
  split_ifs with he
  · exact he.symm
  · rfl

/-- Replace the value at `k`, in place; nothing happens when `k` is absent. -/
def replace (m : OrderedMap κ ν) (k : κ) (v : ν) : OrderedMap κ ν where
  entries := m.entries.map fun e => if e.1 = k then (k, v) else e
  nodup_keys := by
    rw [map_fst_replace]
    exact m.nodup_keys

/-- Remove the entry at `k`. -/
def erase (m : OrderedMap κ ν) (k : κ) : OrderedMap κ ν where
  entries := m.entries.filter fun e => e.1 ≠ k
  nodup_keys := m.nodup_keys.sublist (List.filter_sublist.map Prod.fst)

@[simp] theorem keys_replace (m : OrderedMap κ ν) (k : κ) (v : ν) :
    (m.replace k v).keys = m.keys :=
  map_fst_replace m.entries k v

theorem mem_replace_of_ne (m : OrderedMap κ ν) {k : κ} (v : ν) {e : κ × ν} (he : e.1 ≠ k) :
    e ∈ (m.replace k v).entries ↔ e ∈ m.entries := by
  simp only [replace, List.mem_map]
  constructor
  · rintro ⟨e', he', rfl⟩
    split_ifs at he ⊢ with hk
    · exact absurd rfl he
    · exact he'
  · intro h
    exact ⟨e, h, if_neg he⟩

theorem mem_replace_self (m : OrderedMap κ ν) {k : κ} (v : ν) (h : k ∈ m.keys) :
    (k, v) ∈ (m.replace k v).entries := by
  obtain ⟨e, he, rfl⟩ := List.mem_map.1 h
  exact List.mem_map.2 ⟨e, he, if_pos rfl⟩

theorem replace_of_notMem (m : OrderedMap κ ν) {k : κ} (v : ν) (h : k ∉ m.keys) :
    m.replace k v = m :=
  OrderedMap.ext (List.map_ite_key_of_notMem h fun _ => (k, v))

/-- The position of a key is the only one a replacement touches. -/
theorem entries_replace (m : OrderedMap κ ν) (v : ν) {i : ℕ} (hi : i < m.entries.length) :
    (m.replace (m.entries[i]).1 v).entries = m.entries.set i ((m.entries[i]).1, v) := by
  rw [List.set_eq_modify]
  exact List.map_ite_key_eq_modify m.nodup_keys hi fun _ => ((m.entries[i]).1, v)

/-- Erasing a key removes at most one entry. -/
theorem length_le_length_erase_add_one (m : OrderedMap κ ν) (k : κ) :
    m.entries.length ≤ (m.erase k).entries.length + 1 := by
  by_cases hk : k ∈ m.keys
  · obtain ⟨e, he, rfl⟩ := List.mem_map.1 hk
    obtain ⟨i, hi, rfl⟩ := List.getElem_of_mem he
    have herase : (m.erase m.entries[i].1).entries = m.entries.eraseIdx i :=
      List.filter_key_ne_eq_eraseIdx m.nodup_keys hi
    have hlength := List.length_eraseIdx_of_lt hi
    rw [herase]
    omega
  · have herase : (m.erase k).entries = m.entries := List.filter_key_ne_of_notMem hk
    rw [herase]
    exact Nat.le_succ _

end OrderedMap
