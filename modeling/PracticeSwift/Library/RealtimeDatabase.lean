import PracticeSwift.Library.Json
import PracticeSwift.Library.OrderedMap
import Mathlib.Data.Nat.Digits.Defs

/-!
# A realtime database

One JSON-like tree written at paths.  A node without a value is absent: nulls and empty containers
are not stored, and a node disappears with its last child.  Arrays are stored under the keys
`"0"`, `"1"`, …; a node whose keys are all integers reads back as an array when they are dense
enough, with a null in every gap, and as a dictionary otherwise (`exportChildren`).  Such a node
holds a list exactly when the keys are those of the list (`array?_toJson`).
-/

namespace RealtimeDatabase

/-! ## Trees -/

/-- The values at the leaves. -/
inductive Scalar
  | bool (b : Bool)
  | number (q : ℚ)
  | string (s : String)

/-- A stored value. -/
inductive Tree
  | leaf (value : Scalar)
  | node (children : List (String × Tree))

/-- What is stored at a path; nothing is `none`. -/
abbrev Node := Option Tree

namespace Node

/-- A node with these children, absent when there are none. -/
def ofChildren : List (String × Tree) → Node
  | [] => none
  | children => some (.node children)

def children : Node → List (String × Tree)
  | some (.node children) => children
  | _ => []

def hasChildren (node : Node) : Bool := !node.children.isEmpty

def child (key : String) (node : Node) : Node := node.children.lookup key

/-- Write a child; writing nothing removes it. -/
def setChild (key : String) (value node : Node) : Node :=
  match value with
  | some tree => some (.node (node.children.assign key tree))
  | none =>
    match node with
    | some (.node children) => ofChildren (children.filter fun c => c.1 ≠ key)
    | _ => node

/-- Write a value at a path; writing nothing removes what was there. -/
def setValue : List String → Node → Node → Node
  | [], value, _ => value
  | key :: path, value, node => setChild key (setValue path value (node.child key)) node

@[simp] theorem children_ofChildren (cs : List (String × Tree)) : (ofChildren cs).children = cs := by
  cases cs <;> rfl

theorem eq_node_of_children {node : Node} {cs : List (String × Tree)} (h : node.children = cs)
    (hcs : cs ≠ []) : node = some (.node cs) := by
  match node, h with
  | some (.node _), rfl => rfl
  | none, rfl | some (.leaf _), rfl => exact absurd rfl hcs

@[simp] theorem children_setChild_some (key : String) (tree : Tree) (node : Node) :
    (setChild key (some tree) node).children = node.children.assign key tree := rfl

/-- A write at a child is seen there and nowhere else. -/
@[simp] theorem child_setChild (key key' : String) (value node : Node) :
    (setChild key value node).child key' = if key' = key then value else node.child key' := by
  cases value with
  | some tree => exact List.lookup_assign key key' tree node.children
  | none =>
    match node with
    | none | some (.leaf _) => exact (ite_self none).symm
    | some (.node cs) =>
      show (ofChildren _).children.lookup key' = _
      rw [children_ofChildren]
      exact List.lookup_filter_ne key key' cs

/-- A write below one child of the root leaves the others alone. -/
theorem child_setValue_of_ne {key key' : String} (h : key' ≠ key) (path : List String)
    (value node : Node) : (setValue (key :: path) value node).child key' = node.child key' := by
  rw [setValue, child_setChild, if_neg h]

/-- A write below a child is a write at the child. -/
theorem child_setValue_self (key : String) (path : List String) (value node : Node) :
    (setValue (key :: path) value node).child key = setValue path value (node.child key) := by
  rw [setValue, child_setChild, if_pos rfl]

/-- Write several children of the root, one after the other. -/
def setValues (values : List (String × Node)) (node : Node) : Node :=
  values.foldl (fun node value => setValue [value.1] value.2 node) node

/-- Different children of the root do not get in each other's way. -/
theorem child_setValues {values : List (String × Node)} (h : (values.map Prod.fst).Nodup)
    (key : String) (node : Node) :
    (setValues values node).child key = (values.lookup key).getD (node.child key) := by
  induction values generalizing node with
  | nil => rfl
  | cons value values ih =>
    obtain ⟨hnotMem, hnodup⟩ := List.nodup_cons.1 h
    rw [setValues, List.foldl_cons, List.lookup_cons]
    refine (ih hnodup _).trans ?_
    by_cases hkey : key = value.1
    · have hlookup : values.lookup key = none := by
        rw [List.lookup_eq_none_iff]
        rintro c hc
        rw [bne_iff_ne]
        rintro rfl
        exact hnotMem (hkey ▸ List.mem_map_of_mem hc)
      rw [hlookup, beq_iff_eq.2 hkey, hkey, child_setValue_self]
      rfl
    · rw [beq_false_of_ne hkey, child_setValue_of_ne hkey]

end Node

/-! ## Writing JSON -/

mutual

/-- The node that stores a JSON value. -/
def ofJson : Json → Node
  | .null => none
  | .bool b => some (.leaf (.bool b))
  | .number q => some (.leaf (.number q))
  | .string s => some (.leaf (.string s))
  | .array elements => Node.ofChildren (ofElements 0 elements)
  | .object fields => Node.ofChildren (ofFields fields)

/-- The children that store the elements of an array from index `i` on. -/
def ofElements : ℕ → List Json → List (String × Tree)
  | _, [] => []
  | i, element :: elements =>
    match ofJson element with
    | none => ofElements (i + 1) elements
    | some tree => (toString i, tree) :: ofElements (i + 1) elements

/-- The children that store the fields of a dictionary. -/
def ofFields : List (String × Json) → List (String × Tree)
  | [] => []
  | (key, value) :: fields =>
    match ofJson value with
    | none => ofFields fields
    | some tree => (key, tree) :: ofFields fields

end

/-- Elements that are stored at all are stored under their indices. -/
theorem ofElements_map {α : Type*} (json : α → Json) (tree : α → Tree) {l : List α}
    (h : ∀ a ∈ l, ofJson (json a) = some (tree a)) (i : ℕ) :
    ofElements i (l.map json) = (l.zipIdx i).map fun a => (toString a.2, tree a.1) := by
  induction l generalizing i with
  | nil => rfl
  | cons a l ih =>
    rw [List.map_cons, ofElements, h a List.mem_cons_self, List.zipIdx_cons, List.map_cons,
      ih fun b hb => h b (List.mem_cons_of_mem a hb)]

/-- A list written at a node is stored under its indices. -/
theorem ofJson_array {α : Type*} (json : α → Json) (tree : α → Tree) {l : List α}
    (h : ∀ a ∈ l, ofJson (json a) = some (tree a)) :
    ofJson (.array (l.map json)) =
      Node.ofChildren ((OrderedMap.ofList l).entries.map (Prod.map toString tree)) := by
  rw [ofJson, ofElements_map json tree h, OrderedMap.ofList, List.map_map]
  rfl

/-! ## Reading JSON -/

/-- The key as an integer, when that is how the integer is written. -/
def index? (key : String) : Option ℕ :=
  let n := Nat.ofDigitChars 10 key.toList 0
  if toString n = key then some n else none

@[simp] theorem index?_toString (n : ℕ) : index? (toString n) = some n := by
  unfold index?
  simp

theorem toString_of_index? {key : String} {n : ℕ} (h : index? key = some n) : toString n = key := by
  simp only [index?] at h
  split_ifs at h with hkey
  exact Option.some.inj h ▸ hkey

theorem toString_injective : Function.Injective (toString : ℕ → String) := by
  intro a b h
  have hindex := congrArg index? h
  rw [index?_toString, index?_toString] at hindex
  exact Option.some.inj hindex

def largest (indices : List ℕ) : ℕ := indices.foldr max 0

theorem largest_le_iff (indices : List ℕ) (b : ℕ) : largest indices ≤ b ↔ ∀ i ∈ indices, i ≤ b := by
  induction indices with
  | nil => simp [largest]
  | cons i indices ih =>
    rw [List.forall_mem_cons, ← ih]
    exact max_le_iff

/-- How the children of a node are read. -/
def exportChildren (children : List (String × Json)) : Json :=
  match children.mapM fun c => index? c.1 with
  | none => .object children
  | some indices =>
    if largest indices < 2 * indices.length then
      .array ((List.range (largest indices + 1)).map fun i =>
        (children.lookup (toString i)).getD .null)
    else .object children

/-- A key that is no integer makes a dictionary. -/
theorem exportChildren_cons {key : String} (h : index? key = none) (value : Json)
    (children : List (String × Json)) :
    exportChildren ((key, value) :: children) = .object ((key, value) :: children) := by
  unfold exportChildren
  rw [List.mapM_cons, h]
  rfl

mutual

/-- The JSON value a tree is read as. -/
def toJson : Tree → Json
  | .leaf (.bool b) => .bool b
  | .leaf (.number q) => .number q
  | .leaf (.string s) => .string s
  | .node children => exportChildren (toFields children)

def toFields : List (String × Tree) → List (String × Json)
  | [] => []
  | (key, tree) :: children => (key, toJson tree) :: toFields children

end

theorem toFields_eq_map (children : List (String × Tree)) :
    toFields children = children.map (Prod.map id toJson) := by
  induction children with
  | nil => rfl
  | cons c children ih => rw [toFields, ih]; rfl

theorem toJson_node_map {α κ : Type*} (key : κ → String) (tree : α → Tree) (l : List (κ × α)) :
    toJson (.node (l.map (Prod.map key tree))) =
      exportChildren (l.map (Prod.map key (toJson ∘ tree))) := by
  rw [toJson, toFields_eq_map, List.map_map]
  rfl

/-- What a snapshot of a node gives as its value. -/
def Node.value : Node → Json
  | none => .null
  | some tree => toJson tree

/-! ## Lists under integer keys -/

section

variable {α : Type*}

theorem mapM_range_eq_some_iff (f : ℕ → Option α) (n : ℕ) (r : List α) :
    (List.range n).mapM f = some r ↔ r.length = n ∧ ∀ i < n, f i = r[i]? := by
  rw [Json.mapM_eq_some_iff]
  constructor
  · intro h
    have hlen : r.length = n := by simpa using (congrArg List.length h).symm
    refine ⟨hlen, fun i hi => ?_⟩
    have hi' := congrArg (fun l => l[i]?) h
    simpa [hi, hlen] using hi'
  · rintro ⟨rfl, h⟩
    refine List.ext_getElem (by simp) fun i hi _ => ?_
    have hi : i < r.length := by simpa using hi
    simp [h i hi, hi]

/-- A map that looks up what a list does has the keys of the list. -/
theorem keys_perm_range {m : OrderedMap ℕ α} {r : List α} (h : ∀ i, m.lookup i = r[i]?) :
    m.keys.Perm (List.range r.length) := by
  have hperm : m.entries.Perm (OrderedMap.ofList r).entries := by
    apply OrderedMap.perm_of_lookup_eq
    intro i
    rw [h, OrderedMap.lookup_ofList]
  rw [← OrderedMap.keys_ofList r]
  exact hperm.map Prod.fst

/-- Keys `0` to `n - 1` are dense: the largest is below twice their number. -/
theorem largest_of_lookup {m : OrderedMap ℕ α} {r : List α} (hm : m.keys ≠ [])
    (h : ∀ i, m.lookup i = r[i]?) :
    m.keys.length = r.length ∧ largest m.keys + 1 = r.length := by
  have hperm := keys_perm_range h
  have hlen : m.keys.length = r.length := by simpa using hperm.length_eq
  have hpos : 0 < r.length := hlen ▸ List.length_pos_of_ne_nil hm
  have hmem : ∀ i, i ∈ m.keys ↔ i < r.length := by
    intro i
    rw [hperm.mem_iff, List.mem_range]
  have hle := (largest_le_iff m.keys (r.length - 1)).2 fun i hi => by
    have := (hmem i).1 hi
    omega
  have hge := (largest_le_iff m.keys _).1 le_rfl (r.length - 1) ((hmem _).2 (by omega))
  omega

/-- Looking up every index up to the largest key gives the list `r` when the map holds `r` and
nothing else. -/
theorem mapM_lookup_eq_some_iff {m : OrderedMap ℕ α} (hm : m.keys ≠ []) (r : List α) :
    (List.range (largest m.keys + 1)).mapM m.lookup = some r ↔ ∀ i, m.lookup i = r[i]? := by
  rw [mapM_range_eq_some_iff]
  constructor
  · rintro ⟨hlen, h⟩ i
    by_cases hi : i < largest m.keys + 1
    · exact h i hi
    · have hout : m.lookup i = none := by
        apply (m.lookup_eq_none_iff i).2
        intro hkey
        have := (largest_le_iff m.keys _).1 le_rfl i hkey
        omega
      rw [hout, List.getElem?_eq_none (by omega)]
  · intro h
    exact ⟨(largest_of_lookup hm h).2.symm, fun i _ => h i⟩

/-- The children of a node whose keys are all integers. -/
theorem mapM_index? (m : OrderedMap ℕ α) (json : α → Json) :
    ((m.entries.map (Prod.map toString json)).mapM fun c => index? c.1) = some m.keys := by
  rw [Json.mapM_eq_some_iff, List.map_map, OrderedMap.keys, List.map_map]
  refine List.map_congr_left fun e _ => ?_
  exact index?_toString e.1

/-- What is found under any key of a node whose keys are all integers. -/
theorem lookup_eq_bind_index? (m : OrderedMap ℕ α) (tree : α → Tree) (key : String) :
    (m.entries.map (Prod.map toString tree)).lookup key =
      ((index? key).bind m.lookup).map tree := by
  cases hkey : index? key with
  | some i =>
    obtain rfl := toString_of_index? hkey
    exact List.lookup_map toString_injective tree i m.entries
  | none =>
    apply List.lookup_eq_none_iff.2
    rintro c hc
    obtain ⟨e, -, rfl⟩ := List.mem_map.1 hc
    rw [bne_iff_ne]
    rintro rfl
    exact absurd ((index?_toString e.1).symm.trans hkey) nofun

/-- What a list was stored as is read as the list. -/
theorem toJson_ofList (tree : α → Tree) {l : List α} (hl : l ≠ []) :
    toJson (.node ((OrderedMap.ofList l).entries.map (Prod.map toString tree))) =
      .array (l.map (toJson ∘ tree)) := by
  have hkeys : (OrderedMap.ofList l).keys ≠ [] := by simpa using hl
  obtain ⟨hlen, hlargest⟩ := largest_of_lookup hkeys (OrderedMap.lookup_ofList l)
  have hdense : largest (OrderedMap.ofList l).keys < 2 * (OrderedMap.ofList l).keys.length := by
    omega
  rw [toJson_node_map]
  unfold exportChildren
  simp only [mapM_index?]
  rw [if_pos hdense, hlargest]
  refine congrArg Json.array (List.ext_getElem (by simp) fun i hi _ => ?_)
  have hi : i < l.length := by simpa using hi
  have hlookup := OrderedMap.lookup_ofList l i
  rw [List.getElem?_eq_getElem hi] at hlookup
  rw [List.getElem_map, List.getElem_map, List.getElem_range, List.lookup_map toString_injective]
  exact congrArg (fun a => (Option.map (toJson ∘ tree) a).getD .null) hlookup

/-- A node with integer keys is read as the list `r` exactly when it holds the elements of `r`
under the indices of `r` and nothing else: a gap leaves a null, which does not decode, and sparse
keys are read as a dictionary. -/
theorem array?_toJson {m : OrderedMap ℕ α} {tree : α → Tree} {decode : Json → Option α}
    (hm : m.keys ≠ []) (hdecode : ∀ e ∈ m.entries, decode (toJson (tree e.2)) = some e.2)
    (hnull : decode .null = none) (r : List α) :
    Json.array? decode (toJson (.node (m.entries.map (Prod.map toString tree)))) = some r ↔
      ∀ i, m.lookup i = r[i]? := by
  have hread : ∀ i, decode (((m.entries.map (Prod.map toString (toJson ∘ tree))).lookup
      (toString i)).getD .null) = m.lookup i := by
    intro i
    rw [List.lookup_map toString_injective]
    show decode (((m.lookup i).map (toJson ∘ tree)).getD .null) = m.lookup i
    cases hi : m.lookup i with
    | none => exact hnull
    | some a => exact hdecode (i, a) ((m.mem_entries_iff i a).2 hi)
  rw [toJson_node_map]
  unfold exportChildren
  simp only [mapM_index?]
  by_cases hdense : largest m.keys < 2 * m.keys.length
  · rw [if_pos hdense]
    have harray : ∀ n, Json.array? decode (.array ((List.range n).map fun i =>
        ((m.entries.map (Prod.map toString (toJson ∘ tree))).lookup (toString i)).getD .null)) =
        (List.range n).mapM m.lookup := by
      intro n
      exact List.mapM_map.trans (congrArg (List.mapM · _) (funext hread))
    rw [harray, mapM_lookup_eq_some_iff hm]
  · rw [if_neg hdense]
    refine iff_of_false nofun fun h => ?_
    have := largest_of_lookup hm h
    omega

end

end RealtimeDatabase
