import PracticeSwift.Library.RealtimeDatabase

/-!
# Customers in the database

The data model of the customers screen and its operations on the shared database.  A client writes
three customers at a time under keys taken from a counter of its process, reads the whole
`customers` node as an array, and updates by writing a whole array back.  `Represents` relates the
node to a map from integer keys to customers, and every operation is one of the map.
-/

open RealtimeDatabase RealtimeDatabase.Node

namespace PracticeSwift.Customers

/-! ## The data model -/

structure Book where
  title : String
  author : String
  deriving DecidableEq

structure Customer where
  id : String
  name : String
  books : List Book
  deriving DecidableEq

namespace Book

def toDictionary (book : Book) : Json :=
  .object [("title", .string book.title), ("author", .string book.author)]

/-- `init(from:)` of the synthesized `Codable`. -/
def decode (json : Json) : Option Book := do
  let title ← (← json.field "title").string?
  let author ← (← json.field "author").string?
  return ⟨title, author⟩

/-- What the database stores for a book. -/
def tree (book : Book) : Tree :=
  .node [("title", .leaf (.string book.title)), ("author", .leaf (.string book.author))]

theorem ofJson_toDictionary (book : Book) : ofJson book.toDictionary = some book.tree := rfl

theorem decode_tree (book : Book) : decode (toJson book.tree) = some book := by
  rw [tree, toJson, toFields, exportChildren_cons (by decide)]
  simp [decode, toFields, toJson, Json.field, List.lookup_cons, Json.string?]

end Book

namespace Customer

def toDictionary (customer : Customer) : Json :=
  .object [("id", .string customer.id), ("name", .string customer.name),
    ("books", .array (customer.books.map Book.toDictionary))]

/-- `init(from:)` of the synthesized `Codable`; `static var id` is no part of it. -/
def decode (json : Json) : Option Customer := do
  let id ← (← json.field "id").string?
  let name ← (← json.field "name").string?
  let books ← (← json.field "books").array? Book.decode
  return ⟨id, name, books⟩

/-- What the database stores for a customer; without books there is no such child. -/
def tree (customer : Customer) : Tree :=
  .node (("id", .leaf (.string customer.id)) :: ("name", .leaf (.string customer.name)) ::
    ofFields [("books", .array (customer.books.map Book.toDictionary))])

theorem ofJson_toDictionary (customer : Customer) :
    ofJson customer.toDictionary = some customer.tree := rfl

/-- The node of a customer who has books. -/
theorem tree_of_books {customer : Customer} (h : customer.books ≠ []) :
    customer.tree = .node [("id", .leaf (.string customer.id)),
      ("name", .leaf (.string customer.name)),
      ("books", .node ((OrderedMap.ofList customer.books).entries.map
        (Prod.map toString Book.tree)))] := by
  have hbooks := ofJson_array Book.toDictionary Book.tree
    fun book (_ : book ∈ customer.books) => book.ofJson_toDictionary
  have hne : (OrderedMap.ofList customer.books).entries.map (Prod.map toString Book.tree) ≠ [] := by
    simpa [OrderedMap.ofList] using h
  obtain ⟨c, cs, hcs⟩ := List.exists_cons_of_ne_nil hne
  rw [hcs] at hbooks
  simp only [tree, ofFields, hbooks, hcs, ofChildren]

theorem decode_object (id name : String) (books : Json) :
    decode (.object [("id", .string id), ("name", .string name), ("books", books)]) =
      (books.array? Book.decode).map fun books => ⟨id, name, books⟩ := by
  simp [decode, Json.field, List.lookup_cons, Json.string?, Option.map_eq_bind]

/-- What is stored for a customer who has books decodes to the customer. -/
theorem decode_tree {customer : Customer} (h : customer.books ≠ []) :
    decode (toJson customer.tree) = some customer := by
  have hbooks : Json.array? Book.decode (toJson (.node
      ((OrderedMap.ofList customer.books).entries.map (Prod.map toString Book.tree)))) =
      some customer.books := by
    refine (array?_toJson (by simpa using h) (fun e _ => e.2.decode_tree) rfl _).2 ?_
    exact OrderedMap.lookup_ofList _
  rw [tree_of_books h, toJson, toFields, exportChildren_cons (by decide)]
  refine (decode_object customer.id customer.name _).trans ?_
  rw [hbooks]
  rfl

end Customer

/-! ## The operations -/

/-- The largest `Int`. -/
def maxInt : ℕ := 2 ^ 63 - 1

/-- `Customer.id += 1`; `none` is the trap on overflow. -/
def incrementId (id : ℕ) : Option ℕ :=
  if id < maxInt then some (id + 1) else none

/-- The customers that `saveCustomers` writes, in order, and the counter `Customer.id` afterwards. -/
def saveCustomers (id : ℕ) : Option (List Customer × ℕ) := do
  let books : List Book := [⟨"Good to Great", "Someone"⟩, ⟨"Hacking Growth", "Somebody"⟩]
  let customer1 : Customer := ⟨toString id, "SampleBody", books⟩
  let id ← incrementId id
  let customer2 : Customer := ⟨toString id, "Son", books⟩
  let id ← incrementId id
  let customer3 : Customer := ⟨toString id, "kane", books⟩
  let id ← incrementId id
  return ([customer1, customer2, customer3], id)

/-- `db.child("customers").child(customer.id).setValue(customer.toDictionary)` -/
def setCustomer (db : Node) (customer : Customer) : Node :=
  setValue ["customers", customer.id] (ofJson customer.toDictionary) db

/-- The list given to the callback; `none` when there is no callback. -/
def fetchCustomers (db : Node) : Option (List Customer) :=
  let snapshot := db.child "customers"
  if snapshot.hasChildren then Json.array? Customer.decode snapshot.value else none

/-- `customersArray[0].name = "Min"` -/
def renameFirst (customersArray : List Customer) : List Customer :=
  customersArray.modify 0 fun customer => { customer with name := "Min" }

/-- The callback of `updateCustomers`, which writes the whole array back. -/
def writeBack (dic : List Customer) (db : Node) : Node :=
  if dic.isEmpty then db
  else setValue ["customers"] (ofJson (.array ((renameFirst dic).map Customer.toDictionary))) db

def updateCustomers (db : Node) : Node :=
  match fetchCustomers db with
  | none => db
  | some dic => writeBack dic db

def deleteCustomers (db : Node) : Node :=
  setValue ["customers"] none db

theorem incrementId_eq_some {id id' : ℕ} (h : incrementId id = some id') : id' = id + 1 := by
  unfold incrementId at h
  split_ifs at h
  exact (Option.some.inj h).symm

/-- The customers written by a call that starts at `id`. -/
def newCustomers (id : ℕ) : List Customer :=
  let books : List Book := [⟨"Good to Great", "Someone"⟩, ⟨"Hacking Growth", "Somebody"⟩]
  [⟨toString id, "SampleBody", books⟩, ⟨toString (id + 1), "Son", books⟩,
    ⟨toString (id + 2), "kane", books⟩]

theorem saveCustomers_eq_some {id id' : ℕ} {customers : List Customer}
    (h : saveCustomers id = some (customers, id')) :
    customers = newCustomers id ∧ id' = id + 3 := by
  simp only [saveCustomers, Option.bind_eq_bind, Option.bind_eq_some_iff, Option.pure_def,
    Option.some.injEq, Prod.mk.injEq] at h
  obtain ⟨id₁, h₁, id₂, h₂, id₃, h₃, hcustomers, hid⟩ := h
  obtain rfl := incrementId_eq_some h₁
  obtain rfl := incrementId_eq_some h₂
  obtain rfl := incrementId_eq_some h₃
  exact ⟨hcustomers.symm, hid.symm⟩

/-- What follows a `saveCustomers` that does not trap gets the new customers and the counter three
further on. -/
theorem eq_some_of_saveCustomers {α : Type} {id : ℕ} {f : List Customer × ℕ → Option α} {a : α}
    (h : saveCustomers id >>= f = some a) : f (newCustomers id, id + 3) = some a := by
  obtain ⟨⟨customers, id'⟩, hsave, ha⟩ := Option.bind_eq_some_iff.1 h
  obtain ⟨rfl, rfl⟩ := saveCustomers_eq_some hsave
  exact ha

/-! ## The customers node as a map -/

/-- The children of the `customers` node. -/
def customersNode (db : Node) : List (String × Tree) := (db.child "customers").children

/-- What is stored for a customer. -/
def stored (db : Node) (key : String) : Node := (customersNode db).lookup key

/-- The node holds the customers of the map under its keys, and they have books. -/
structure Represents (db : Node) (m : OrderedMap ℕ Customer) : Prop where
  node : customersNode db = m.entries.map (Prod.map toString Customer.tree)
  books : ∀ e ∈ m.entries, e.2.books ≠ []

theorem Represents.stored_eq {db : Node} {m : OrderedMap ℕ Customer} (h : Represents db m)
    (key : String) : stored db key = ((index? key).bind m.lookup).map Customer.tree := by
  rw [stored, h.node, lookup_eq_bind_index?]

theorem Represents.stored_eq_none_iff {db : Node} {m : OrderedMap ℕ Customer} (h : Represents db m)
    (k : ℕ) : stored db (toString k) = none ↔ k ∉ m.keys := by
  rw [h.stored_eq, index?_toString, Option.bind_some, Option.map_eq_none_iff,
    OrderedMap.lookup_eq_none_iff]

theorem Represents.length_customersNode {db : Node} {m : OrderedMap ℕ Customer}
    (h : Represents db m) : (customersNode db).length = m.keys.length := by
  rw [h.node, OrderedMap.keys, List.length_map, List.length_map]

theorem Represents.books_of_lookup {db : Node} {m : OrderedMap ℕ Customer} (h : Represents db m)
    {i : ℕ} {customer : Customer} (hi : m.lookup i = some customer) : customer.books ≠ [] :=
  h.books _ ((m.mem_entries_iff i customer).2 hi)

/-- A fetch succeeds with `dic` when the node holds the elements of `dic` under their indices and
nothing else. -/
theorem Represents.fetchCustomers_eq_some_iff {db : Node} {m : OrderedMap ℕ Customer}
    (h : Represents db m) (dic : List Customer) :
    fetchCustomers db = some dic ↔ dic ≠ [] ∧ ∀ i, m.lookup i = dic[i]? := by
  have hnode : (db.child "customers").children = _ := h.node
  by_cases hm : m.entries = []
  · have hfetch : fetchCustomers db = none := by
      simp [fetchCustomers, hasChildren, hnode, hm]
    rw [hfetch]
    refine iff_of_false nofun ?_
    rintro ⟨hdic, hlookup⟩
    have hzero : m.lookup 0 = none := by simp [OrderedMap.lookup, hm]
    exact hdic (List.length_eq_zero_iff.1
      (Nat.le_zero.1 (List.getElem?_eq_none_iff.1 ((hlookup 0).symm.trans hzero))))
  · have hkeys : m.keys ≠ [] := by simpa [OrderedMap.keys] using hm
    have hsome := eq_node_of_children hnode (by simpa using hm)
    have hfetch : fetchCustomers db = Json.array? Customer.decode
        (toJson (.node (m.entries.map (Prod.map toString Customer.tree)))) := by
      simp [fetchCustomers, hasChildren, hsome, children, value, hm]
    rw [hfetch, array?_toJson hkeys (fun e he => Customer.decode_tree (h.books e he)) rfl]
    constructor
    · intro hlookup
      refine ⟨?_, hlookup⟩
      rintro rfl
      have := (largest_of_lookup hkeys hlookup).2
      simp at this
    · exact And.right

/-! ### The operations on the map -/

theorem customersNode_setCustomer (db : Node) (customer : Customer) :
    customersNode (setCustomer db customer) =
      (customersNode db).assign customer.id customer.tree := by
  rw [customersNode, setCustomer, child_setValue_self, setValue, setValue,
    Customer.ofJson_toDictionary, children_setChild_some]
  rfl

theorem customersNode_writeBack {dic : List Customer} (hdic : dic ≠ []) (db : Node) :
    customersNode (writeBack dic db) =
      (OrderedMap.ofList (renameFirst dic)).entries.map (Prod.map toString Customer.tree) := by
  rw [customersNode, writeBack, if_neg (by simpa using hdic), child_setValue_self, setValue,
    ofJson_array _ _ fun c _ => c.ofJson_toDictionary, children_ofChildren]

theorem Represents.setCustomer {db : Node} {m : OrderedMap ℕ Customer} (h : Represents db m)
    {id : ℕ} {customer : Customer} (hid : customer.id = toString id) (hbooks : customer.books ≠ []) :
    Represents (setCustomer db customer) (m.assign id customer) where
  node := by
    rw [customersNode_setCustomer, h.node, hid, OrderedMap.assign,
      List.map_assign toString_injective]
  books := by
    rintro ⟨k, c⟩ he
    rw [OrderedMap.mem_entries_iff, OrderedMap.lookup_assign] at he
    split_ifs at he with hk
    · exact Option.some.inj he ▸ hbooks
    · exact h.books_of_lookup he

theorem Represents.deleteCustomers (db : Node) :
    Represents (deleteCustomers db) .empty where
  node := by
    rw [customersNode, Customers.deleteCustomers, child_setValue_self]
    rfl
  books := by
    rintro e ⟨⟩

/-- Customers written one after the other under consecutive keys. -/
theorem Represents.setCustomers {db : Node} {m : OrderedMap ℕ Customer} (h : Represents db m)
    {id : ℕ} {customers : List Customer}
    (hids : ∀ i (hi : i < customers.length), customers[i].id = toString (id + i))
    (hbooks : ∀ customer ∈ customers, customer.books ≠ []) :
    Represents (customers.foldl Customers.setCustomer db) (m.assignFrom id customers) := by
  induction customers generalizing db m id with
  | nil => exact h
  | cons customer customers ih =>
    refine ih (h.setCustomer (hids 0 (Nat.zero_lt_succ _)) (hbooks _ List.mem_cons_self)) ?_
      fun c hc => hbooks c (List.mem_cons_of_mem _ hc)
    intro i hi
    rw [show id + 1 + i = id + (i + 1) by omega]
    exact hids (i + 1) (Nat.succ_lt_succ hi)

theorem id_newCustomers (id i : ℕ) (hi : i < (newCustomers id).length) :
    (newCustomers id)[i].id = toString (id + i) := by
  match i, hi with
  | 0, _ | 1, _ | 2, _ => rfl

theorem books_newCustomers {id : ℕ} {customer : Customer} (h : customer ∈ newCustomers id) :
    customer.books ≠ [] := by
  simp only [newCustomers, List.mem_cons, List.not_mem_nil, or_false] at h
  rcases h with rfl | rfl | rfl <;> exact List.cons_ne_nil _ _

theorem Represents.saveCustomers {db : Node} {m : OrderedMap ℕ Customer} (h : Represents db m)
    (id : ℕ) :
    Represents ((newCustomers id).foldl Customers.setCustomer db)
      (m.assignFrom id (newCustomers id)) :=
  h.setCustomers (id_newCustomers id) fun _ hc => books_newCustomers hc

theorem books_renameFirst {dic : List Customer} (h : ∀ customer ∈ dic, customer.books ≠ []) :
    ∀ customer ∈ renameFirst dic, customer.books ≠ [] := by
  cases dic with
  | nil => exact h
  | cons first rest => exact List.forall_mem_cons.2 (List.forall_mem_cons.1 h)

/-- Whatever the node held, it holds the renamed list afterwards. -/
theorem Represents.writeBack {dic : List Customer} (hdic : dic ≠ [])
    (h : ∀ customer ∈ dic, customer.books ≠ []) (db : Node) :
    Represents (writeBack dic db) (.ofList (renameFirst dic)) where
  node := customersNode_writeBack hdic db
  books := by
    rintro ⟨k, c⟩ he
    rw [OrderedMap.mem_entries_iff, OrderedMap.lookup_ofList] at he
    exact books_renameFirst h c (List.mem_of_getElem? he)

theorem Represents.books_of_fetch {db : Node} {m : OrderedMap ℕ Customer} (h : Represents db m)
    {dic : List Customer} (hfetch : fetchCustomers db = some dic) :
    ∀ customer ∈ dic, customer.books ≠ [] := by
  intro customer hc
  obtain ⟨i, hi⟩ := List.getElem?_of_mem hc
  exact h.books_of_lookup ((((h.fetchCustomers_eq_some_iff dic).1 hfetch).2 i).trans hi)

/-- A write-back over the list it was read from is read back renamed. -/
theorem Represents.fetch_writeBack {db : Node} {m : OrderedMap ℕ Customer} (h : Represents db m)
    {dic : List Customer} (hfetch : fetchCustomers db = some dic) :
    fetchCustomers (Customers.writeBack dic db) = some (renameFirst dic) := by
  have hne := ((h.fetchCustomers_eq_some_iff dic).1 hfetch).1
  have h' := Represents.writeBack hne (h.books_of_fetch hfetch) db
  refine (h'.fetchCustomers_eq_some_iff _).2 ⟨?_, OrderedMap.lookup_ofList _⟩
  simpa [renameFirst] using hne

/-- A write-back over the list it was read from changes the first customer only. -/
theorem Represents.stored_writeBack {db : Node} {m : OrderedMap ℕ Customer} (h : Represents db m)
    {dic : List Customer} (hfetch : fetchCustomers db = some dic) {key : String}
    (hkey : key ≠ "0") : stored (Customers.writeBack dic db) key = stored db key := by
  obtain ⟨hne, hlookup⟩ := (h.fetchCustomers_eq_some_iff dic).1 hfetch
  have h' := Represents.writeBack hne (h.books_of_fetch hfetch) db
  rw [h'.stored_eq, h.stored_eq]
  cases hindex : index? key with
  | none => rfl
  | some i =>
    have hi : i ≠ 0 := by
      rintro rfl
      exact hkey (toString_of_index? hindex).symm
    rw [Option.bind_some, Option.bind_some, OrderedMap.lookup_ofList, hlookup, renameFirst,
      List.getElem?_modify_ne _ dic hi.symm]

end PracticeSwift.Customers
