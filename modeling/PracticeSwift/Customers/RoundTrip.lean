import PracticeSwift.Customers.Customer

/-!
# Writing customers and reading them back

A list of dictionaries written at the node is stored under `"0"`, `"1"`, …, and read back as an
array.  What gets lost on the way is an empty array of books: it is not stored, and the synthesized
decoder of a customer insists on the key.  One customer without books therefore spoils the whole
list, and every other list comes back as it was.
-/

open RealtimeDatabase RealtimeDatabase.Node

namespace PracticeSwift.Customers

/-- `db.updateChildValues(["customers": customers.map { $0.toDictionary }])` -/
def updateChildValues (customers : List Customer) (db : Node) : Node :=
  setValue ["customers"] (ofJson (.array (customers.map Customer.toDictionary))) db

/-- The write of `updateCustomers`. -/
theorem writeBack_eq {dic : List Customer} (hdic : dic ≠ []) (db : Node) :
    writeBack dic db = updateChildValues (renameFirst dic) db := by
  rw [writeBack, if_neg (by simpa using hdic)]
  rfl

/-- Without books there is no such child, and the customer does not decode. -/
theorem Customer.decode_tree_of_nil {customer : Customer} (h : customer.books = []) :
    Customer.decode (toJson customer.tree) = none := by
  obtain ⟨id, name, books⟩ := customer
  obtain rfl : books = [] := h
  rw [Customer.tree, toJson, toFields, exportChildren_cons (by decide)]
  simp [Customer.decode, ofFields, ofJson, ofElements, ofChildren, toFields, toJson, Json.field,
    List.lookup_cons]

/-- What is stored for the customers of a list decodes when all of them have books. -/
theorem mapM_decode_tree (customers : List Customer) :
    (customers.map (toJson ∘ Customer.tree)).mapM Customer.decode =
      if ∀ customer ∈ customers, customer.books ≠ [] then some customers else none := by
  split_ifs with hbooks
  · exact Json.mapM_map_of_decode fun customer hc => Customer.decode_tree (hbooks customer hc)
  · apply Option.eq_none_iff_forall_ne_some.2
    intro decoded hdecoded
    rw [Json.mapM_eq_some_iff, List.map_map] at hdecoded
    push Not at hbooks
    obtain ⟨customer, hc, hnil⟩ := hbooks
    have hnone : none ∈ customers.map (Customer.decode ∘ toJson ∘ Customer.tree) :=
      List.mem_map.2 ⟨customer, hc, Customer.decode_tree_of_nil hnil⟩
    rw [hdecoded] at hnone
    obtain ⟨_, -, hsome⟩ := List.mem_map.1 hnone
    exact absurd hsome (by simp)

/-- A non-empty list written at the node is read back as it was when every customer in it has a
book, and not at all otherwise. -/
theorem fetch_after_write {customers : List Customer} (hne : customers ≠ []) (db : Node) :
    fetchCustomers (updateChildValues customers db) =
      if ∀ customer ∈ customers, customer.books ≠ [] then some customers else none := by
  have hentries :
      (OrderedMap.ofList customers).entries.map (Prod.map toString Customer.tree) ≠ [] := by
    simpa [OrderedMap.ofList] using hne
  have hchild : (updateChildValues customers db).child "customers" =
      some (.node ((OrderedMap.ofList customers).entries.map
        (Prod.map toString Customer.tree))) := by
    rw [updateChildValues, child_setValue_self, setValue,
      ofJson_array _ _ fun c _ => c.ofJson_toDictionary]
    exact eq_node_of_children (children_ofChildren _) hentries
  have hfetch : fetchCustomers (updateChildValues customers db) =
      Json.array? Customer.decode (.array (customers.map (toJson ∘ Customer.tree))) := by
    rw [fetchCustomers, hchild, if_pos (by simpa [hasChildren, children] using hentries), value,
      toJson_ofList Customer.tree hne]
  rw [hfetch]
  exact mapM_decode_tree customers

/-- Two customers, over whatever was there before. -/
theorem fetch_after_write_two :
    fetchCustomers (updateChildValues [⟨"7", "Son", [⟨"Good to Great", "Someone"⟩]⟩,
        ⟨"", "", [⟨"", ""⟩, ⟨"Hacking Growth", "Somebody"⟩]⟩] none) =
      some [⟨"7", "Son", [⟨"Good to Great", "Someone"⟩]⟩,
        ⟨"", "", [⟨"", ""⟩, ⟨"Hacking Growth", "Somebody"⟩]⟩] :=
  (fetch_after_write (by decide) none).trans (by decide)

/-- A customer without books is stored and not read back. -/
theorem write_without_books :
    ¬ ∀ (customers : List Customer) (db : Node), customers ≠ [] →
      fetchCustomers (updateChildValues customers db) = some customers := by
  intro h
  have hfetch := h [⟨"0", "Son", []⟩] none (by decide)
  revert hfetch
  decide

end PracticeSwift.Customers
