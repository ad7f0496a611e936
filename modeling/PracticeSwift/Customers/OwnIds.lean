import PracticeSwift.Customers.WriteBack

/-!
# Customers under their own identifiers

A creation stores a customer under its identifier, a write-back stores it under its position in the
list that was read.  A list is only read from a node that has no gap, so that its positions are the
keys it was stored under, and these are the identifiers again: both ways of writing agree, however
late the write-back comes.
-/

open RealtimeDatabase RealtimeDatabase.Node Transition

namespace PracticeSwift.Customers

theorem getElem?_renameFirst (dic : List Customer) (i : ℕ) :
    ((renameFirst dic)[i]?).map Customer.id = (dic[i]?).map Customer.id := by
  cases dic with
  | nil => rfl
  | cons first rest => cases i <;> rfl

namespace Network

/-- Every stored customer has its key for an identifier, every customer that was read its
position. -/
structure OwnIds (s : Network) : Prop where
  stored : ∃ m, Represents s.database m ∧
    ∀ k customer, m.lookup k = some customer → customer.id = toString k
  snapshots : ∀ dic ∈ s.snapshots, ∀ (i : ℕ) (customer : Customer),
    dic[i]? = some customer → customer.id = toString i

theorem OwnIds.step {start : Node} {past : List NetworkEvent} {s s' : Network} {e : NetworkEvent}
    (hvalid : Valid start past s) (h : OwnIds s) (hs : Step s e s') : OwnIds s' := by
  obtain ⟨m, hm, hids⟩ := h.stored
  cases hs with
  | createCustomer launch => exact ⟨⟨m, hm, hids⟩, h.snapshots⟩
  | @write launch customer rest unsent =>
    have hmem : customer ∈ s.unsent launch := unsent ▸ List.mem_cons_self
    obtain ⟨⟨id, hid⟩, hbooks⟩ := hvalid.unsent launch customer hmem
    refine ⟨⟨_, hm.setCustomer hid hbooks, fun k c hk => ?_⟩, h.snapshots⟩
    rw [OrderedMap.lookup_assign] at hk
    split_ifs at hk with hkey
    · obtain rfl := Option.some.inj hk
      rw [hkey, hid]
    · exact hids k c hk
  | failedRead => exact ⟨⟨m, hm, hids⟩, h.snapshots⟩
  | @read dic fetched =>
    have hlookup := ((hm.fetchCustomers_eq_some_iff dic).1 fetched).2
    refine ⟨⟨m, hm, hids⟩, List.forall_mem_cons.2 ⟨fun i customer hi => ?_, h.snapshots⟩⟩
    exact hids i customer ((hlookup i).trans hi)
  | @writeBack dic pending =>
    obtain ⟨hne, hbooks, -⟩ := hvalid.snapshots dic pending
    refine ⟨⟨_, .writeBack hne hbooks _, fun k c hk => ?_⟩,
      fun dic' hdic => h.snapshots dic' (List.mem_of_mem_erase hdic)⟩
    -- renaming the first customer keeps all identifiers
    rw [OrderedMap.lookup_ofList] at hk
    have hrename := getElem?_renameFirst dic k
    rw [hk, Option.map_some] at hrename
    obtain ⟨customer, hcustomer, hid⟩ := Option.map_eq_some_iff.1 hrename.symm
    rw [← hid]
    exact h.snapshots dic pending k customer hcustomer
  | deleteCustomer => exact ⟨⟨_, .deleteCustomers _, by simp⟩, h.snapshots⟩

theorem ownIds_of_run {start : Node} (hstart : customersNode start = [])
    {past : List NetworkEvent} {s : Network} (h : (system start).Run past s) : OwnIds s := by
  have hempty : Represents start .empty := ⟨hstart, nofun⟩
  refine h.invariant (I := fun _ => OwnIds) ?_ fun past s e s' hrun hs hstep =>
    hs.step (valid_of_run hempty hrun) (step_cases hstep)
  rintro _ rfl
  exact ⟨⟨.empty, hempty, by simp⟩, fun dic hdic => absurd hdic List.not_mem_nil⟩

/-- In every run on an empty node, whatever is stored under a key of the node is a customer who has
that key for an identifier. -/
theorem stored_under_own_id {start : Node} (hstart : customersNode start = [])
    {past : List NetworkEvent} {s : Network} (h : (system start).Run past s) :
    ∀ entry ∈ customersNode s.database, ∃ customer : Customer, entry.2 = customer.tree ∧
      Customer.decode (toJson entry.2) = some customer ∧ customer.id = entry.1 := by
  obtain ⟨m, hm, hids⟩ := (ownIds_of_run hstart h).stored
  intro entry hentry
  rw [hm.node] at hentry
  obtain ⟨⟨k, customer⟩, he, rfl⟩ := List.mem_map.1 hentry
  refine ⟨customer, rfl, Customer.decode_tree (hm.books _ he), ?_⟩
  exact hids k customer ((m.mem_entries_iff k customer).1 he)

/-- The write-back of a list read before a deletion. -/
theorem stored_under_own_id_written_back :
    ∃ s, (system none).Run [.writeBack (newCustomers 0), .deleteCustomer, .read, .write 0, .write 0,
        .write 0, .createCustomer 0] s ∧
      (customersNode s.database).map Prod.fst = ["0", "1", "2"] ∧
      ∀ entry ∈ customersNode s.database, ∃ customer : Customer, entry.2 = customer.tree ∧
        Customer.decode (toJson entry.2) = some customer ∧ customer.id = entry.1 := by
  have hrun : (system none).Run [.writeBack (newCustomers 0), .deleteCustomer, .read, .write 0,
      .write 0, .write 0, .createCustomer 0] _ :=
    .step (.step (.step (.step (.step (.step (.step (.start rfl) rfl) rfl) rfl) rfl) rfl) rfl) rfl
  exact ⟨_, hrun, by decide, stored_under_own_id rfl hrun⟩

end Network

end PracticeSwift.Customers
