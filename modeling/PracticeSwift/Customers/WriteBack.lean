import PracticeSwift.Customers.Customer
import PracticeSwift.Library.Transition
import Mathlib.Logic.Function.Basic

/-!
# The write-back of an update

Any number of clients share the database.  Every launch of the app has its own counter, the three
writes of a `createCustomer` reach the database one by one, and an `updateCustomer` is a read of the
whole node and, any time later, a write of the whole array that was read.  Nothing compares the node
with what was read, so the write-back makes the node the renamed snapshot whatever happened in
between.
-/

open RealtimeDatabase RealtimeDatabase.Node Transition

namespace PracticeSwift.Customers

/-- The clients by their launches, which are numbered. -/
abbrev Launch := ℕ

/-- The database and what the clients are about to send. -/
structure Network where
  database : Node
  ids : Launch → ℕ := fun _ => 0
  unsent : Launch → List Customer := fun _ => []
  snapshots : List (List Customer) := []

inductive NetworkEvent
  | createCustomer (launch : Launch)
  /-- The oldest unsent customer of a launch reaches the database. -/
  | write (launch : Launch)
  /-- `updateCustomer` reads the node. -/
  | read
  /-- The callback of an `updateCustomer` that read `dic`. -/
  | writeBack (dic : List Customer)
  | deleteCustomer

namespace Network

def step (s : Network) : NetworkEvent → Option Network
  | .createCustomer launch => do
    let (customers, id) ← saveCustomers (s.ids launch)
    return { s with
      ids := Function.update s.ids launch id
      unsent := Function.update s.unsent launch (s.unsent launch ++ customers) }
  | .write launch =>
    match s.unsent launch with
    | [] => none
    | customer :: rest =>
      some { s with
        database := setCustomer s.database customer
        unsent := Function.update s.unsent launch rest }
  | .read =>
    match fetchCustomers s.database with
    | none => some s
    | some dic => some { s with snapshots := dic :: s.snapshots }
  | .writeBack dic =>
    if dic ∈ s.snapshots then
      some { s with
        database := Customers.writeBack dic s.database
        snapshots := s.snapshots.erase dic }
    else none
  | .deleteCustomer => some { s with database := deleteCustomers s.database }

/-- The runs of all clients from a given database. -/
def system (start : Node) : System Network NetworkEvent where
  start s := s = { database := start }
  step s e s' := s.step e = some s'

/-- What a step does, one case for each way it can go. -/
inductive Step (s : Network) : NetworkEvent → Network → Prop
  | createCustomer (launch : Launch) :
      Step s (.createCustomer launch)
        { s with
          ids := Function.update s.ids launch (s.ids launch + 3)
          unsent := Function.update s.unsent launch
            (s.unsent launch ++ newCustomers (s.ids launch)) }
  | write {launch : Launch} {customer : Customer} {rest : List Customer}
      (unsent : s.unsent launch = customer :: rest) :
      Step s (.write launch)
        { s with
          database := setCustomer s.database customer
          unsent := Function.update s.unsent launch rest }
  | failedRead (fetched : fetchCustomers s.database = none) : Step s .read s
  | read {dic : List Customer} (fetched : fetchCustomers s.database = some dic) :
      Step s .read { s with snapshots := dic :: s.snapshots }
  | writeBack {dic : List Customer} (pending : dic ∈ s.snapshots) :
      Step s (.writeBack dic)
        { s with
          database := Customers.writeBack dic s.database
          snapshots := s.snapshots.erase dic }
  | deleteCustomer : Step s .deleteCustomer { s with database := deleteCustomers s.database }

theorem step_cases {s s' : Network} {e : NetworkEvent} (h : s.step e = some s') : Step s e s' := by
  cases e with
  | createCustomer launch =>
    simp only [step] at h
    have hs' := eq_some_of_saveCustomers h
    obtain rfl := Option.some.inj hs'
    exact .createCustomer launch
  | write launch =>
    simp only [step] at h
    split at h
    · exact absurd h nofun
    · obtain rfl := Option.some.inj h
      exact .write ‹_›
  | read =>
    simp only [step] at h
    split at h <;> obtain rfl := Option.some.inj h
    · exact .failedRead ‹_›
    · exact .read ‹_›
  | writeBack dic =>
    simp only [step] at h
    split_ifs at h with pending
    obtain rfl := Option.some.inj h
    exact .writeBack pending
  | deleteCustomer =>
    obtain rfl := Option.some.inj h
    exact .deleteCustomer

/-- A list that was read: some earlier read of this run fetched it. -/
def WasRead (start : Node) (past : List NetworkEvent) (dic : List Customer) : Prop :=
  ∃ old s₀, .read :: old <:+ past ∧ (system start).Run old s₀ ∧
    fetchCustomers s₀.database = some dic

/-- A customer a client may send: its own identifier is the key, and it has books. -/
def Sendable (customer : Customer) : Prop :=
  (∃ id : ℕ, customer.id = toString id) ∧ customer.books ≠ []

theorem sendable_newCustomers {id : ℕ} {customer : Customer} (h : customer ∈ newCustomers id) :
    Sendable customer := by
  obtain ⟨i, hi, rfl⟩ := List.getElem_of_mem h
  exact ⟨⟨_, id_newCustomers _ i hi⟩, books_newCustomers h⟩

/-- The node always holds customers under integer keys, and every pending write-back is a list read
earlier. -/
structure Valid (start : Node) (past : List NetworkEvent) (s : Network) : Prop where
  represents : ∃ m, Represents s.database m
  unsent : ∀ launch, ∀ customer ∈ s.unsent launch, Sendable customer
  snapshots : ∀ dic ∈ s.snapshots, dic ≠ [] ∧ (∀ customer ∈ dic, customer.books ≠ []) ∧
    WasRead start past dic

theorem unsent_update {unsent : ℕ → List Customer}
    (h : ∀ launch, ∀ customer ∈ unsent launch, Sendable customer) (launch : ℕ)
    {customers : List Customer} (hcustomers : ∀ customer ∈ customers, Sendable customer) :
    ∀ launch', ∀ customer ∈ Function.update unsent launch customers launch', Sendable customer :=
  (Function.forall_update_iff unsent (p := fun _ l => ∀ customer ∈ l, Sendable customer)).2
    ⟨hcustomers, fun launch' _ => h launch'⟩

theorem WasRead.step {start : Node} {past : List NetworkEvent} {dic : List Customer}
    (h : WasRead start past dic) (e : NetworkEvent) : WasRead start (e :: past) dic := by
  obtain ⟨old, s₀, hold, hrun⟩ := h
  exact ⟨old, s₀, hold.trans (List.suffix_cons e past), hrun⟩

theorem Valid.step {start : Node} {past : List NetworkEvent} {s s' : Network} {e : NetworkEvent}
    (hrun : (system start).Run past s) (h : Valid start past s) (hs : Step s e s') :
    Valid start (e :: past) s' := by
  obtain ⟨m, hm⟩ := h.represents
  have hsnapshots : ∀ dic ∈ s.snapshots, dic ≠ [] ∧ (∀ customer ∈ dic, customer.books ≠ []) ∧
      WasRead start (e :: past) dic := by
    intro dic hdic
    obtain ⟨hne, hbooks, hread⟩ := h.snapshots dic hdic
    exact ⟨hne, hbooks, hread.step e⟩
  cases hs with
  | createCustomer launch =>
    refine ⟨⟨m, hm⟩, unsent_update h.unsent launch fun c hc => ?_, hsnapshots⟩
    rcases List.mem_append.1 hc with hc | hc
    · exact h.unsent launch c hc
    · exact sendable_newCustomers hc
  | @write launch customer rest unsent =>
    have hunsent := h.unsent launch
    rw [unsent, List.forall_mem_cons] at hunsent
    obtain ⟨⟨⟨id, hid⟩, hbooks⟩, hrest⟩ := hunsent
    exact ⟨⟨_, hm.setCustomer hid hbooks⟩, unsent_update h.unsent launch hrest, hsnapshots⟩
  | failedRead => exact ⟨⟨m, hm⟩, h.unsent, hsnapshots⟩
  | @read dic fetched =>
    refine ⟨⟨m, hm⟩, h.unsent, ?_⟩
    intro dic' hdic
    rcases List.mem_cons.1 hdic with rfl | hdic
    · exact ⟨((hm.fetchCustomers_eq_some_iff _).1 fetched).1, hm.books_of_fetch fetched,
        past, s, List.suffix_refl _, hrun, fetched⟩
    · exact hsnapshots dic' hdic
  | @writeBack dic pending =>
    obtain ⟨hne, hbooks, -⟩ := h.snapshots dic pending
    exact ⟨⟨_, .writeBack hne hbooks _⟩, h.unsent,
      fun dic' hdic => hsnapshots dic' (List.mem_of_mem_erase hdic)⟩
  | deleteCustomer => exact ⟨⟨_, .deleteCustomers _⟩, h.unsent, hsnapshots⟩

theorem valid_of_run {start : Node} {m₀ : OrderedMap ℕ Customer} (hstart : Represents start m₀)
    {past : List NetworkEvent} {s : Network} (h : (system start).Run past s) :
    Valid start past s := by
  refine h.invariant ?_ fun past s e s' hrun hs hstep => hs.step hrun (step_cases hstep)
  rintro _ rfl
  exact ⟨⟨m₀, hstart⟩, fun _ _ hc => absurd hc List.not_mem_nil,
    fun _ hdic => absurd hdic List.not_mem_nil⟩

/-- A write-back is the write-back of a list read earlier in the run, and it makes the node that
list with its first customer renamed, whatever was stored meanwhile; the rest of the database keeps
its value.  When the node still reads as it did, only the name of the first customer changes. -/
theorem writeBack_replaces {start : Node} {m₀ : OrderedMap ℕ Customer}
    (hstart : Represents start m₀) {past : List NetworkEvent} {s s' : Network}
    {dic : List Customer} (h : (system start).Run past s)
    (hstep : s.step (.writeBack dic) = some s') :
    WasRead start past dic ∧
      customersNode s'.database =
        (renameFirst dic).zipIdx.map (fun c => (toString c.2, c.1.tree)) ∧
      (∀ key ≠ "customers", s'.database.child key = s.database.child key) ∧
      (fetchCustomers s.database = some dic →
        fetchCustomers s'.database = some (renameFirst dic) ∧
        ∀ key ≠ "0", stored s'.database key = stored s.database key) := by
  have hs := valid_of_run hstart h
  obtain ⟨m, hm⟩ := hs.represents
  cases step_cases hstep with | writeBack pending => ?_
  obtain ⟨hne, hbooks, hread⟩ := hs.snapshots dic pending
  refine ⟨hread, ?_, ?_, ?_⟩
  · have hm' := Represents.writeBack hne hbooks s.database
    rw [hm'.node, OrderedMap.ofList, List.map_map]
    rfl
  · intro key hkey
    show (Customers.writeBack dic s.database).child key = _
    rw [Customers.writeBack, if_neg (by simpa using hne), child_setValue_of_ne hkey]
  · intro hfetch
    exact ⟨hm.fetch_writeBack hfetch, fun key hkey => hm.stored_writeBack hfetch hkey⟩

/-- Customers deleted after the read are all back after the write-back. -/
theorem writeBack_replaces_deleted :
    ∃ s s', (system none).Run
        [.deleteCustomer, .read, .write 0, .write 0, .write 0, .createCustomer 0] s ∧
      s.step (.writeBack (newCustomers 0)) = some s' ∧ customersNode s.database = [] ∧
      customersNode s'.database =
        (renameFirst (newCustomers 0)).zipIdx.map (fun c => (toString c.2, c.1.tree)) := by
  have hrun : (system none).Run
      [.deleteCustomer, .read, .write 0, .write 0, .write 0, .createCustomer 0] _ :=
    .step (.step (.step (.step (.step (.step (.start rfl) rfl) rfl) rfl) rfl) rfl) rfl
  have hempty : Represents none .empty := ⟨rfl, nofun⟩
  exact ⟨_, _, hrun, rfl, rfl, (writeBack_replaces hempty hrun rfl).2.1⟩

/-- Launch 1 creates three customers, launch 0 reads them for an update, and a further customer that
launch 1 creates is gone after the write-back. -/
theorem writeBack_loses_customer :
    ¬ ∀ (past : List NetworkEvent) (s s' : Network) (dic : List Customer),
      (system none).Run past s → s.step (.writeBack dic) = some s' →
        ∀ key ≠ "0", stored s'.database key = stored s.database key := by
  intro h
  have hrun : (system none).Run [.write 1, .createCustomer 1, .read, .write 1, .write 1, .write 1,
    .createCustomer 1] _ :=
    .step (.step (.step (.step (.step (.step (.step (.start rfl) rfl) rfl) rfl) rfl) rfl) rfl) rfl
  have hlost := congrArg Option.isSome (h _ _ _ (newCustomers 0) hrun rfl "3" (by decide))
  revert hlost
  decide

end Network

end PracticeSwift.Customers
