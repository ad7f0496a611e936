import PracticeSwift.Customers.WriteBack

/-!
# Keys of new customers

The counter that gives a new customer its key lives in one process, while the keys live in the
shared database.  Here every `createCustomer` is one step, and the keys it uses, `3 * j` to
`3 * j + 2` for the `j`-th of its launch, are free unless some other `j`-th creation, a write-back
of a long enough list or whoever wrote to the database before has put customers there (`Taken`).
-/

open RealtimeDatabase RealtimeDatabase.Node Transition

namespace PracticeSwift.Customers

/-! ## Keys of any database -/

theorem stored_setCustomer (db : Node) (customer : Customer) (key : String) :
    stored (setCustomer db customer) key =
      if key = customer.id then some customer.tree else stored db key := by
  rw [stored, customersNode_setCustomer, List.lookup_assign]
  rfl

/-- Writes under other keys leave a key alone. -/
theorem stored_setCustomers_of_ne {customers : List Customer} {key : String}
    (h : ∀ customer ∈ customers, key ≠ customer.id) (db : Node) :
    stored (customers.foldl setCustomer db) key = stored db key := by
  induction customers generalizing db with
  | nil => rfl
  | cons customer customers ih =>
    rw [List.forall_mem_cons] at h
    rw [List.foldl_cons, ih h.2, stored_setCustomer, if_neg h.1]

/-- Afterwards a key is in use if it was, or if one of the customers has it. -/
theorem stored_setCustomers_ne_none_iff (customers : List Customer) (key : String) (db : Node) :
    stored (customers.foldl setCustomer db) key ≠ none ↔
      (∃ customer ∈ customers, key = customer.id) ∨ stored db key ≠ none := by
  induction customers generalizing db with
  | nil => simp
  | cons customer customers ih =>
    rw [List.foldl_cons, ih, stored_setCustomer, List.exists_mem_cons_iff]
    by_cases hkey : key = customer.id
    · rw [if_pos hkey]
      exact iff_of_true (.inr (Option.some_ne_none _)) (.inl (.inl hkey))
    · rw [if_neg hkey, or_iff_right hkey]

theorem length_setCustomer {db : Node} {customer : Customer} (h : stored db customer.id = none) :
    (customersNode (setCustomer db customer)).length = (customersNode db).length + 1 := by
  have hkey : customer.id ∉ (customersNode db).map Prod.fst := by
    rw [← List.isSome_lookup_iff, Option.not_isSome_iff_eq_none]
    exact h
  have hkeys := List.map_fst_assign customer.id customer.tree (customersNode db)
  rw [if_neg hkey, ← customersNode_setCustomer] at hkeys
  simpa using congrArg List.length hkeys

/-- Each customer under a key of its own that is free is one more. -/
theorem length_setCustomers {customers : List Customer} (hids : (customers.map (·.id)).Nodup)
    {db : Node} (hfree : ∀ customer ∈ customers, stored db customer.id = none) :
    (customersNode (customers.foldl setCustomer db)).length =
      (customersNode db).length + customers.length := by
  induction customers generalizing db with
  | nil => rfl
  | cons customer customers ih =>
    rw [List.map_cons, List.nodup_cons] at hids
    rw [List.forall_mem_cons] at hfree
    rw [List.foldl_cons, ih hids.2, length_setCustomer hfree.1, List.length_cons]
    · omega
    · intro c hc
      rw [stored_setCustomer, if_neg]
      · exact hfree.2 c hc
      · rintro hid
        exact hids.1 (hid ▸ List.mem_map_of_mem hc)

theorem exists_newCustomers_iff (id k : ℕ) :
    (∃ customer ∈ newCustomers id, toString k = customer.id) ↔ id ≤ k ∧ k < id + 3 := by
  simp only [newCustomers, List.exists_mem_cons_iff, List.not_mem_nil, false_and, exists_false,
    or_false, toString_injective.eq_iff]
  omega

theorem nodup_newCustomers (id : ℕ) : ((newCustomers id).map (·.id)).Nodup := by
  show ((List.range' id 3).map toString).Nodup
  exact List.Nodup.map toString_injective List.nodup_range'

theorem stored_writeBack_ne_none_iff {dic : List Customer} (hdic : dic ≠ []) (db : Node) (k : ℕ) :
    stored (writeBack dic db) (toString k) ≠ none ↔ k < dic.length := by
  rw [stored, customersNode_writeBack hdic, lookup_eq_bind_index?, index?_toString,
    Option.bind_some, OrderedMap.lookup_ofList, Ne, Option.map_eq_none_iff,
    List.getElem?_eq_none_iff, renameFirst, List.length_modify, Nat.not_le]

/-- The callback never gets an empty list. -/
theorem ne_nil_of_fetchCustomers {db : Node} {dic : List Customer}
    (h : fetchCustomers db = some dic) : dic ≠ [] := by
  rintro rfl
  unfold fetchCustomers at h
  dsimp only at h
  split_ifs at h with hchildren
  generalize db.child "customers" = snapshot at h hchildren
  match snapshot, hchildren with
  | some (.node children), _ =>
    rw [value, toJson, exportChildren] at h
    split at h
    · cases h
    · split_ifs at h
      · rw [Json.array?, Json.mapM_eq_some_iff] at h
        simp at h
      · cases h

/-! ## The clients -/

/-- What clients do; a `createCustomer` makes its three writes at once. -/
inductive Event
  | createCustomer (launch : Launch)
  | read
  | writeBack (dic : List Customer)
  | deleteCustomer
  deriving DecidableEq

namespace Network

def perform (s : Network) : Event → Option Network
  | .createCustomer launch => do
    let (customers, id) ← saveCustomers (s.ids launch)
    return { s with
      ids := Function.update s.ids launch id
      database := customers.foldl setCustomer s.database }
  | .read => s.step .read
  | .writeBack dic => s.step (.writeBack dic)
  | .deleteCustomer => s.step .deleteCustomer

/-- The runs of all clients from a given database. -/
def atomic (start : Node) : System Network Event where
  start s := s = { database := start }
  step s e s' := s.perform e = some s'

/-- Something is stored under a key: since the last deletion or write-back a creation that is as far
in its launch put it there, or that write-back did, or it has been there from the start. -/
def Taken (start : Node) (k : ℕ) : List Event → Prop
  | [] => stored start (toString k) ≠ none
  | .createCustomer launch :: past =>
    past.count (.createCustomer launch) = k / 3 ∨ Taken start k past
  | .read :: past => Taken start k past
  | .writeBack dic :: _ => k < dic.length
  | .deleteCustomer :: _ => False

/-- The keys in use are known from the past, and the counter of a launch tells how many creations
it has done. -/
structure Tracked (start : Node) (past : List Event) (s : Network) : Prop where
  stored_iff : ∀ k : ℕ, stored s.database (toString k) ≠ none ↔ Taken start k past
  ids : ∀ launch, s.ids launch = 3 * past.count (.createCustomer launch)
  snapshots : ∀ dic ∈ s.snapshots, dic ≠ []

theorem createCustomer_cases {s s' : Network} {launch : Launch}
    (h : s.perform (.createCustomer launch) = some s') :
    s' = { s with
      ids := Function.update s.ids launch (s.ids launch + 3)
      database := (newCustomers (s.ids launch)).foldl setCustomer s.database } := by
  simp only [Network.perform] at h
  have hs' := eq_some_of_saveCustomers h
  exact (Option.some.inj hs').symm

theorem Tracked.createCustomer {start : Node} {past : List Event} {s : Network}
    (h : Tracked start past s) (launch : Launch) :
    Tracked start (.createCustomer launch :: past)
      { s with
        ids := Function.update s.ids launch (s.ids launch + 3)
        database := (newCustomers (s.ids launch)).foldl setCustomer s.database } := by
  have hid := h.ids launch
  refine ⟨fun k => ?_, ?_, h.snapshots⟩
  · rw [stored_setCustomers_ne_none_iff, exists_newCustomers_iff, h.stored_iff, Taken]
    refine or_congr_left ?_
    omega
  · refine (Function.forall_update_iff s.ids
      (p := fun l id => id = 3 * (Event.createCustomer launch :: past).count (.createCustomer l))).2
      ⟨?_, fun launch' hne => ?_⟩
    · rw [List.count_cons_self, hid]
      omega
    · rw [List.count_cons_of_ne (by simpa using hne.symm)]
      exact h.ids launch'

theorem Tracked.perform {start : Node} {past : List Event} {s s' : Network} {e : Event}
    (h : Tracked start past s) (hstep : s.perform e = some s') : Tracked start (e :: past) s' := by
  have hids : ∀ e : Event, (∀ launch, e ≠ .createCustomer launch) →
      ∀ launch, s.ids launch = 3 * (e :: past).count (.createCustomer launch) := by
    intro e he launch
    rw [List.count_cons_of_ne (he launch), h.ids]
  cases e with
  | createCustomer launch =>
    obtain rfl := createCustomer_cases hstep
    exact h.createCustomer launch
  | read =>
    have hread : Step s .read s' := step_cases hstep
    cases hread with
    | failedRead fetched => exact ⟨h.stored_iff, hids .read (by simp), h.snapshots⟩
    | @read dic fetched =>
      exact ⟨h.stored_iff, hids .read (by simp),
        List.forall_mem_cons.2 ⟨ne_nil_of_fetchCustomers fetched, h.snapshots⟩⟩
  | writeBack dic =>
    have hwrite : Step s (.writeBack dic) s' := step_cases hstep
    cases hwrite with
    | writeBack pending =>
      refine ⟨fun k => ?_, hids (.writeBack dic) (by simp),
        fun dic' hdic => h.snapshots dic' (List.mem_of_mem_erase hdic)⟩
      exact stored_writeBack_ne_none_iff (h.snapshots dic pending) s.database k
  | deleteCustomer =>
    have hdelete : Step s .deleteCustomer s' := step_cases hstep
    cases hdelete
    refine ⟨fun k => iff_of_false ?_ id, hids .deleteCustomer (by simp), h.snapshots⟩
    have hempty := Represents.deleteCustomers s.database
    rw [not_not, hempty.stored_eq_none_iff]
    exact List.not_mem_nil

theorem tracked_of_run {start : Node} {past : List Event} {s : Network}
    (h : (atomic start).Run past s) : Tracked start past s := by
  refine h.invariant ?_ fun past s e s' _ hs hstep => hs.perform hstep
  rintro _ rfl
  exact ⟨fun _ => Iff.rfl, fun _ => rfl, fun _ hdic => absurd hdic List.not_mem_nil⟩

/-- What the creation of customers is meant to do: the keys are not in use, there are three more
customers afterwards, and those stored before are still there. -/
def Adds (db : Node) (id : ℕ) (db' : Node) : Prop :=
  (∀ i < 3, stored db (toString (id + i)) = none) ∧
    (customersNode db').length = (customersNode db).length + 3 ∧
    ∀ key, stored db key ≠ none → stored db' key = stored db key

/-- New customers under free keys are added. -/
theorem adds_of_free {db : Node} {id : ℕ} (hfree : ∀ i < 3, stored db (toString (id + i)) = none) :
    Adds db id ((newCustomers id).foldl setCustomer db) := by
  have hnew : ∀ customer ∈ newCustomers id, stored db customer.id = none := by
    intro customer hcustomer
    obtain ⟨i, hi, rfl⟩ := List.getElem_of_mem hcustomer
    rw [id_newCustomers]
    exact hfree i hi
  refine ⟨hfree, length_setCustomers (nodup_newCustomers id) hnew, fun key hkey => ?_⟩
  apply stored_setCustomers_of_ne
  rintro customer hcustomer rfl
  exact hkey (hnew customer hcustomer)

/-- In every run, whatever is stored at its start, the creation that is the `j`-th of its launch adds
its customers exactly when nothing is stored under the keys of the `j`-th creation. -/
theorem adds_iff {start : Node} {past : List Event} {s s' : Network} {launch : Launch}
    (h : (atomic start).Run past s) (hstep : s.perform (.createCustomer launch) = some s') :
    Adds s.database (s.ids launch) s'.database ↔
      ∀ i < 3, ¬ Taken start (3 * past.count (.createCustomer launch) + i) past := by
  have hs := tracked_of_run h
  have hfree : ∀ i, stored s.database (toString (s.ids launch + i)) = none ↔
      ¬ Taken start (3 * past.count (.createCustomer launch) + i) past := by
    intro i
    rw [← hs.stored_iff, hs.ids, not_not]
  constructor
  · rintro ⟨hnone, -⟩ i hi
    exact (hfree i).1 (hnone i hi)
  · intro htaken
    obtain rfl := createCustomer_cases hstep
    apply adds_of_free
    intro i hi
    exact (hfree i).2 (htaken i hi)

/-- After a deletion the keys of the first creation of another launch are free. -/
theorem adds_iff_deleted :
    ∃ s s', (atomic none).Run [.deleteCustomer, .createCustomer 0] s ∧
      s.perform (.createCustomer 1) = some s' ∧ Adds s.database (s.ids 1) s'.database := by
  have hrun : (atomic none).Run [.deleteCustomer, .createCustomer 0] _ :=
    .step (.step (.start rfl) rfl) rfl
  exact ⟨_, _, hrun, rfl, (adds_iff hrun rfl).2 fun _ _ => id⟩

/-- Two launches on an empty node: both use the keys `0`, `1`, `2`. -/
theorem creation_overwrites :
    ¬ ∀ (past : List Event) (s s' : Network) (launch : Launch), (atomic none).Run past s →
      s.perform (.createCustomer launch) = some s' →
        Adds s.database (s.ids launch) s'.database := by
  intro h
  have hrun : (atomic none).Run [.createCustomer 0] _ := .step (.start rfl) rfl
  obtain ⟨-, hcount, -⟩ := h _ _ _ 1 hrun rfl
  revert hcount
  decide

end Network

end PracticeSwift.Customers
