import PracticeSwift.Customers.Customer
import PracticeSwift.Library.Transition

/-!
# Fetching what was stored

One launch of the app on an empty node, its operations one after the other.  The counter goes on
after a deletion, so the keys are always consecutive but begin at `0` only as long as nothing was
deleted after a creation; from the first creation after such a deletion on the node no longer reads
back as an array of customers.
-/

open RealtimeDatabase RealtimeDatabase.Node Transition

namespace PracticeSwift.Customers

/-- One process, with its counter `Customer.id`, and the database. -/
structure Device where
  database : Node
  id : ℕ := 0

inductive Operation
  | createCustomer
  | updateCustomer
  | deleteCustomer
  deriving DecidableEq

namespace Device

/-- An operation that completes before the next one; `none` is the trap of the counter. -/
def perform (s : Device) : Operation → Option Device
  | .createCustomer => do
    let (customers, id) ← saveCustomers s.id
    return { s with id, database := customers.foldl setCustomer s.database }
  | .updateCustomer => some { s with database := updateCustomers s.database }
  | .deleteCustomer => some { s with database := deleteCustomers s.database }

/-- The runs of one launch from a given database. -/
def system (start : Node) : System Device Operation where
  start s := s = { database := start }
  step s op s' := s.perform op = some s'

/-- The stored customers in the order of their keys as numbers. -/
def storedCustomers (db : Node) : Option (List Customer) :=
  ((customersNode db).mergeSort fun c d => (index? c.1).getD 0 ≤ (index? d.1).getD 0).mapM
    fun c => Customer.decode (toJson c.2)

/-- What is stored can be fetched: the callback gets the stored customers in order. -/
def Fetchable (db : Node) : Prop :=
  customersNode db ≠ [] →
    ∃ dic, fetchCustomers db = some dic ∧ storedCustomers db = some dic

/-! ## Consecutive keys -/

/-- The customers node holds consecutive keys from `first` up to `id`. -/
structure Consecutive (db : Node) (first id : ℕ) : Prop where
  le : first ≤ id
  represents : ∃ m, Represents db m ∧ m.keys = List.range' first (id - first)

theorem consecutive_of_empty {db : Node} (h : customersNode db = []) (id : ℕ) :
    Consecutive db id id where
  le := le_rfl
  represents := ⟨.empty, ⟨h, nofun⟩, by rw [Nat.sub_self]; rfl⟩

/-- The three new keys follow the old ones. -/
theorem Consecutive.saveCustomers {db : Node} {first id : ℕ} (h : Consecutive db first id) :
    Consecutive ((newCustomers id).foldl setCustomer db) first (id + 3) where
  le := h.le.trans (Nat.le_add_right id 3)
  represents := by
    obtain ⟨m, hm, hkeys⟩ := h.represents
    have hle := h.le
    refine ⟨_, hm.saveCustomers id, ?_⟩
    rw [OrderedMap.keys_assignFrom, hkeys]
    · show List.range' first (id - first) ++ List.range' id 3 = _
      rw [show id + 3 - first = id - first + 3 by omega, ← List.range'_append_1,
        show first + (id - first) = id by omega]
    · intro i _ hmem
      rw [hkeys, List.mem_range'_1] at hmem
      omega

/-- A fetch succeeds only when the keys begin at `0`. -/
theorem Consecutive.first_of_fetch {db : Node} {first id : ℕ} (h : Consecutive db first id)
    {dic : List Customer} (hfetch : fetchCustomers db = some dic) :
    first = 0 ∧ dic.length = id := by
  obtain ⟨m, hm, hkeys⟩ := h.represents
  obtain ⟨hne, hlookup⟩ := (hm.fetchCustomers_eq_some_iff dic).1 hfetch
  have hperm := keys_perm_range hlookup
  have hpos := List.length_pos_of_ne_nil hne
  have hzero : 0 ∈ m.keys := hperm.mem_iff.2 (List.mem_range.2 hpos)
  have hlen := hperm.length_eq
  rw [hkeys, List.mem_range'_1] at hzero
  rw [hkeys, List.length_range', List.length_range] at hlen
  omega

/-- An update keeps the keys: it does nothing unless they begin at `0`. -/
theorem Consecutive.updateCustomers {db : Node} {first id : ℕ} (h : Consecutive db first id) :
    Consecutive (updateCustomers db) first id := by
  unfold Customers.updateCustomers
  split
  · exact h
  · rename_i dic hfetch
    obtain ⟨m, hm, -⟩ := h.represents
    obtain ⟨rfl, rfl⟩ := h.first_of_fetch hfetch
    refine ⟨h.le, _, .writeBack ((hm.fetchCustomers_eq_some_iff dic).1 hfetch).1
      (hm.books_of_fetch hfetch) db, ?_⟩
    rw [OrderedMap.keys_ofList, List.range_eq_range', renameFirst, List.length_modify,
      Nat.sub_zero]

/-- Keys in ascending order are the order of the stored customers. -/
theorem storedCustomers_eq {db : Node} {m : OrderedMap ℕ Customer} (hm : Represents db m) {n : ℕ}
    (hkeys : m.keys = List.range n) : storedCustomers db = some (m.entries.map Prod.snd) := by
  have hsorted : (customersNode db).Pairwise fun c d =>
      decide ((index? c.1).getD 0 ≤ (index? d.1).getD 0) = true := by
    have hpairwise : m.keys.Pairwise (· ≤ ·) := by
      rw [hkeys]
      exact List.pairwise_le_range
    rw [hm.node, List.pairwise_map]
    refine (List.pairwise_map.1 hpairwise).imp fun {e f} hle => ?_
    rw [Prod.map_fst, Prod.map_fst, index?_toString, index?_toString]
    exact decide_eq_true hle
  rw [storedCustomers, List.mergeSort_of_pairwise hsorted, hm.node, Json.mapM_eq_some_iff,
    List.map_map, List.map_map]
  exact List.map_congr_left fun e he => Customer.decode_tree (hm.books e he)

/-- Consecutive keys can be fetched when they begin at `0`, and only then. -/
theorem Consecutive.fetchable {db : Node} {first id : ℕ} (h : Consecutive db first id) :
    Fetchable db ↔ first = 0 ∨ first = id := by
  obtain ⟨m, hm, hkeys⟩ := h.represents
  have hle := h.le
  constructor
  · intro hfetchable
    by_cases hempty : first = id
    · exact Or.inr hempty
    · have hne : customersNode db ≠ [] := by
        intro hnil
        have hlen := congrArg List.length hkeys
        rw [hm.node, List.map_eq_nil_iff] at hnil
        rw [OrderedMap.keys, hnil, List.length_range'] at hlen
        simp only [List.map_nil, List.length_nil] at hlen
        omega
      obtain ⟨dic, hfetch, -⟩ := hfetchable hne
      exact Or.inl (h.first_of_fetch hfetch).1
  · rintro hcase hne
    have hlen : m.entries.length = id - first := by
      simpa [OrderedMap.keys] using congrArg List.length hkeys
    have hpos : 0 < m.entries.length := by
      rw [hm.node] at hne
      exact List.length_pos_of_ne_nil (mt List.map_eq_nil_iff.2 hne)
    obtain rfl : first = 0 := by omega
    rw [← List.range_eq_range'] at hkeys
    refine ⟨_, (hm.fetchCustomers_eq_some_iff _).2 ⟨?_, ?_⟩, storedCustomers_eq hm hkeys⟩
    · simpa using List.length_pos_iff.1 hpos
    · intro i
      have hlookup := congrArg (OrderedMap.lookup · i) (OrderedMap.eq_ofList hkeys)
      exact hlookup.trans (OrderedMap.lookup_ofList _ i)

/-! ## Runs -/

/-- Some creation follows a deletion that follows a creation (the newest operation is first). -/
def Gapped (past : List Operation) : Prop :=
  [.createCustomer, .deleteCustomer, .createCustomer].Sublist past

instance (past : List Operation) : Decidable (Gapped past) :=
  inferInstanceAs (Decidable (List.Sublist _ past))

theorem sublist_cons_of_ne {op op' : Operation} (h : op ≠ op') (l past : List Operation) :
    (op :: l).Sublist (op' :: past) ↔ (op :: l).Sublist past := by
  rw [List.sublist_cons_iff, or_iff_left]
  rintro ⟨r, hr, -⟩
  exact h (List.cons.inj hr).1

/-- What a run leaves: consecutive keys that begin at `0` unless a creation was followed by a
deletion. -/
structure Tracked (past : List Operation) (s : Device) (first : ℕ) : Prop where
  consecutive : Consecutive s.database first s.id
  created : 0 < s.id ↔ .createCustomer ∈ past
  deleted : 0 < first ↔ [.deleteCustomer, .createCustomer].Sublist past
  gapped : 0 < first → first < s.id → Gapped past

theorem Tracked.createCustomer {past : List Operation} {s s' : Device} {first : ℕ}
    (h : Tracked past s first) (hop : s.perform .createCustomer = some s') :
    Tracked (.createCustomer :: past) s' first ∧ first < s'.id := by
  simp only [Device.perform] at hop
  have hs' := eq_some_of_saveCustomers hop
  obtain rfl := Option.some.inj hs'
  have hle := h.consecutive.le
  refine ⟨⟨h.consecutive.saveCustomers, by simp, ?_, fun hpos _ => ?_⟩, ?_⟩
  · rw [h.deleted, sublist_cons_of_ne (by decide)]
  · exact (h.deleted.1 hpos).cons_cons _
  · show first < s.id + 3
    omega

theorem Tracked.perform {past : List Operation} {s s' : Device} {first : ℕ} {op : Operation}
    (h : Tracked past s first) (hop : s.perform op = some s') :
    ∃ first', Tracked (op :: past) s' first' := by
  cases op with
  | createCustomer => exact ⟨first, (h.createCustomer hop).1⟩
  | updateCustomer =>
    obtain rfl := Option.some.inj hop
    refine ⟨first, h.consecutive.updateCustomers, ?_, ?_, fun hpos hlt => ?_⟩
    · simp [h.created]
    · rw [h.deleted, sublist_cons_of_ne (by decide)]
    · exact (h.gapped hpos hlt).cons _
  | deleteCustomer =>
    obtain rfl := Option.some.inj hop
    refine ⟨s.id, consecutive_of_empty ?_ _, ?_, ?_, fun _ hlt => absurd hlt (lt_irrefl _)⟩
    · exact (Represents.deleteCustomers s.database).node
    · simp [h.created]
    · simp [h.created]

theorem tracked_of_run {start : Node} (hstart : customersNode start = []) {past : List Operation}
    {s : Device} (h : (system start).Run past s) : ∃ first, Tracked past s first := by
  refine h.invariant (I := fun past s => ∃ first, Tracked past s first) ?_ ?_
  · rintro _ rfl
    exact ⟨0, consecutive_of_empty hstart 0, by simp, by simp, fun hpos => absurd hpos (lt_irrefl 0)⟩
  · rintro past s op s' - ⟨first, hs⟩ hop
    exact hs.perform hop

/-- A creation after a deletion after a creation leaves something that cannot be fetched. -/
theorem exists_not_fetchable {start : Node} (hstart : customersNode start = [])
    {past : List Operation} {s : Device} (h : (system start).Run past s) (hgap : Gapped past) :
    ∃ old s₀, old <:+ past ∧ (system start).Run old s₀ ∧ ¬ Fetchable s₀.database := by
  induction h with
  | start => exact absurd hgap (by simp [Gapped])
  | @step past s s' op h hop ih =>
    rcases List.sublist_cons_iff.1 hgap with hgap | ⟨r, hr, hsub⟩
    · obtain ⟨old, s₀, hold, hrun, hbad⟩ := ih hgap
      exact ⟨old, s₀, hold.trans (List.suffix_cons op past), hrun, hbad⟩
    · obtain ⟨rfl, rfl⟩ := List.cons.inj hr
      obtain ⟨first, ht⟩ := tracked_of_run hstart h
      obtain ⟨ht', hlt⟩ := ht.createCustomer hop
      have hpos := ht.deleted.2 hsub
      refine ⟨_, s', List.suffix_refl _, h.step hop, ?_⟩
      rw [ht'.consecutive.fetchable]
      omega

/-- In a run of one launch on an empty node, what is stored can always be fetched exactly when no
creation follows a deletion that follows a creation. -/
theorem fetchable_iff {start : Node} (hstart : customersNode start = []) {past : List Operation}
    {s : Device} (h : (system start).Run past s) :
    (∀ old s₀, old <:+ past → (system start).Run old s₀ → Fetchable s₀.database) ↔
      ¬ Gapped past := by
  constructor
  · intro hall hgap
    obtain ⟨old, s₀, hold, hrun, hbad⟩ := exists_not_fetchable hstart h hgap
    exact hbad (hall old s₀ hold hrun)
  · intro hgap old s₀ hold hrun
    obtain ⟨first, ht⟩ := tracked_of_run hstart hrun
    rw [ht.consecutive.fetchable]
    by_contra hbad
    have hle := ht.consecutive.le
    exact hgap ((ht.gapped (by omega) (by omega)).trans hold.sublist)

/-- Six customers, the first of them renamed. -/
theorem fetchable_iff_renamed :
    ∃ s, (system none).Run [.updateCustomer, .createCustomer, .createCustomer] s ∧
      Fetchable s.database := by
  have hrun : (system none).Run [.updateCustomer, .createCustomer, .createCustomer] _ :=
    .step (.step (.step (.start rfl) rfl) rfl) rfl
  exact ⟨_, hrun, (fetchable_iff rfl hrun).2 (by decide) _ _ (List.suffix_refl _) hrun⟩

/-- Create, delete, create: the keys are `3`, `4`, `5`, and nothing is fetched. -/
theorem stored_not_fetched :
    ¬ ∀ (past : List Operation) (s : Device), (system none).Run past s → Fetchable s.database := by
  intro h
  have hrun : (system none).Run [.createCustomer, .deleteCustomer, .createCustomer] _ :=
    .step (.step (.step (.start rfl) rfl) rfl) rfl
  obtain ⟨dic, hfetch, -⟩ := h _ _ hrun nofun
  exact absurd (Option.isSome_iff_exists.2 ⟨dic, hfetch⟩) (by decide)

end Device

end PracticeSwift.Customers
