import PracticeSwift.Customers.Fetching

/-!
# The screen over the database

The controller with its labels: beside the customers it reads `firstData` once and writes a few
values of the basic types.  Both live under children of the root of their own, so that whatever the
order of the operations the customers are those of a run without the basic types and the basic types
those of a run without the customers.  The number of customers on the screen is the one that was
there at the last fetch that succeeded; once customers have been deleted no later one does.
-/

open RealtimeDatabase RealtimeDatabase.Node Transition

namespace PracticeSwift.Customers

/-! ## The basic types -/

/-- What `saveBasicTypes` writes, in order. -/
def basicTypes : List (String × Node) :=
  [("int", ofJson (.number 3)), ("double", ofJson (.number 3.5)),
    ("str", ofJson (.string "String value - 여러분 안녕")),
    ("array", ofJson (.array [.string "a", .string "b", .string "c"])),
    ("dict", ofJson (.object [("id", .string "anyID"), ("age", .number 10),
      ("city", .string "seoul")]))]

/-- What `updateBasicTypes` writes, in order. -/
def updatedBasicTypes : List (String × Node) :=
  [("int", ofJson (.number 6)), ("double", ofJson (.number 6.6)),
    ("str", ofJson (.string "It is updateed Str"))]

/-- What `deleteBasicTypes` removes, in order. -/
def deletedBasicTypes : List (String × Node) := [("int", none), ("double", none), ("str", none)]

def saveBasicTypes (db : Node) : Node := setValues basicTypes db

def updateBasicTypes (db : Node) : Node := setValues updatedBasicTypes db

def deleteBasicTypes (db : Node) : Node := setValues deletedBasicTypes db

/-! ## The controller -/

/-- The process and the database, and the texts of the two labels; a label that was not set has no
text here. -/
structure ViewController where
  device : Device
  dataLabel : Option String := none
  numOfCustomers : Option String := none

inductive Action
  /-- A tap on one of the buttons that write customers. -/
  | customers (operation : Operation)
  | fetchCustomer
  | saveBasicTypes
  | updateBasicTypes
  | deleteBasicTypes

namespace ViewController

/-- `snapshot.value as? String` -/
def string? : Json → Option String
  | .string s => some s
  | _ => none

def updateLabel (s : ViewController) : ViewController :=
  { s with dataLabel := some ((string? (s.device.database.child "firstData").value).getD "") }

def viewDidLoad (start : Node) : ViewController := updateLabel { device := { database := start } }

def displayFetchData (s : ViewController) : ViewController :=
  match fetchCustomers s.device.database with
  | none => s
  | some dic => { s with numOfCustomers := some ("# Of Customers: " ++ toString dic.length) }

/-- Write to the database. -/
def write (s : ViewController) (f : Node → Node) : ViewController :=
  { s with device := { s.device with database := f s.device.database } }

/-- An action that completes before the next one; `none` is the trap of the counter. -/
def perform (s : ViewController) : Action → Option ViewController
  | .customers operation => (s.device.perform operation).map fun device => { s with device }
  | .fetchCustomer => some s.displayFetchData
  | .saveBasicTypes => some (s.write Customers.saveBasicTypes)
  | .updateBasicTypes => some (s.write Customers.updateBasicTypes)
  | .deleteBasicTypes => some (s.write Customers.deleteBasicTypes)

/-- The runs of one launch from a given database. -/
def system (start : Node) : System ViewController Action where
  start s := s = viewDidLoad start
  step s e s' := s.perform e = some s'

end ViewController

namespace Action

/-- The operation of a customers button. -/
def operation? : Action → Option Operation
  | .customers operation => some operation
  | _ => none

/-- The children of the root that an action writes beside the customers. -/
def writes : Action → List (String × Node)
  | .saveBasicTypes => basicTypes
  | .updateBasicTypes => updatedBasicTypes
  | .deleteBasicTypes => deletedBasicTypes
  | .customers _ | .fetchCustomer => []

theorem nodup_writes (action : Action) : (action.writes.map Prod.fst).Nodup := by
  cases action with
  | customers | fetchCustomer => exact List.nodup_nil
  | saveBasicTypes | updateBasicTypes | deleteBasicTypes => decide

theorem customers_notMem_writes (action : Action) : "customers" ∉ action.writes.map Prod.fst := by
  cases action with
  | customers | fetchCustomer => exact List.not_mem_nil
  | saveBasicTypes | updateBasicTypes | deleteBasicTypes => decide

end Action

/-! ## One child of the root each -/

theorem child_setCustomers {key : String} (h : key ≠ "customers") (customers : List Customer)
    (db : Node) : (customers.foldl setCustomer db).child key = db.child key := by
  induction customers generalizing db with
  | nil => rfl
  | cons customer customers ih => exact (ih _).trans (child_setValue_of_ne h _ _ _)

theorem child_writeBack {key : String} (h : key ≠ "customers") (dic : List Customer) (db : Node) :
    (writeBack dic db).child key = db.child key := by
  unfold writeBack
  split_ifs
  · rfl
  · exact child_setValue_of_ne h _ _ _

theorem child_updateCustomers {key : String} (h : key ≠ "customers") (db : Node) :
    (updateCustomers db).child key = db.child key := by
  unfold updateCustomers
  split
  · rfl
  · exact child_writeBack h _ _

/-- The operations on the customers write nothing else. -/
theorem child_perform_of_ne {d d' : Device} {operation : Operation}
    (h : d.perform operation = some d') {key : String} (hkey : key ≠ "customers") :
    d'.database.child key = d.database.child key := by
  cases operation with
  | createCustomer =>
    simp only [Device.perform] at h
    have hsaved := eq_some_of_saveCustomers h
    obtain rfl := Option.some.inj hsaved
    exact child_setCustomers hkey _ _
  | updateCustomer =>
    obtain rfl := Option.some.inj h
    exact child_updateCustomers hkey _
  | deleteCustomer =>
    obtain rfl := Option.some.inj h
    simp only [deleteCustomers, child_setValue_of_ne hkey]

section

variable {db db' : Node} (h : db.child "customers" = db'.child "customers")

include h

theorem child_setCustomers_congr (customers : List Customer) :
    (customers.foldl setCustomer db).child "customers" =
      (customers.foldl setCustomer db').child "customers" := by
  induction customers generalizing db db' with
  | nil => exact h
  | cons customer customers ih =>
    apply ih
    simp only [setCustomer, child_setValue_self, h]

theorem fetchCustomers_congr : fetchCustomers db = fetchCustomers db' := by
  simp only [fetchCustomers, h]

theorem child_updateCustomers_congr :
    (updateCustomers db).child "customers" = (updateCustomers db').child "customers" := by
  simp only [updateCustomers, fetchCustomers_congr h]
  split
  · exact h
  · unfold writeBack
    split_ifs
    · exact h
    · rw [child_setValue_self, child_setValue_self, setValue, setValue]

end

/-- Devices that agree on the customers go on agreeing. -/
def SameCustomers (d d' : Device) : Prop :=
  d.id = d'.id ∧ d.database.child "customers" = d'.database.child "customers"

theorem SameCustomers.perform {d d' e : Device} (h : SameCustomers d e) {operation : Operation}
    (hstep : d.perform operation = some d') :
    ∃ e', e.perform operation = some e' ∧ SameCustomers d' e' := by
  obtain ⟨hid, hchild⟩ := h
  cases operation with
  | createCustomer =>
    simp only [Device.perform] at hstep ⊢
    cases hsave : saveCustomers d.id with
    | none => simp [hsave] at hstep
    | some saved =>
      rw [hsave] at hstep
      obtain rfl := Option.some.inj hstep
      rw [← hid, hsave]
      exact ⟨_, rfl, rfl, child_setCustomers_congr hchild _⟩
  | updateCustomer =>
    obtain rfl := Option.some.inj hstep
    exact ⟨_, rfl, hid, child_updateCustomers_congr hchild⟩
  | deleteCustomer =>
    obtain rfl := Option.some.inj hstep
    refine ⟨_, rfl, hid, ?_⟩
    simp only [deleteCustomers, child_setValue_self]
    rfl

/-! ## Runs -/

variable {start : Node} {past : List Action} {s s' : ViewController}

theorem ViewController.device_perform {action : Action} (h : s.perform action = some s') :
    (∃ operation, action = .customers operation ∧ s.device.perform operation = some s'.device) ∨
      action.operation? = none ∧
        s'.device = { s.device with database := setValues action.writes s.device.database } := by
  cases action with
  | customers operation =>
    obtain ⟨device, hdevice, rfl⟩ := Option.map_eq_some_iff.1 h
    exact .inl ⟨operation, rfl, hdevice⟩
  | fetchCustomer =>
    obtain rfl := Option.some.inj h
    refine .inr ⟨rfl, ?_⟩
    unfold displayFetchData
    split <;> rfl
  | saveBasicTypes | updateBasicTypes | deleteBasicTypes =>
    obtain rfl := Option.some.inj h
    exact .inr ⟨rfl, rfl⟩

/-- What was written last at a child of the root, if anything was. -/
def written : List Action → String → Option Node
  | [], _ => none
  | action :: past, key => (action.writes.lookup key).or (written past key)

/-- The run of the customers alone. -/
theorem sameCustomers_of_run (h : (ViewController.system start).Run past s) :
    ∃ d, (Device.system start).Run (past.filterMap Action.operation?) d ∧
      SameCustomers s.device d := by
  apply h.project (R := fun s d => SameCustomers s.device d)
  · rintro _ rfl
    exact ⟨_, rfl, rfl, rfl⟩
  · intro s d action s' hsilent hsame hstep
    rcases ViewController.device_perform hstep with ⟨operation, rfl, -⟩ | ⟨-, hdevice⟩
    · cases hsilent
    · have hchild := child_setValues action.nodup_writes "customers" s.device.database
      rw [List.lookup_eq_none_iff.2] at hchild
      · rw [hdevice]
        exact ⟨hsame.1, hchild.trans hsame.2⟩
      · rintro c hc
        rw [bne_iff_ne]
        intro hkey
        exact action.customers_notMem_writes (hkey ▸ List.mem_map_of_mem hc)
  · intro s d action operation s' hoperation hsame hstep
    rcases ViewController.device_perform hstep with ⟨operation', rfl, hdevice⟩ | ⟨hnone, -⟩
    · obtain rfl := Option.some.inj hoperation
      exact hsame.perform hdevice
    · rw [hnone] at hoperation
      cases hoperation

/-- The run of the basic types alone. -/
theorem child_of_run (h : (ViewController.system start).Run past s) {key : String}
    (hkey : key ≠ "customers") :
    s.device.database.child key = (written past key).getD (start.child key) := by
  refine h.invariant (I := fun past s =>
    s.device.database.child key = (written past key).getD (start.child key)) ?_ ?_
  · rintro _ rfl
    rfl
  · intro past s action s' _ hs hstep
    rcases ViewController.device_perform hstep with ⟨operation, rfl, hdevice⟩ | ⟨-, hdevice⟩
    · exact (child_perform_of_ne hdevice hkey).trans hs
    · rw [hdevice]
      refine (child_setValues action.nodup_writes key _).trans ?_
      rw [written, hs]
      cases action.writes.lookup key <;> rfl

/-- Customers and basic types are independent: in every order of the actions the customers are those
of the run without the others, every other child of the root has what was written there last, and
the label of `firstData` keeps its text. -/
theorem subtrees_independent (h : (ViewController.system start).Run past s) :
    (∃ d, (Device.system start).Run (past.filterMap Action.operation?) d ∧ s.device.id = d.id ∧
        s.device.database.child "customers" = d.database.child "customers") ∧
      (∀ key ≠ "customers",
        s.device.database.child key = (written past key).getD (start.child key)) ∧
      s.dataLabel = some ((ViewController.string? (start.child "firstData").value).getD "") := by
  refine ⟨sameCustomers_of_run h, fun key hkey => child_of_run h hkey, ?_⟩
  apply h.preserves (I := fun s => s.dataLabel = _)
  · rintro _ rfl
    rfl
  · intro s action s' hs hstep
    cases action with
    | customers operation =>
      obtain ⟨device, -, rfl⟩ := Option.map_eq_some_iff.1 hstep
      exact hs
    | fetchCustomer =>
      obtain rfl := Option.some.inj hstep
      unfold ViewController.displayFetchData
      split <;> exact hs
    | saveBasicTypes | updateBasicTypes | deleteBasicTypes =>
      obtain rfl := Option.some.inj hstep
      exact hs

/-- Customers created, basic types saved and deleted, and the customers deleted. -/
def deletedAll : List Action :=
  [.customers .deleteCustomer, .deleteBasicTypes, .saveBasicTypes, .customers .createCustomer]

theorem subtrees_independent_deleted :
    ∃ s, (ViewController.system none).Run deletedAll s ∧
      s.device.database.child "int" = none ∧
      s.device.database.child "array" = ofJson (.array [.string "a", .string "b", .string "c"]) := by
  have hrun : (ViewController.system none).Run deletedAll _ :=
    .of_runs (fun _ _ _ hstep => hstep) rfl rfl
  have hchild := (subtrees_independent hrun).2.1
  exact ⟨_, hrun, hchild "int" (by decide), hchild "array" (by decide)⟩

/-! ## The number of customers -/

/-- How many customers the last fetch that succeeded has found: it finds the three of each creation,
as long as there are any and none has ever been deleted. -/
def fetchedCount : List Action → Option ℕ
  | [] => none
  | .fetchCustomer :: past =>
    let operations := past.filterMap Action.operation?
    if .createCustomer ∈ operations ∧ ¬ [.deleteCustomer, .createCustomer].Sublist operations then
      some (3 * operations.count .createCustomer)
    else fetchedCount past
  | _ :: past => fetchedCount past

theorem id_of_run {operations : List Operation} {d : Device}
    (h : (Device.system start).Run operations d) :
    d.id = 3 * operations.count .createCustomer := by
  refine h.invariant (I := fun operations d => d.id = 3 * operations.count .createCustomer) ?_ ?_
  · rintro _ rfl
    rfl
  · intro operations d operation d' _ hd hstep
    rw [List.count_cons]
    cases operation with
    | createCustomer =>
      have hperform : d.perform .createCustomer = some d' := hstep
      simp only [Device.perform] at hperform
      have hsaved := eq_some_of_saveCustomers hperform
      obtain rfl := Option.some.inj hsaved
      rw [if_pos (by rfl)]
      dsimp only
      omega
    | updateCustomer | deleteCustomer =>
      obtain rfl := Option.some.inj hstep
      exact hd

/-- A fetch finds all customers that were created, if there are any and none was ever deleted, and
else fails. -/
theorem length_fetchCustomers (hstart : customersNode start = []) {operations : List Operation}
    {d : Device} (h : (Device.system start).Run operations d) :
    (fetchCustomers d.database).map List.length =
      if .createCustomer ∈ operations ∧ ¬ [.deleteCustomer, .createCustomer].Sublist operations then
        some (3 * operations.count .createCustomer)
      else none := by
  obtain ⟨first, ht⟩ := Device.tracked_of_run hstart h
  rw [← id_of_run h]
  have hle := ht.consecutive.le
  split_ifs with hfetch
  · rw [← ht.created, ← ht.deleted] at hfetch
    have hfirst : first = 0 := by omega
    have hne : customersNode d.database ≠ [] := by
      obtain ⟨m, hm, hkeys⟩ := ht.consecutive.represents
      intro hnil
      have hlength := congrArg List.length hkeys
      rw [← hm.length_customersNode, hnil, List.length_range', List.length_nil] at hlength
      omega
    obtain ⟨dic, hdic, -⟩ := ht.consecutive.fetchable.2 (.inl hfirst) hne
    rw [hdic, Option.map_some, (ht.consecutive.first_of_fetch hdic).2]
  · rw [← ht.created, ← ht.deleted] at hfetch
    rw [Option.map_eq_none_iff]
    cases hdic : fetchCustomers d.database with
    | none => rfl
    | some dic =>
      obtain ⟨m, hm, hkeys⟩ := ht.consecutive.represents
      have hpos := List.length_pos_of_ne_nil ((hm.fetchCustomers_eq_some_iff dic).1 hdic).1
      obtain ⟨hfirst, hlength⟩ := ht.consecutive.first_of_fetch hdic
      omega

/-- In every run of one launch on an empty node the label has the number of customers of the last
fetch that succeeded, and after a deletion that follows a creation none succeeds. -/
theorem numOfCustomers_eq (hstart : customersNode start = [])
    (h : (ViewController.system start).Run past s) :
    s.numOfCustomers = (fetchedCount past).map fun count => "# Of Customers: " ++ toString count := by
  induction h with
  | start hs =>
    obtain rfl := hs
    rfl
  | @step past s s' action hrun hstep ih =>
    cases action with
    | customers operation =>
      obtain ⟨device, -, rfl⟩ := Option.map_eq_some_iff.1 hstep
      exact ih
    | saveBasicTypes | updateBasicTypes | deleteBasicTypes =>
      obtain rfl := Option.some.inj hstep
      exact ih
    | fetchCustomer =>
      obtain rfl := Option.some.inj hstep
      obtain ⟨d, hd, hsame⟩ := sameCustomers_of_run hrun
      have hlength := length_fetchCustomers hstart hd
      rw [← fetchCustomers_congr hsame.2] at hlength
      simp only [ViewController.displayFetchData, fetchedCount]
      split_ifs at hlength ⊢
      · obtain ⟨dic, hdic, hcount⟩ := Option.map_eq_some_iff.1 hlength
        rw [hdic, ← hcount]
        rfl
      · rw [Option.map_eq_none_iff.1 hlength]
        exact ih

/-- Six customers are created and counted, deleted, and three created again. -/
theorem numOfCustomers_eq_deleted :
    ∃ s, (ViewController.system none).Run [.fetchCustomer, .customers .createCustomer,
        .customers .deleteCustomer, .fetchCustomer, .customers .createCustomer,
        .customers .createCustomer] s ∧ s.numOfCustomers = some "# Of Customers: 6" := by
  have hrun : (ViewController.system none).Run [.fetchCustomer, .customers .createCustomer,
      .customers .deleteCustomer, .fetchCustomer, .customers .createCustomer,
      .customers .createCustomer] _ := .of_runs (fun _ _ _ hstep => hstep) rfl rfl
  refine ⟨_, hrun, (numOfCustomers_eq rfl hrun).trans ?_⟩
  decide

end PracticeSwift.Customers
