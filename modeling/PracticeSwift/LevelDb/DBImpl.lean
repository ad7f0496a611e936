import PracticeSwift.Library.Transition
import PracticeSwift.LevelDb.GroupCommit
import PracticeSwift.LevelDb.LogWriter

/-!
# Writing and reading at once

The leader of a group appends its batch to the log and inserts it into the memtable, both without
the lock, and publishes the last sequence number when it has the lock again.  In between the others
take any steps: they join the queue, and they read the memtable that is being written to.  What they
read is nevertheless what whole groups have written.

A write to the log or a sync may fail.  The file is then no longer known, and after a sync that has
failed every later write fails.  The memtable is written to as long as it has room; that it is
switched is left out, and so is a writer without a batch at the front, who asks for that.
-/

namespace PracticeSwift.LevelDb

open Transition

/-- What the writer at the front of the queue works with. -/
structure Leader where
  sync : Bool
  updates : WriteBatch
  /-- The updates are those of `tmp_batch_`. -/
  isTmp : Bool
  /-- How many writers there are up to `last_writer`. -/
  group : ℕ
  lastSequence : BitVec 64

/-- Where it is. -/
inductive Phase
  | logging
  | syncing
  | inserting (input : Bytes) (found : BitVec 32) (sequence : BitVec 64)
  | finishing (status : Status)
  /-- The sync has failed. -/
  | syncError (status : Status)

/-- The part of `DBImpl` that is written to, with the groups that are done and their status. -/
structure DBImpl where
  log : Log.Writer
  /-- How many bytes of the log a crash leaves in any case. -/
  synced : ℕ
  mem : MemTable
  lastSequence : BitVec 64
  bgError : Status
  tmpBatch : WriteBatch
  writers : List Writer
  active : Option (Leader × Phase)
  done : List (List Writer × Status)

/-- How much the leader has still to do, at most. -/
def Phase.toGo (leader : Leader) : Phase → ℕ
  | logging => leader.updates.rep.length + 3
  | syncing => leader.updates.rep.length + 2
  | inserting input _ _ => input.length + 1
  | finishing _ | syncError _ => 0

namespace DBImpl

/-- A database without data. -/
def new (comparator : Comparator) : DBImpl where
  log := {}
  synced := 0
  mem := MemTable.new comparator
  lastSequence := 0
  bgError := .ok
  tmpBatch := WriteBatch.clear
  writers := []
  active := none
  done := []

/-- The steps that are taken with the lock, or that others can see. -/
inductive Action
  /-- A thread calls `Write`. -/
  | write (w : Writer)
  /-- The writer at the front builds its group and releases the lock. -/
  | lead
  | addRecord
  /-- A write to the file fails; how much of the record it leaves is not known. -/
  | addRecordFails (log : Log.Writer) (status : Status)
  | sync
  | syncFails (status : Status)
  /-- An operation is inserted. -/
  | insert
  /-- The leader takes the lock again. -/
  | finish

/-- The beginning of `InsertInto`. -/
def startInserting (updates : WriteBatch) : Phase :=
  if updates.rep.length < WriteBatch.kHeader then
    .finishing (.corruption "malformed WriteBatch (too small)")
  else .inserting (updates.rep.drop WriteBatch.kHeader) 0 updates.sequence

/-- The writer at the front, which has this batch, becomes the leader. -/
def lead (s : DBImpl) (first : Writer) (b : WriteBatch) (writers : List Writer) : DBImpl :=
  let built := buildBatchGroup s.tmpBatch first b writers
  let updates := (built.1.getD b).setSequence (s.lastSequence + 1)
  { s with
    tmpBatch := if built.1.isSome then updates else s.tmpBatch
    active := some ({
      sync := first.sync
      updates
      isTmp := built.1.isSome
      group := built.2
      lastSequence := s.lastSequence + updates.count.signExtend 64 }, .logging) }

/-- The first writers in the queue leave it with a status. -/
def leave (s : DBImpl) (group : ℕ) (status : Status) : DBImpl :=
  { s with
    writers := s.writers.drop group
    active := none
    done := s.done ++ [(s.writers.take group, status)] }

def recordBackgroundError (s : DBImpl) (status : Status) : DBImpl :=
  if s.bgError = .ok then { s with bgError := status } else s

/-- The leader has the lock again. -/
def publish (s : DBImpl) (leader : Leader) (status : Status) : DBImpl :=
  { s with
    tmpBatch := if leader.isTmp then WriteBatch.clear else s.tmpBatch
    lastSequence := leader.lastSequence }.leave leader.group status

variable (crc : Crc32c) (room : MemTable → Bool)

/-- A step of `Write`, for a memtable that is small enough as long as there is `room`. -/
def step (s : DBImpl) : Action → Option DBImpl
  | .write w => some { s with writers := s.writers ++ [w] }
  | .lead =>
    match s.active, s.writers with
    | none, first :: writers =>
      -- what `MakeRoomForWrite` returns
      if s.bgError ≠ .ok then some (s.leave 1 s.bgError)
      else if room s.mem then first.batch.map fun b => s.lead first b writers
      else none
    | _, _ => none
  | .addRecord =>
    match s.active with
    | some (leader, .logging) => some { s with
        log := s.log.addRecord crc leader.updates.rep
        active := some (leader, if leader.sync then .syncing else startInserting leader.updates) }
    | _ => none
  | .addRecordFails log status =>
    match s.active with
    | some (leader, .logging) =>
      if s.log.dest <+: log.dest then
        some { s with log, active := some (leader, .finishing status) }
      else none
    | _ => none
  | .sync =>
    match s.active with
    | some (leader, .syncing) => some { s with
        synced := s.log.dest.length
        active := some (leader, startInserting leader.updates) }
    | _ => none
  | .syncFails status =>
    match s.active with
    | some (leader, .syncing) => some { s with active := some (leader, .syncError status) }
    | _ => none
  | .insert =>
    match s.active with
    | some (leader, .inserting [] found _) =>
      let status : Status :=
        if found ≠ leader.updates.count then .corruption "WriteBatch has wrong count" else .ok
      some { s with active := some (leader, .finishing status) }
    | some (leader, .inserting (tag :: input) found sequence) =>
      match WriteBatch.readRecord tag input with
      | .error status => some { s with active := some (leader, .finishing status) }
      | .ok (op, input) =>
        let (sequence, mem) := MemTable.inserter.apply (sequence, some s.mem) op
        mem.map fun mem =>
          { s with mem, active := some (leader, .inserting input (found + 1) sequence) }
    | _ => none
  | .finish =>
    match s.active with
    | some (leader, .finishing status) => some (s.publish leader status)
    | some (leader, .syncError status) =>
      some ((s.recordBackgroundError status).publish leader status)
    | _ => none

/-- The writers are valid, and may come at any time; what fails has an error. -/
def Allowed : Action → Prop
  | .write w => w.Valid
  | .addRecordFails _ status | .syncFails status => status ≠ .ok
  | _ => True

/-- The file does what it is asked to. -/
def Succeeds : Action → Prop
  | .addRecordFails _ _ | .syncFails _ => False
  | _ => True

def system (comparator : Comparator) : System DBImpl Action where
  start s := s = new comparator
  step s e s' := Allowed e ∧ s.step crc room e = some s'

/-- Who has come after a step. -/
def join (writers : List Writer) : Action → List Writer
  | .write w => writers ++ [w]
  | _ => writers

/-- The writers that have come, the first one first. -/
def joined : List Action → List Writer
  | [] => []
  | e :: past => join (joined past) e

/-- The operations of a group, which are committed at once. -/
def groupOps (group : List Writer) : List Operation := group.flatMap Writer.ops

/-- The groups that are done. -/
def groups (s : DBImpl) : List (List Writer) := s.done.map Prod.fst

/-- The operations of the groups that are done. -/
def committed (s : DBImpl) : List Operation := s.groups.flatMap groupOps

theorem groupOps_append (g g' : List Writer) : groupOps (g ++ g') = groupOps g ++ groupOps g' :=
  List.flatMap_append

theorem groupOps_flatten (groups : List (List Writer)) :
    groupOps groups.flatten = groups.flatMap groupOps := by
  induction groups with
  | nil => rfl
  | cons group groups ih => rw [List.flatten_cons, groupOps_append, ih, List.flatMap_cons]

/-! ## The queue -/

section Queue

variable {crc room} {c : Comparator} {s s' : DBImpl}

/-- What a step does to the queue: the writers at the front leave it with a status, and then there is
no leader, or nobody does. -/
inductive Leaves (s s' : DBImpl) (e : Action) : Prop
  | stay (writers : s'.writers = join s.writers e) (done : s'.done = s.done)
      (bgError : s'.bgError = s.bgError)
  | leave (group : ℕ) (status : Status) (same : ∀ joined, join joined e = joined)
      (writers : s'.writers = s.writers.drop group)
      (done : s'.done = s.done ++ [(s.writers.take group, status)]) (idle : s'.active = none)

theorem leaves_of_step {e : Action} (hs : s.step crc room e = some s') : Leaves s s' e := by
  cases e with
  | write w =>
    obtain rfl := Option.some.inj hs
    exact .stay rfl rfl rfl
  | lead =>
    rw [step] at hs
    split at hs
    · split_ifs at hs
      · obtain rfl := Option.some.inj hs
        exact .leave 1 s.bgError (fun _ => rfl) rfl rfl rfl
      · obtain ⟨b, -, rfl⟩ := Option.map_eq_some_iff.1 hs
        exact .stay rfl rfl rfl
    · cases hs
  | addRecordFails log status =>
    rw [step] at hs
    split at hs
    · split_ifs at hs
      obtain rfl := Option.some.inj hs
      exact .stay rfl rfl rfl
    · cases hs
  | addRecord | sync | syncFails =>
    rw [step] at hs
    split at hs
    · obtain rfl := Option.some.inj hs
      exact .stay rfl rfl rfl
    · cases hs
  | insert =>
    rw [step] at hs
    split at hs
    · obtain rfl := Option.some.inj hs
      exact .stay rfl rfl rfl
    · split at hs
      · obtain rfl := Option.some.inj hs
        exact .stay rfl rfl rfl
      · obtain ⟨m, -, rfl⟩ := Option.map_eq_some_iff.1 hs
        exact .stay rfl rfl rfl
    · cases hs
  | finish =>
    rw [step] at hs
    split at hs
    · next leader status _ =>
      obtain rfl := Option.some.inj hs
      exact .leave leader.group status (fun _ => rfl) rfl rfl rfl
    · next leader status _ =>
      obtain rfl := Option.some.inj hs
      refine .leave leader.group status (fun _ => rfl) ?_ ?_ rfl
      all_goals
        unfold recordBackgroundError
        split_ifs <;> rfl
    · cases hs

/-- Nobody else leaves the queue, and whoever comes is behind the others. -/
theorem queue_step {e : Action} (hs : s.step crc room e = some s') :
    s'.groups.flatten ++ s'.writers = join (s.groups.flatten ++ s.writers) e := by
  cases leaves_of_step hs with
  | stay writers done bgError =>
    rw [writers, groups, done]
    cases e with
    | write w => exact (List.append_assoc _ _ _).symm
    | _ => rfl
  | leave group status same writers done idle =>
    rw [writers, groups, done, same, List.map_append, List.flatten_append, List.map_singleton,
      List.flatten_singleton, List.append_assoc, List.take_append_drop]
    rfl

/-- In every run, whatever fails, the writers leave the queue in the order they have come in. -/
theorem queue_of_run {past : List Action} (hrun : (system crc room c).Run past s) :
    s.groups.flatten ++ s.writers = joined past := by
  refine hrun.invariant (I := fun past s => s.groups.flatten ++ s.writers = joined past) ?_ ?_
  · rintro s rfl
    rfl
  · intro past s e s' _ ih hs
    rw [queue_step hs.2, ih, joined]

end Queue

/-! ## After an error -/

section Error

variable {crc room} {c : Comparator} {s s' : DBImpl} {past : List Action}

/-- Without a leader writers can only come, and after an error those at the front leave at once. -/
theorem step_of_bgError {e : Action} (hidle : s.active = none) (herror : s.bgError ≠ .ok)
    (hs : s.step crc room e = some s') :
    (∃ w, s' = { s with writers := s.writers ++ [w] }) ∨ s' = s.leave 1 s.bgError := by
  cases e with
  | write w => exact .inl ⟨w, (Option.some.inj hs).symm⟩
  | lead =>
    rw [step, hidle] at hs
    split at hs
    · rw [if_pos herror] at hs
      exact .inr (Option.some.inj hs).symm
    · cases hs
  | _ =>
    rw [step, hidle] at hs
    cases hs

/-- There is no leader any more once a sync has failed. -/
theorem idle_of_bgError (hrun : (system crc room c).Run past s) (herror : s.bgError ≠ .ok) :
    s.active = none := by
  refine hrun.invariant (I := fun _ s => s.bgError ≠ .ok → s.active = none) ?_ ?_ herror
  · rintro s rfl -
    rfl
  · intro past s e s' _ ih hs herror'
    cases leaves_of_step hs.2 with
    | stay writers done bgError =>
      rw [bgError] at herror'
      rcases step_of_bgError (ih herror') herror' hs.2 with ⟨w, rfl⟩ | rfl
      · exact ih herror'
      · rfl
    | leave _ _ _ _ _ idle => exact idle

/-- What is as it was when a sync failed, and how the writers are done that have left since. -/
structure Failed (s s' : DBImpl) : Prop where
  idle : s'.active = none
  bgError : s'.bgError = s.bgError
  log : s'.log = s.log
  mem : s'.mem = s.mem
  lastSequence : s'.lastSequence = s.lastSequence
  done : ∃ more, s'.done = s.done ++ more ∧ ∀ g ∈ more, g.2 = s.bgError

theorem Failed.step {s'' : DBImpl} {e : Action} (h : Failed s s') (herror : s.bgError ≠ .ok)
    (hs : s'.step crc room e = some s'') : Failed s s'' := by
  obtain ⟨hidle, hbgError, hlog, hmem, hlast, more, hdone, hmore⟩ := h
  rcases step_of_bgError hidle (hbgError.symm ▸ herror) hs with ⟨w, rfl⟩ | rfl
  · exact ⟨hidle, hbgError, hlog, hmem, hlast, more, hdone, hmore⟩
  · refine ⟨rfl, hbgError, hlog, hmem, hlast, more ++ [(s'.writers.take 1, s'.bgError)], ?_, ?_⟩
    · rw [← List.append_assoc, ← hdone]
      rfl
    · exact List.forall_mem_append.2 ⟨hmore, List.forall_mem_singleton.2 hbgError⟩

/-- After a sync has failed all future writes fail, with its error and without a trace. -/
theorem failed_of_run (hrun : (system crc room c).Run past s) (herror : s.bgError ≠ .ok)
    {later : List Action} (hlater : ((system crc room c).after s).Run later s') : Failed s s' := by
  have hidle := idle_of_bgError hrun herror
  refine hlater.carries (fun s' e s'' h hs => h.step herror hs.2) ?_
  exact ⟨hidle, rfl, rfl, rfl, rfl, [], (List.append_nil _).symm,
    fun _ hg => absurd hg List.not_mem_nil⟩

end Error

/-! ## What the log holds -/

/-- These records hold the operations of these groups, numbered from a base on. -/
inductive Recorded : ℕ → List (List Writer) → List Bytes → Prop
  | nil (base : ℕ) : Recorded base [] []
  | cons {base : ℕ} {group : List Writer} {groups : List (List Writer)} {b : WriteBatch}
      {records : List Bytes} (batch : b.Holds (BitVec.ofNat 64 base) (groupOps group))
      (length_lt : (groupOps group).length < 2 ^ 31)
      (rest : Recorded (base + (groupOps group).length) groups records) :
      Recorded base (group :: groups) (b.rep :: records)

theorem Recorded.concat {base : ℕ} {groups : List (List Writer)} {records : List Bytes}
    (h : Recorded base groups records) {b : WriteBatch} {group : List Writer}
    (hb : b.Holds (BitVec.ofNat 64 (base + (groups.flatMap groupOps).length)) (groupOps group))
    (hlength : (groupOps group).length < 2 ^ 31) :
    Recorded base (groups ++ [group]) (records ++ [b.rep]) := by
  induction h with
  | nil base => exact .cons hb hlength (.nil _)
  | @cons base g groups b' records batch length_lt rest ih =>
    refine .cons batch length_lt (ih ?_)
    rw [List.flatMap_cons, List.length_append, ← Nat.add_assoc] at hb
    exact hb

theorem Recorded.length_eq {base : ℕ} {groups : List (List Writer)} {records : List Bytes}
    (h : Recorded base groups records) : groups.length = records.length := by
  induction h with
  | nil base => rfl
  | cons batch length_lt rest ih => rw [List.length_cons, List.length_cons, ih]

/-- The log holds these groups, and what has been synced every one of the settled groups in which a
writer has asked for it. -/
structure Logged (log : Log.Writer) (synced : ℕ) (groups settled : List (List Writer)) : Prop where
  exists_records : ∃ records, log = Log.Writer.addRecords crc {} records ∧
    Recorded 1 groups records ∧ ∃ k ≤ records.length,
      (Log.Writer.addRecords crc {} (records.take k)).dest.length ≤ synced ∧
      ∀ group ∈ settled.drop k, ∀ w ∈ group, w.sync = false

variable {crc room}

theorem logged_new : Logged crc {} 0 [] [] :=
  ⟨[], rfl, .nil 1, 0, Nat.le_refl 0, Nat.le_refl 0, fun _ h => absurd h List.not_mem_nil⟩

namespace Logged

variable {log : Log.Writer} {synced : ℕ} {groups settled : List (List Writer)}

/-- The batch of a group is appended. -/
theorem addRecord (h : Logged crc log synced groups settled) {b : WriteBatch} {group : List Writer}
    (hb : b.Holds (BitVec.ofNat 64 ((groups.flatMap groupOps).length + 1)) (groupOps group))
    (hlength : (groupOps group).length < 2 ^ 31) :
    Logged crc (log.addRecord crc b.rep) synced (groups ++ [group]) settled := by
  obtain ⟨records, rfl, hrecorded, k, hk, hsynced, hsettled⟩ := h
  rw [Nat.add_comm] at hb
  refine ⟨records ++ [b.rep], ?_, hrecorded.concat hb hlength, k, ?_, ?_, hsettled⟩
  · rw [Log.Writer.addRecords_append]
    rfl
  · rw [List.length_append]
    omega
  · rwa [List.take_append_of_le_length hk]

/-- A group is settled if nobody in it has asked for more. -/
theorem settle (h : Logged crc log synced groups settled) {group : List Writer}
    (hgroup : ∀ w ∈ group, w.sync = false) :
    Logged crc log synced groups (settled ++ [group]) := by
  obtain ⟨records, hlog, hrecorded, k, hk, hsynced, hsettled⟩ := h
  refine ⟨records, hlog, hrecorded, k, hk, hsynced, fun g hg => ?_⟩
  rw [List.drop_append] at hg
  rcases List.mem_append.1 hg with hg | hg
  · exact hsettled g hg
  · rw [List.mem_singleton.1 (List.mem_of_mem_drop hg)]
    exact hgroup

/-- When the file is synced every group in it is settled. -/
theorem sync (h : Logged crc log synced groups settled) :
    Logged crc log log.dest.length groups groups := by
  obtain ⟨records, rfl, hrecorded, -⟩ := h
  refine ⟨records, rfl, hrecorded, records.length, Nat.le_refl _, ?_, ?_⟩
  · rw [List.take_length]
  · rw [← hrecorded.length_eq, List.drop_length]
    exact fun _ h => absurd h List.not_mem_nil

end Logged

/-! ## What every state satisfies -/

/-- The leader has the batch of the group at the front of the queue, numbered from the next number
on. -/
structure Leads (committed : List Operation) (tmpBatch : WriteBatch) (writers : List Writer)
    (leader : Leader) : Prop where
  group_pos : 0 < leader.group
  group_le : leader.group ≤ writers.length
  length_lt : (groupOps (writers.take leader.group)).length < 2 ^ 31
  updates : leader.updates.Holds (BitVec.ofNat 64 (committed.length + 1))
    (groupOps (writers.take leader.group))
  lastSequence : leader.lastSequence =
    BitVec.ofNat 64 (committed.length + (groupOps (writers.take leader.group)).length)
  sync : ∀ w ∈ writers.take leader.group, w.sync = true → leader.sync = true
  tmp : leader.isTmp = false → ∃ seq, tmpBatch.Holds seq []

/-- Others may join the queue. -/
theorem Leads.write {committed : List Operation} {tmpBatch : WriteBatch} {writers : List Writer}
    {leader : Leader} (h : Leads committed tmpBatch writers leader) (w : Writer) :
    Leads committed tmpBatch (writers ++ [w]) leader := by
  have htake : (writers ++ [w]).take leader.group = writers.take leader.group :=
    List.take_append_of_le_length h.group_le
  refine ⟨h.group_pos, ?_, ?_, ?_, ?_, ?_, h.tmp⟩
  · rw [List.length_append]
    exact Nat.le_trans h.group_le (Nat.le_add_right _ _)
  · rw [htake]
    exact h.length_lt
  · rw [htake]
    exact h.updates
  · rw [htake]
    exact h.lastSequence
  · rw [htake]
    exact h.sync

variable (crc) in
/-- What the log and the memtable hold in each phase. -/
inductive Stands (s : DBImpl) : Option (Leader × Phase) → Prop
  | idle (tmp : ∃ seq, s.tmpBatch.Holds seq [])
      (logged : Logged crc s.log s.synced s.groups s.groups) (mem : s.mem.Holds 1 s.committed) :
      Stands s none
  | logging {leader : Leader} (leads : Leads s.committed s.tmpBatch s.writers leader)
      (logged : Logged crc s.log s.synced s.groups s.groups) (mem : s.mem.Holds 1 s.committed) :
      Stands s (some (leader, .logging))
  | syncing {leader : Leader} (leads : Leads s.committed s.tmpBatch s.writers leader)
      (logged : Logged crc s.log s.synced (s.groups ++ [s.writers.take leader.group]) s.groups)
      (mem : s.mem.Holds 1 s.committed) :
      Stands s (some (leader, .syncing))
  | inserting {leader : Leader} {input : Bytes} {found : BitVec 32} {sequence : BitVec 64}
      (inserted rest : List Operation)
      (leads : Leads s.committed s.tmpBatch s.writers leader)
      (logged : Logged crc s.log s.synced (s.groups ++ [s.writers.take leader.group])
        (s.groups ++ [s.writers.take leader.group]))
      (split : groupOps (s.writers.take leader.group) = inserted ++ rest)
      (mem : s.mem.Holds 1 (s.committed ++ inserted))
      (input_eq : input = rest.flatMap Operation.record)
      (found_eq : found = BitVec.ofNat 32 inserted.length)
      (sequence_eq : sequence = BitVec.ofNat 64 (1 + (s.committed ++ inserted).length)) :
      Stands s (some (leader, .inserting input found sequence))
  | finishing {leader : Leader} (leads : Leads s.committed s.tmpBatch s.writers leader)
      (logged : Logged crc s.log s.synced (s.groups ++ [s.writers.take leader.group])
        (s.groups ++ [s.writers.take leader.group]))
      (mem : s.mem.Holds 1 (s.committed ++ groupOps (s.writers.take leader.group))) :
      Stands s (some (leader, .finishing .ok))

variable (crc) in
/-- The writers that have come are done, in this order, or in the queue. -/
structure Sound (c : Comparator) (s : DBImpl) (writers : List Writer) : Prop where
  queue : s.groups.flatten ++ s.writers = writers
  valid : ∀ w ∈ writers, w.Valid
  status : ∀ g ∈ s.done, g.2 = .ok
  last : s.lastSequence = BitVec.ofNat 64 s.committed.length
  bgError : s.bgError = .ok
  comparator : s.mem.comparator = c
  stands : Stands crc s s.active

/-! ## Every step -/

section Steps

variable {c : Comparator} {s s' : DBImpl} {joined : List Writer}

theorem sound_new : Sound crc c (new c) [] where
  queue := rfl
  valid _ h := absurd h List.not_mem_nil
  status _ h := absurd h List.not_mem_nil
  last := rfl
  bgError := rfl
  comparator := rfl
  stands := .idle ⟨0, WriteBatch.holds_clear⟩ logged_new (MemTable.holds_new c (by decide))

namespace Sound

/-- Whoever comes is behind the others. -/
theorem write (h : Sound crc c s joined) {w : Writer} (hw : w.Valid)
    (hs : s.step crc room (.write w) = some s') : Sound crc c s' (joined ++ [w]) := by
  have hqueue := queue_step hs
  rw [h.queue] at hqueue
  obtain rfl := Option.some.inj hs
  refine ⟨hqueue, ?_, h.status, h.last, h.bgError, h.comparator, ?_⟩
  · intro v hv
    rcases List.mem_append.1 hv with hv | hv
    · exact h.valid v hv
    · rw [List.mem_singleton.1 hv]
      exact hw
  · have hsame : ∀ leader : Leader, leader.group ≤ s.writers.length →
        (s.writers ++ [w]).take leader.group = s.writers.take leader.group :=
      fun leader hle => List.take_append_of_le_length hle
    have hstands := h.stands
    show Stands crc _ s.active
    generalize s.active = active at hstands
    cases hstands with
    | idle tmp logged mem => exact .idle tmp logged mem
    | logging leads logged mem => exact .logging (leads.write w) logged mem
    | @syncing leader leads logged mem =>
      exact .syncing (leads.write w) (by rw [hsame leader leads.group_le]; exact logged) mem
    | @inserting leader _ _ _ inserted rest leads logged split mem hinput hfound hsequence =>
      exact .inserting inserted rest (leads.write w)
        (by rw [hsame leader leads.group_le]; exact logged)
        (by rw [hsame leader leads.group_le]; exact split) mem hinput hfound hsequence
    | @finishing leader leads logged mem =>
      exact .finishing (leads.write w) (by rw [hsame leader leads.group_le]; exact logged)
        (by rw [hsame leader leads.group_le]; exact mem)

/-- Whoever is in the queue is valid. -/
theorem valid_writers (h : Sound crc c s joined) {w : Writer} (hw : w ∈ s.writers) : w.Valid :=
  h.valid w (by rw [← h.queue]; exact List.mem_append_right _ hw)

/-- What is done and what a group is about to do are operations of those who have come. -/
theorem length_le (h : Sound crc c s joined) (k : ℕ) :
    s.committed.length + (groupOps (s.writers.take k)).length ≤ (groupOps joined).length := by
  have hwriters : groupOps s.writers =
      groupOps (s.writers.take k) ++ groupOps (s.writers.drop k) := by
    rw [← groupOps_append, List.take_append_drop]
  rw [← h.queue, groupOps_append, groupOps_flatten, List.length_append, hwriters,
    List.length_append, committed]
  omega

/-- A count of fewer than `2^31` operations is not negative. -/
theorem signExtend_ofNat {n : ℕ} (h : n < 2 ^ 31) :
    (BitVec.ofNat 32 n).signExtend 64 = BitVec.ofNat 64 n := by
  have hn : (BitVec.ofNat 32 n).toNat = n := by
    rw [BitVec.toNat_ofNat, Nat.mod_eq_of_lt (by omega)]
  have hmsb : (BitVec.ofNat 32 n).msb = false := by
    rw [BitVec.msb_eq_false_iff_two_mul_lt, hn]
    omega
  rw [BitVec.signExtend_eq_setWidth_of_msb_false hmsb]
  apply BitVec.eq_of_toNat_eq
  rw [BitVec.toNat_setWidth, hn, BitVec.toNat_ofNat]

/-- The first writer in the queue builds the batch of its group. -/
theorem lead (h : Sound crc c s joined) (hs : s.step crc room .lead = some s') :
    Sound crc c s' joined := by
  have hstands := h.stands
  rw [step] at hs
  cases hactive : s.active with
  | some active =>
    rw [hactive] at hs
    cases hs
  | none =>
    cases hwriters : s.writers with
    | nil =>
      rw [hactive, hwriters] at hs
      cases hs
    | cons first writers =>
      rw [hactive, hwriters] at hs
      rw [hactive] at hstands
      obtain ⟨⟨seqTmp, htmp⟩, hlogged, hmem⟩ : (∃ seq, s.tmpBatch.Holds seq []) ∧
          Logged crc s.log s.synced s.groups s.groups ∧ s.mem.Holds 1 s.committed := by
        cases hstands with
        | idle tmp logged mem => exact ⟨tmp, logged, mem⟩
      dsimp only at hs
      rw [if_neg (not_not_intro h.bgError)] at hs
      split_ifs at hs
      obtain ⟨b, hb, rfl⟩ := Option.map_eq_some_iff.1 hs
      have hvalid : ∀ w ∈ first :: writers, w.Valid :=
        fun w hw => h.valid_writers (by rw [hwriters]; exact hw)
      obtain ⟨hle, ⟨seq, hholds⟩, hlength, hpos, hsync⟩ := buildBatchGroup_spec htmp hvalid hb
      have hset := hholds.setSequence (s.lastSequence + 1)
      have hnext : s.lastSequence + 1 = BitVec.ofNat 64 (s.committed.length + 1) := by
        rw [h.last, BitVec.ofNat_add]
        rfl
      rw [← hwriters] at hle hset hlength hsync
      refine ⟨h.queue, h.valid, h.status, h.last, h.bgError, h.comparator,
        .logging ⟨hpos, hle, hlength, ?_, ?_, hsync, ?_⟩ hlogged hmem⟩
      · show WriteBatch.Holds _ (BitVec.ofNat 64 (s.committed.length + 1)) _
        rw [← hnext]
        exact hset
      · have hcount := hset.count_eq
        have hextended := congrArg (BitVec.signExtend 64) hcount
        rw [signExtend_ofNat hlength] at hextended
        exact (congrArg₂ (· + ·) h.last hextended).trans (BitVec.ofNat_add _ _).symm
      · intro hnone
        have hsame : (s.lead first b writers).tmpBatch = s.tmpBatch :=
          if_neg (Bool.eq_false_iff.1 hnone)
        exact ⟨seqTmp, hsame.symm ▸ htmp⟩

end Sound

/-- At the beginning of an insertion nothing is inserted. -/
theorem stands_startInserting {leader : Leader}
    (leads : Leads s.committed s.tmpBatch s.writers leader)
    (logged : Logged crc s.log s.synced (s.groups ++ [s.writers.take leader.group])
      (s.groups ++ [s.writers.take leader.group]))
    (mem : s.mem.Holds 1 s.committed) :
    Stands crc s (some (leader, startInserting leader.updates)) := by
  have hlength := leads.updates.length_rep
  have hmem : s.mem.Holds 1 (s.committed ++ []) := by rwa [List.append_nil]
  rw [startInserting, if_neg (by omega)]
  refine .inserting [] _ leads logged rfl hmem leads.updates.records_eq rfl ?_
  rw [leads.updates.sequence_eq, List.append_nil, Nat.add_comm]

namespace Sound

theorem addRecord (h : Sound crc c s joined) (hs : s.step crc room .addRecord = some s') :
    Sound crc c s' joined := by
  have hstands := h.stands
  rw [step] at hs
  split at hs
  · next leader hactive =>
    rw [hactive] at hstands
    obtain rfl := Option.some.inj hs
    cases hstands with
    | logging leads logged mem =>
      have hlogged := logged.addRecord leads.updates leads.length_lt
      refine ⟨h.queue, h.valid, h.status, h.last, h.bgError, h.comparator, ?_⟩
      cases hsync : leader.sync with
      | true => exact .syncing leads hlogged mem
      | false =>
        refine stands_startInserting (s := { s with
          log := s.log.addRecord crc leader.updates.rep
          active := some (leader, startInserting leader.updates) }) leads (hlogged.settle ?_) mem
        intro w hw
        rw [Bool.eq_false_iff]
        intro hwsync
        rw [leads.sync w hw hwsync] at hsync
        cases hsync
  · cases hs

theorem sync (h : Sound crc c s joined) (hs : s.step crc room .sync = some s') :
    Sound crc c s' joined := by
  have hstands := h.stands
  rw [step] at hs
  split at hs
  · next leader hactive =>
    rw [hactive] at hstands
    obtain rfl := Option.some.inj hs
    cases hstands with
    | syncing leads logged mem =>
      refine ⟨h.queue, h.valid, h.status, h.last, h.bgError, h.comparator, ?_⟩
      exact stands_startInserting (s := { s with
        synced := s.log.dest.length
        active := some (leader, startInserting leader.updates) }) leads logged.sync mem
  · cases hs

/-- There is no operation left, and as many were found as are counted. -/
theorem insert_last (h : Sound crc c s joined) {leader : Leader} {found : BitVec 32}
    {sequence : BitVec 64} (hactive : s.active = some (leader, .inserting [] found sequence)) :
    s.step crc room .insert = some { s with active := some (leader, .finishing .ok) } ∧
      Sound crc c { s with active := some (leader, .finishing .ok) } joined := by
  have hstands := h.stands
  rw [hactive] at hstands
  cases hstands with
  | inserting inserted rest leads logged split mem hinput hfound _ =>
    have hrest : rest = [] := by
      have hle := WriteBatch.length_le_records rest
      rw [← hinput] at hle
      exact List.length_eq_zero_iff.1 (Nat.le_zero.1 hle)
    rw [hrest, List.append_nil] at split
    have hcount : found = leader.updates.count := by
      rw [leads.updates.count_eq, split, hfound]
    constructor
    · rw [step, hactive]
      dsimp only
      rw [if_neg (not_not_intro hcount)]
    · exact ⟨h.queue, h.valid, h.status, h.last, h.bgError, h.comparator,
        .finishing leads logged (by rw [split]; exact mem)⟩

/-- The next operation is inserted. -/
theorem insert_next [Std.TransCmp c.compare] (h : Sound crc c s joined)
    (hsize : (groupOps joined).length < 2 ^ 56) {leader : Leader} {tag : Byte} {input : Bytes}
    {found : BitVec 32} {sequence : BitVec 64}
    (hactive : s.active = some (leader, .inserting (tag :: input) found sequence)) :
    ∃ op rest m, WriteBatch.readRecord tag input = .ok (op, rest) ∧
      s.step crc room .insert = some { s with
        mem := m
        active := some (leader, .inserting rest (found + 1) (sequence + 1)) } ∧
      Sound crc c { s with
        mem := m
        active := some (leader, .inserting rest (found + 1) (sequence + 1)) } joined := by
  have hstands := h.stands
  rw [hactive] at hstands
  cases hstands with
  | inserting inserted rest leads logged split mem hinput hfound hsequence =>
    cases rest with
    | nil => cases hinput
    | cons op rest =>
      have hop : op ∈ groupOps (s.writers.take leader.group) := by
        rw [split]
        exact List.mem_append_right _ List.mem_cons_self
      have hfits : op.FitsEntry := by
        obtain ⟨w, hw, hop⟩ := List.mem_flatMap.1 hop
        exact (h.valid_writers (List.mem_of_mem_take hw)).fits op hop
      obtain ⟨tag', input', hrecord, hread⟩ := WriteBatch.readRecord_record
        (MemTable.fits_of_fitsEntry hfits) (rest.flatMap Operation.record)
      rw [List.flatMap_cons, hrecord] at hinput
      obtain ⟨rfl, rfl⟩ := List.cons.inj hinput
      have htrans : Std.TransCmp s.mem.comparator.compare := h.comparator.symm ▸ inferInstance
      have hle := h.length_le leader.group
      have hlength := congrArg List.length split
      rw [List.length_append, List.length_cons] at hlength
      have hnext : 1 + (s.committed ++ inserted).length < 2 ^ 56 := by
        rw [List.length_append]
        omega
      obtain ⟨m, hadd, hcomparator, hmem⟩ := mem.add hfits hnext
      refine ⟨op, _, m, hread, ?_, h.queue, h.valid, h.status, h.last,
        h.bgError, hcomparator.trans h.comparator,
        .inserting (inserted ++ [op]) rest leads logged ?_ ?_ rfl ?_ ?_⟩
      · rw [step, hactive]
        dsimp only
        rw [hread]
        dsimp only
        rw [MemTable.apply_inserter, hsequence, hadd]
        rfl
      · rw [List.append_assoc, List.singleton_append]
        exact split
      · rw [← List.append_assoc]
        exact hmem
      · rw [hfound, List.length_append, List.length_singleton, BitVec.ofNat_add]
        rfl
      · have hsucc : 1 + (s.committed ++ (inserted ++ [op])).length =
            1 + (s.committed ++ inserted).length + 1 := by
          simp only [List.length_append, List.length_singleton]
          omega
        have hnumber := congrArg (BitVec.ofNat 64) hsucc
        rw [BitVec.ofNat_add _ 1, ← hsequence] at hnumber
        exact hnumber.symm

/-- The leader goes on inserting, and it has less to do. -/
theorem exists_insert [Std.TransCmp c.compare] (h : Sound crc c s joined)
    (hsize : (groupOps joined).length < 2 ^ 56) {leader : Leader} {input : Bytes}
    {found : BitVec 32} {sequence : BitVec 64}
    (hactive : s.active = some (leader, .inserting input found sequence)) :
    ∃ s', s.step crc room .insert = some s' ∧ Sound crc c s' joined ∧ s'.done = s.done ∧
      s'.writers = s.writers ∧ ∃ phase, s'.active = some (leader, phase) ∧
        phase.toGo leader < (Phase.inserting input found sequence).toGo leader := by
  cases input with
  | nil =>
    obtain ⟨hs, hsound⟩ := h.insert_last hactive
    exact ⟨_, hs, hsound, rfl, rfl, _, rfl, Nat.succ_pos _⟩
  | cons tag input =>
    obtain ⟨op, rest, m, hread, hs, hsound⟩ := h.insert_next hsize hactive
    have hlt := WriteBatch.length_readRecord hread
    refine ⟨_, hs, hsound, rfl, rfl, _, rfl, ?_⟩
    rw [Phase.toGo, Phase.toGo, List.length_cons]
    omega

theorem insert [Std.TransCmp c.compare] (h : Sound crc c s joined)
    (hsize : (groupOps joined).length < 2 ^ 56) (hs : s.step crc room .insert = some s') :
    Sound crc c s' joined := by
  cases hactive : s.active with
  | none =>
    rw [DBImpl.step, hactive] at hs
    cases hs
  | some active =>
    obtain ⟨leader, phase⟩ := active
    cases phase with
    | inserting input found sequence =>
      obtain ⟨s'', hs'', hsound, -⟩ := h.exists_insert hsize hactive
      rw [hs] at hs''
      obtain rfl := Option.some.inj hs''
      exact hsound
    | _ =>
      rw [DBImpl.step, hactive] at hs
      cases hs

/-- The group leaves the queue, and its operations are committed. -/
theorem finish (h : Sound crc c s joined) (hs : s.step crc room .finish = some s') :
    Sound crc c s' joined := by
  have hstands := h.stands
  have hqueue := queue_step hs
  rw [h.queue] at hqueue
  rw [step] at hs
  split at hs
  · next leader status hactive =>
    rw [hactive] at hstands
    obtain rfl := Option.some.inj hs
    cases hstands with
    | finishing leads logged mem =>
      have hgroups : (s.publish leader .ok).groups = s.groups ++ [s.writers.take leader.group] :=
        List.map_append
      have hcommitted : (s.publish leader .ok).committed =
          s.committed ++ groupOps (s.writers.take leader.group) := by
        rw [committed, hgroups, List.flatMap_append, List.flatMap_singleton]
        rfl
      refine ⟨hqueue, h.valid, ?_, ?_, h.bgError, h.comparator, .idle ?_ ?_ ?_⟩
      · intro g hg
        rcases List.mem_append.1 hg with hg | hg
        · exact h.status g hg
        · rw [List.mem_singleton.1 hg]
      · rw [hcommitted, List.length_append]
        exact leads.lastSequence
      · show ∃ seq, (if leader.isTmp then WriteBatch.clear else s.tmpBatch).Holds seq []
        split_ifs with htmp
        · exact ⟨0, WriteBatch.holds_clear⟩
        · exact leads.tmp (Bool.eq_false_iff.2 htmp)
      · rw [hgroups]
        exact logged
      · rw [hcommitted]
        exact mem
  · next leader status hactive =>
    rw [hactive] at hstands
    cases hstands
  · cases hs

end Sound

/-- Whatever step is taken next. -/
theorem Sound.step [Std.TransCmp c.compare] {e : Action} (h : Sound crc c s joined)
    (hsize : (groupOps joined).length < 2 ^ 56) (hs : s.step crc room e = some s') (he : Allowed e)
    (hquiet : Succeeds e) : Sound crc c s' (join joined e) := by
  cases e with
  | write w => exact h.write he hs
  | lead => exact h.lead hs
  | addRecord => exact h.addRecord hs
  | addRecordFails => exact hquiet.elim
  | sync => exact h.sync hs
  | syncFails => exact hquiet.elim
  | insert => exact h.insert hsize hs
  | finish => exact h.finish hs

end Steps

/-! ## Every run -/

/-- Those who have come by the last step have brought no fewer operations. -/
theorem length_joined_le (e : Action) (past : List Action) :
    (groupOps (joined past)).length ≤ (groupOps (joined (e :: past))).length := by
  cases e with
  | write w =>
    rw [joined, join, groupOps_append, List.length_append]
    exact Nat.le_add_right _ _
  | _ => exact Nat.le_refl _

theorem sound_of_run {c : Comparator} [Std.TransCmp c.compare] {past : List Action} {s : DBImpl}
    (hrun : (system crc room c).Run past s) (hquiet : ∀ e ∈ past, Succeeds e)
    (hsize : (groupOps (joined past)).length < 2 ^ 56) : Sound crc c s (joined past) := by
  refine hrun.invariant (I := fun past s => (∀ e ∈ past, Succeeds e) →
    (groupOps (joined past)).length < 2 ^ 56 → Sound crc c s (joined past)) ?_ ?_ hquiet hsize
  · rintro s rfl - -
    exact sound_new
  · rintro past s e s' - ih ⟨he, hs⟩ hquiet' hsize'
    have hle := length_joined_le e past
    have hbefore : (groupOps (joined past)).length < 2 ^ 56 := by omega
    rw [List.forall_mem_cons] at hquiet'
    exact (ih hquiet'.2 hbefore).step hbefore hs he hquiet'.1

/-- In every order of steps of which none fails the writers are done in the order they have come in,
each of them once and with success, and a reader at a published number finds what the operations of
theirs up to it have left, also while the next group is being inserted. -/
theorem reads_published {c : Comparator} [Std.TransCmp c.compare] {past : List Action} {s : DBImpl}
    (hrun : (system crc room c).Run past s) (hquiet : ∀ e ∈ past, Succeeds e)
    (hsize : (groupOps (joined past)).length < 2 ^ 56) :
    s.groups.flatten ++ s.writers = joined past ∧ (∀ g ∈ s.done, g.2 = .ok) ∧
      s.lastSequence.toNat = s.committed.length ∧
      ∀ key : Bytes, key.length + 8 < 2 ^ 32 → ∀ n ≤ s.lastSequence.toNat,
        s.mem.get (LookupKey.new key (BitVec.ofNat 64 n)) =
          some ((Versions.lookup c.compare ((s.committed.map Operation.write).take n) key).map
            getResult) := by
  have h := sound_of_run hrun hquiet hsize
  have hle := h.length_le 0
  have hlast : s.lastSequence.toNat = s.committed.length := by
    rw [h.last, BitVec.toNat_ofNat, Nat.mod_eq_of_lt (by omega)]
  refine ⟨h.queue, h.status, hlast, fun key hkey n hn => ?_⟩
  rw [hlast] at hn
  -- what has been inserted so far begins with what is committed
  obtain ⟨later, hmem⟩ : ∃ later, s.mem.Holds 1 (s.committed ++ later) := by
    have hstands := h.stands
    generalize s.active = active at hstands
    cases hstands with
    | idle _ _ mem => exact ⟨[], by rwa [List.append_nil]⟩
    | logging _ _ mem => exact ⟨[], by rwa [List.append_nil]⟩
    | syncing _ _ mem => exact ⟨[], by rwa [List.append_nil]⟩
    | inserting inserted _ _ _ _ mem => exact ⟨inserted, mem⟩
    | finishing _ _ mem => exact ⟨_, mem⟩
  have htrans : Std.TransCmp s.mem.comparator.compare := h.comparator.symm ▸ inferInstance
  have hget := hmem.get hkey (show n < 2 ^ 56 by omega)
  rwa [Nat.add_sub_cancel, List.map_append, List.take_append_of_le_length
    (by rwa [List.length_map]), h.comparator] at hget

/-! ## The leader goes on -/

/-- Steps of the leader that do not fail. -/
def OfLeader : Action → Prop
  | .write _ | .addRecordFails _ _ | .syncFails _ => False
  | _ => True

theorem OfLeader.succeeds {e : Action} (h : OfLeader e) : Succeeds e := by
  cases e with
  | addRecordFails | syncFails => exact absurd h not_false
  | _ => trivial

/-- From one state some steps of the leader lead to another. -/
def LeadsTo (crc : Crc32c) (room : MemTable → Bool) (c : Comparator) (s s' : DBImpl) : Prop :=
  ∃ later, ((system crc room c).after s).Run later s' ∧ ∀ e ∈ later, OfLeader e

section Progress

variable {c : Comparator} {s s' s'' : DBImpl} {joined : List Writer}

theorem LeadsTo.of_step {e : Action} (hs : s.step crc room e = some s') (he : OfLeader e)
    (hallowed : Allowed e) (h : LeadsTo crc room c s' s'') : LeadsTo crc room c s s'' := by
  obtain ⟨later, hrun, hlater⟩ := h
  have hfirst : ((system crc room c).after s).Run [e] s' := .step (.start rfl) ⟨hallowed, hs⟩
  refine ⟨later ++ [e], hfirst.append hrun, fun e' he' => ?_⟩
  rcases List.mem_append.1 he' with he' | he'
  · exact hlater e' he'
  · rw [List.mem_singleton.1 he']
    exact he

theorem LeadsTo.refl : LeadsTo crc room c s s := ⟨[], .start rfl, fun _ h => absurd h List.not_mem_nil⟩

theorem toGo_startInserting (leader : Leader) :
    (startInserting leader.updates).toGo leader ≤ leader.updates.rep.length + 1 := by
  unfold startInserting
  split_ifs
  · exact Nat.zero_le _
  · rw [Phase.toGo, List.length_drop]
    omega

/-- A leader that has its batch gets its group done. -/
theorem Sound.finishes [Std.TransCmp c.compare] (h : Sound crc c s joined)
    (hsize : (groupOps joined).length < 2 ^ 56) {leader : Leader} {phase : Phase}
    (hactive : s.active = some (leader, phase)) :
    ∃ s', LeadsTo crc room c s s' ∧ s'.done = s.done ++ [(s.writers.take leader.group, .ok)] ∧
      s'.writers = s.writers.drop leader.group := by
  have hstart := toGo_startInserting leader
  induction hk : phase.toGo leader using Nat.strongRecOn generalizing s phase with
  | ind k ih =>
    subst hk
    have hstands := h.stands
    rw [hactive] at hstands
    cases hstands with
    | logging leads logged mem =>
      have hs : s.step crc room .addRecord = some { s with
          log := s.log.addRecord crc leader.updates.rep
          active := some (leader,
            if leader.sync then .syncing else startInserting leader.updates) } := by
        rw [DBImpl.step, hactive]
      have hlt :
          (if leader.sync then Phase.syncing else startInserting leader.updates).toGo leader <
            Phase.logging.toGo leader := by
        rw [Phase.toGo]
        split_ifs
        · rw [Phase.toGo]
          omega
        · omega
      obtain ⟨s', hleads, hdone, hwriters⟩ := ih _ hlt (h.addRecord hs) rfl rfl
      exact ⟨s', .of_step hs trivial trivial hleads, hdone, hwriters⟩
    | syncing leads logged mem =>
      have hs : s.step crc room .sync = some { s with
          synced := s.log.dest.length
          active := some (leader, startInserting leader.updates) } := by
        rw [DBImpl.step, hactive]
      have hlt : (startInserting leader.updates).toGo leader < Phase.syncing.toGo leader := by
        rw [Phase.toGo]
        omega
      obtain ⟨s', hleads, hdone, hwriters⟩ := ih _ hlt (h.sync hs) rfl rfl
      exact ⟨s', .of_step hs trivial trivial hleads, hdone, hwriters⟩
    | inserting _ _ _ _ _ _ _ _ _ =>
      obtain ⟨s₁, hs, hsound, hdone, hwriters, phase', hactive', hlt⟩ :=
        h.exists_insert hsize hactive
      obtain ⟨s', hleads, hdone', hwriters'⟩ := ih _ hlt hsound hactive' rfl
      rw [hdone, hwriters] at hdone'
      rw [hwriters] at hwriters'
      exact ⟨s', .of_step hs trivial trivial hleads, hdone', hwriters'⟩
    | finishing leads logged mem =>
      have hs : s.step crc room .finish = some (s.publish leader .ok) := by
        rw [DBImpl.step, hactive]
      exact ⟨_, .of_step hs trivial trivial .refl, rfl, rfl⟩

/-- Whoever leads, the writer at the front is in the group. -/
theorem Sound.front_mem (h : Sound crc c s joined) {first : Writer} {writers : List Writer}
    (hwriters : s.writers = first :: writers) {leader : Leader} {phase : Phase}
    (hactive : s.active = some (leader, phase)) : first ∈ s.writers.take leader.group := by
  have hpos : 0 < leader.group := by
    have hstands := h.stands
    rw [hactive] at hstands
    cases hstands with
    | logging leads => exact leads.group_pos
    | syncing leads => exact leads.group_pos
    | inserting _ _ leads => exact leads.group_pos
    | finishing leads => exact leads.group_pos
  obtain ⟨n, hn⟩ := Nat.exists_eq_add_of_lt hpos
  rw [hwriters, hn, Nat.zero_add, List.take_succ_cons]
  exact List.mem_cons_self

variable (room) in
theorem Sound.front_finishes [Std.TransCmp c.compare] (h : Sound crc c s joined)
    (hsize : (groupOps joined).length < 2 ^ 56) {first : Writer} {writers : List Writer}
    (hwriters : s.writers = first :: writers) (hbatch : first.batch.isSome)
    (hroom : s.active = none → room s.mem = true) :
    ∃ s' group, LeadsTo crc room c s s' ∧ first ∈ group ∧ s'.done = s.done ++ [(group, .ok)] ∧
      group ++ s'.writers = s.writers := by
  cases hactive : s.active with
  | some active =>
    obtain ⟨leader, phase⟩ := active
    obtain ⟨s', hleads, hdone, hrest⟩ := h.finishes hsize hactive
    refine ⟨s', _, hleads, h.front_mem hwriters hactive, hdone, ?_⟩
    rw [hrest, List.take_append_drop]
  | none =>
    obtain ⟨b, hb⟩ := Option.isSome_iff_exists.1 hbatch
    have hs : s.step crc room .lead = some (s.lead first b writers) := by
      rw [DBImpl.step, hactive, hwriters]
      dsimp only
      rw [if_neg (not_not_intro h.bgError), if_pos (hroom hactive), hb]
      rfl
    have hsound := h.lead hs
    obtain ⟨s', hleads, hdone, hrest⟩ := hsound.finishes hsize rfl
    refine ⟨s', _, .of_step hs trivial trivial hleads, hsound.front_mem hwriters rfl, hdone, ?_⟩
    rw [hrest, List.take_append_drop]
    rfl

end Progress

/-- Nobody has to come for the writer at the front to be done, as long as the memtable has room: the
steps of the leader, each of which can be taken, lead to a state in which a group with this writer in
it has been written. -/
theorem writes_finish {c : Comparator} [Std.TransCmp c.compare] {past : List Action} {s : DBImpl}
    (hrun : (system crc room c).Run past s) (hquiet : ∀ e ∈ past, Succeeds e)
    (hsize : (groupOps (joined past)).length < 2 ^ 56) {first : Writer} {writers : List Writer}
    (hwriters : s.writers = first :: writers) (hbatch : first.batch.isSome)
    (hroom : s.active = none → room s.mem = true) :
    ∃ later s' group, (∀ e ∈ later, OfLeader e) ∧ (system crc room c).Run (later ++ past) s' ∧
      first ∈ group ∧ s'.done = s.done ++ [(group, .ok)] ∧ group ++ s'.writers = s.writers := by
  obtain ⟨s', group, ⟨later, hlater, hleader⟩, hfirst, hdone, hrest⟩ :=
    (sound_of_run hrun hquiet hsize).front_finishes room hsize hwriters hbatch hroom
  exact ⟨later, s', group, hleader, hrun.append hlater, hfirst, hdone, hrest⟩

/-! ## A run -/

/-- A writer of one value, which is to be synced. -/
def putOne : Writer := ⟨some (WriteBatch.clear.put [1] [2]), true⟩

theorem built_putOne : WriteBatch.Built (WriteBatch.clear.put [1] [2]) 0 [.put [1] [2]] :=
  WriteBatch.Built.clear.put [1] [2]

theorem valid_putOne : putOne.Valid := by
  intro b hb
  obtain rfl := Option.some.inj hb
  refine ⟨⟨_, _, built_putOne, fun op hop => ?_⟩, by decide⟩
  rw [List.mem_singleton.1 hop]
  exact ⟨by decide, by decide⟩

theorem ops_putOne : putOne.ops = [.put [1] [2]] :=
  built_putOne.holds.operations_eq fun op hop => by
    rw [List.mem_singleton.1 hop]
    exact ⟨by decide, by decide⟩

/-- The writer comes to a database without data. -/
theorem run_putOne (crc : Crc32c) (room : MemTable → Bool) (c : Comparator) :
    (system crc room c).Run [.write putOne] { new c with writers := [putOne] } :=
  .step (.start rfl) ⟨valid_putOne, rfl⟩

theorem succeeds_putOne : ∀ e ∈ [Action.write putOne], Succeeds e :=
  List.forall_mem_singleton.2 trivial

theorem length_putOne : (groupOps (joined [.write putOne])).length < 2 ^ 56 := by
  have hops : groupOps (joined [.write putOne]) = putOne.ops := List.append_nil _
  rw [hops, ops_putOne]
  decide

theorem writes_finish_one : ∃ later s' group, (∀ e ∈ later, OfLeader e) ∧
    (system (Crc32c.portable 0) (fun _ => true) bytewiseComparator).Run
      (later ++ [.write putOne]) s' ∧
    putOne ∈ group ∧ s'.done = [] ++ [(group, .ok)] ∧ group ++ s'.writers = [putOne] :=
  have := BytewiseComparator.lawful.transCmp
  writes_finish (run_putOne _ _ _) succeeds_putOne length_putOne rfl rfl fun _ => rfl

/-- While the leader goes on nobody comes. -/
theorem joined_append {later past : List Action} (h : ∀ e ∈ later, OfLeader e) :
    joined (later ++ past) = joined past := by
  induction later with
  | nil => rfl
  | cons e later ih =>
    rw [List.forall_mem_cons] at h
    rw [List.cons_append, joined, ih h.2]
    cases e with
    | write w => exact absurd h.1 not_false
    | _ => rfl

/-- The writer of one value is done. -/
theorem exists_putOne_done : ∃ past s,
    (system (Crc32c.portable 0) (fun _ => true) bytewiseComparator).Run past s ∧
      (∀ e ∈ past, Succeeds e) ∧ (groupOps (joined past)).length < 2 ^ 56 ∧
      s.groups = [[putOne]] ∧ s.writers = [] := by
  have htrans := BytewiseComparator.lawful.transCmp
  have hrun := run_putOne (Crc32c.portable 0) (fun _ => true) bytewiseComparator
  obtain ⟨s, group, ⟨later, hlater, hleader⟩, hfirst, hdone, hrest⟩ :=
    (sound_of_run hrun succeeds_putOne length_putOne).front_finishes (fun _ => true) length_putOne
      rfl rfl fun _ => rfl
  refine ⟨_, s, hrun.append hlater, ?_, ?_, ?_⟩
  · exact List.forall_mem_append.2 ⟨fun e he => (hleader e he).succeeds, succeeds_putOne⟩
  · rw [joined_append hleader]
    exact length_putOne
  · cases group with
    | nil => exact absurd hfirst List.not_mem_nil
    | cons w group =>
      obtain ⟨rfl, hnil⟩ := List.cons.inj hrest
      obtain ⟨rfl, hwriters⟩ := List.append_eq_nil_iff.1 hnil
      rw [groups, hdone]
      exact ⟨rfl, hwriters⟩

/-- The operations of a group of this writer alone. -/
theorem groupOps_putOne : groupOps [putOne] = [.put [1] [2]] :=
  (List.append_nil _).trans ops_putOne

/-- After the writer of one value is done the value is read. -/
theorem reads_published_one : ∃ past s,
    (system (Crc32c.portable 0) (fun _ => true) bytewiseComparator).Run past s ∧ s.lastSequence.toNat = 1 ∧
      s.mem.get (LookupKey.new [1] 1) = some (some (.ok [2])) := by
  have htrans := BytewiseComparator.lawful.transCmp
  obtain ⟨past, s, hrun, hquiet, hsize, hgroups, -⟩ := exists_putOne_done
  obtain ⟨-, -, hlast, hread⟩ := reads_published hrun hquiet hsize
  have hcommitted : s.committed = [.put [1] [2]] := by
    rw [committed, hgroups]
    exact (List.append_nil _).trans groupOps_putOne
  rw [hcommitted] at hlast hread
  refine ⟨past, s, hrun, hlast, (hread [1] (by decide) 1 (by rw [hlast]; decide)).trans ?_⟩
  rfl

end DBImpl

end PracticeSwift.LevelDb
