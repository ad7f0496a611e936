import PracticeSwift.LevelDb.DBImpl
import PracticeSwift.LevelDb.LogRecovery

/-!
# Recovery

When a database is opened, the batches in its log are inserted into a memtable, which is written to
a table and replaced whenever it is full.  After a crash the log may end anywhere behind what has been
synced; then the memtables hold what some first groups have written, each of them wholly, and among
them every group in which a writer has asked for a sync and has been told that it is done.
-/

namespace PracticeSwift.LevelDb

/-! ## Memtables one after the other -/

namespace MemTable

/-- A reader looks in the newest memtable first, and goes on until the key is found. -/
def getFirst : List MemTable → LookupKey → Option (Option (Except Status Bytes))
  | [], _ => some none
  | m :: older, key => do
    match ← m.get key with
    | some result => return some result
    | none => getFirst older key

/-- The memtables hold these operations, numbered from 1 on, the newest memtable the last ones. -/
inductive Stack (c : Comparator) : List MemTable → List Operation → Prop
  | nil : Stack c [] []
  | cons {m : MemTable} {older : List MemTable} {ops more : List Operation}
      (comparator : m.comparator = c) (holds : m.Holds (1 + ops.length) more)
      (rest : Stack c older ops) : Stack c (m :: older) (ops ++ more)

/-- A reader at a number finds what the operations up to it have left. -/
theorem Stack.getFirst {c : Comparator} [Std.TransCmp c.compare] {ms : List MemTable}
    {ops : List Operation} (h : Stack c ms ops) {key : Bytes} (hkey : key.length + 8 < 2 ^ 32) {n : ℕ}
    (hn : n < 2 ^ 56) :
    getFirst ms (LookupKey.new key (BitVec.ofNat 64 n)) =
      some ((Versions.lookup c.compare ((ops.map Operation.write).take n) key).map getResult) := by
  induction h with
  | nil => rw [List.map_nil, List.take_nil]; rfl
  | @cons m older ops more comparator holds rest ih =>
    have htrans : Std.TransCmp m.comparator.compare := comparator.symm ▸ inferInstance
    have hget := holds.get hkey hn
    rw [comparator, show n + 1 - (1 + ops.length) = n - ops.length by omega] at hget
    rw [MemTable.getFirst, hget, List.map_append, List.take_append, List.length_map,
      Versions.lookup_append]
    cases Versions.lookup c.compare ((more.map Operation.write).take (n - ops.length)) key with
    | some value => rfl
    | none => exact ih

end MemTable

/-! ## Reading the log -/

namespace DBImpl

/-- `LogReporter::Corruption`, which keeps the first error if `paranoid_checks` is set. -/
def corruption (paranoid : Bool) (status s : Status) : Status :=
  if paranoid ∧ status = .ok then s else status

/-- The status of a drop. -/
def dropStatus : Option String → Status
  | some reason => .corruption reason
  | none => .ioError

/-- What `ReadRecord` has reported since. -/
def corruptions (paranoid : Bool) (status : Status) (reports : List (BitVec 64 × Option String)) :
    Status :=
  reports.foldl (fun status report => corruption paranoid status (dropStatus report.2)) status

/-- `MaybeIgnoreError` -/
def maybeIgnoreError (paranoid : Bool) (s : Status) : Status :=
  if s = .ok ∨ paranoid then s else .ok

/-- The variables of `RecoverLogFile`, with the memtables that were written to tables, the newest one
first. -/
structure Recovery where
  status : Status := .ok
  mem : Option MemTable := none
  compactions : ℕ := 0
  tables : List MemTable := []
  maxSequence : BitVec 64 := 0

/-- What `RecoverLogFile` is run with: the memtable has `room` up to `write_buffer_size`, and
`reuseLogs` if the file can be opened again, too. -/
structure RecoveryOptions where
  paranoidChecks : Bool
  reuseLogs : Bool
  room : MemTable → Bool
  /-- How a table is written. -/
  writeLevel0Table : MemTable → Status

namespace Recovery

variable (options : RecoveryOptions)

/-- The memtable is written to a table. -/
def writeLevel0Table (s : Recovery) (mem : MemTable) : Recovery :=
  let status := options.writeLevel0Table mem
  { s with
    status
    mem := none
    tables := if status = .ok then mem :: s.tables else s.tables }

/-- The end of the loop, where a memtable that is too large is written to a table. -/
def flush (s : Recovery) (mem : MemTable) : Recovery :=
  if options.room mem then s
  else { s with compactions := s.compactions + 1 }.writeLevel0Table options mem

/-- What comes after the loop: the log is used again, or the memtable is written to a table. -/
def close (c : Comparator) (s : Recovery) : Recovery :=
  if s.status = .ok ∧ options.reuseLogs ∧ s.compactions = 0 then
    { s with mem := some (s.mem.getD (MemTable.new c)) }
  else
    match s.mem with
    | some mem =>
      if s.status = .ok then s.writeLevel0Table options mem else { s with mem := none }
    | none => s

/-- Where a reader looks. -/
def memTables (s : Recovery) : List MemTable := s.mem.toList ++ s.tables

end Recovery

variable (crc : Crc32c) (c : Comparator) (options : RecoveryOptions)

/-- A record of the log is inserted. -/
def recoverRecord (s : Recovery) (record : Bytes) : Option Recovery :=
  let b : WriteBatch := ⟨record⟩
  let (status, mem) := MemTable.insertInto b (s.mem.getD (MemTable.new c))
  mem.map fun mem =>
    let status := maybeIgnoreError options.paranoidChecks status
    let s := { s with status, mem := some mem }
    if status ≠ .ok then s
    else
      let lastSeq := b.sequence + b.count.signExtend 64 - 1
      { s with
        maxSequence := if s.maxSequence < lastSeq then lastSeq else s.maxSequence }.flush options mem

/-- The loop of `RecoverLogFile`. -/
def recoverLoop (r : Log.Reader) (s : Recovery) : Option Recovery :=
  match _hread : r.readRecord crc with
  | (r', none) =>
    let reports := r'.reports.drop r.reports.length
    some { s with status := corruptions options.paranoidChecks s.status reports }
  | (r', some record) =>
    let reports := r'.reports.drop r.reports.length
    let status := corruptions options.paranoidChecks s.status reports
    if status ≠ .ok then some { s with status }
    else if record.length < 12 then
      let status := corruption options.paranoidChecks status (.corruption "log record too small")
      recoverLoop r' { s with status }
    else
      match recoverRecord c options { s with status } record with
      | none => none
      | some s => if s.status ≠ .ok then some s else recoverLoop r' s
termination_by r.remaining
decreasing_by
  all_goals
    have hlt := r.remaining_readRecord crc (congrArg Prod.snd _hread)
    rwa [_hread] at hlt

/-- `RecoverLogFile` of the only log, which was opened: the checksums are compared even if errors
are to be ignored. -/
def recoverLogFile (file : SequentialFile) : Option Recovery :=
  (recoverLoop crc c options (Log.Reader.new file true 0) {}).map (Recovery.close options c)

variable {crc c options}

/-- At the end of the log. -/
theorem recoverLoop_of_none {r : Log.Reader} {s : Recovery} (h : (r.readRecord crc).2 = none) :
    recoverLoop crc c options r s = some { s with
      status := corruptions options.paranoidChecks s.status
        ((r.readRecord crc).1.reports.drop r.reports.length) } := by
  rw [recoverLoop]
  split
  · rename_i hread
    rw [hread]
  · rename_i hread
    rw [hread] at h
    cases h

/-- Errors that are to be ignored leave the status. -/
theorem corruptions_false (status : Status) (reports : List (BitVec 64 × Option String)) :
    corruptions false status reports = status := by
  induction reports with
  | nil => rfl
  | cons report reports ih =>
    rw [corruptions, List.foldl_cons, corruption, if_neg (fun h => Bool.false_ne_true h.1)]
    exact ih

/-- A record that was read, while nothing was reported, and that is inserted. -/
theorem recoverLoop_of_some {r r' : Log.Reader} {s s' : Recovery} {record : Bytes}
    (h : r.readRecord crc = (r', some record)) (hreports : r'.reports = r.reports)
    (hs : s.status = .ok) (hlength : 12 ≤ record.length)
    (hrecord : recoverRecord c options s record = some s') (hs' : s'.status = .ok) :
    recoverLoop crc c options r s = recoverLoop crc c options r' s' := by
  rw [recoverLoop]
  split
  · rename_i hread
    rw [h] at hread
    cases hread
  · rename_i hread
    rw [h] at hread
    cases hread
    have hstatus : corruptions options.paranoidChecks s.status
        (r'.reports.drop r.reports.length) = s.status := by
      rw [hreports, List.drop_length]
      rfl
    dsimp only
    rw [hstatus, if_neg (not_not_intro hs), if_neg (Nat.not_lt_of_le hlength), hrecord]
    dsimp only
    rw [if_neg (not_not_intro hs')]

/-- These operations have been recovered. -/
structure Recovered (c : Comparator) (s : Recovery) (ops : List Operation) : Prop where
  stack : MemTable.Stack c s.memTables ops
  maxSequence : s.maxSequence = BitVec.ofNat 64 ops.length

theorem recovered_nil (c : Comparator) : Recovered c {} [] := ⟨.nil, rfl⟩

/-- The memtable that is inserted into, which may be a new one. -/
theorem Recovered.mem {s : Recovery} {ops : List Operation} (h : Recovered c s ops)
    (hlast : ops.length < 2 ^ 56) :
    ∃ old new, ops = old ++ new ∧ (s.mem.getD (MemTable.new c)).comparator = c ∧
      (s.mem.getD (MemTable.new c)).Holds (1 + old.length) new ∧ MemTable.Stack c s.tables old := by
  have hstack := h.stack
  unfold Recovery.memTables at hstack
  cases hmem : s.mem with
  | none =>
    rw [hmem] at hstack
    exact ⟨ops, [], (List.append_nil ops).symm, rfl, MemTable.holds_new c (by omega), hstack⟩
  | some m =>
    rw [hmem] at hstack
    cases hstack with
    | cons comparator holds rest => exact ⟨_, _, rfl, comparator, holds, rest⟩

/-- A table holds what its memtable held. -/
theorem memTables_writeLevel0Table (hwrites : ∀ m, options.writeLevel0Table m = .ok) {s : Recovery}
    {m : MemTable} (hmem : s.mem = some m) :
    (s.writeLevel0Table options m).status = .ok ∧
      (s.writeLevel0Table options m).memTables = s.memTables ∧
      (s.writeLevel0Table options m).maxSequence = s.maxSequence := by
  refine ⟨hwrites m, ?_, rfl⟩
  unfold Recovery.memTables Recovery.writeLevel0Table
  dsimp only
  rw [hmem, if_pos (hwrites m)]
  rfl

theorem Recovered.flush {s : Recovery} {ops : List Operation} (h : Recovered c s ops)
    (hwrites : ∀ m, options.writeLevel0Table m = .ok) (hs : s.status = .ok) {m : MemTable}
    (hmem : s.mem = some m) :
    (s.flush options m).status = .ok ∧ Recovered c (s.flush options m) ops := by
  unfold Recovery.flush
  split_ifs
  · exact ⟨hs, h⟩
  · obtain ⟨hstatus, htables, hmax⟩ := memTables_writeLevel0Table
      (s := { s with compactions := s.compactions + 1 }) hwrites hmem
    refine ⟨hstatus, ?_, ?_⟩
    · rw [htables]
      exact h.stack
    · rw [hmax]
      exact h.maxSequence

/-- After the loop. -/
theorem Recovered.close {s : Recovery} {ops : List Operation} (h : Recovered c s ops)
    (hwrites : ∀ m, options.writeLevel0Table m = .ok) (hlast : ops.length < 2 ^ 56) :
    (s.close options c).status = s.status ∧ (s.close options c).maxSequence = s.maxSequence ∧
      (s.status = .ok → Recovered c (s.close options c) ops) := by
  have hmax := h.maxSequence
  rw [Recovery.close]
  by_cases hreuse : s.status = .ok ∧ options.reuseLogs ∧ s.compactions = 0
  · rw [if_pos hreuse]
    refine ⟨rfl, rfl, fun _ => ⟨?_, hmax⟩⟩
    obtain ⟨old, new, rfl, hcomparator, hmem, hrest⟩ := h.mem hlast
    exact .cons hcomparator hmem hrest
  · rw [if_neg hreuse]
    cases hmem : s.mem with
    | none => exact ⟨rfl, rfl, fun _ => h⟩
    | some m =>
      dsimp only
      split_ifs with hs
      · obtain ⟨hstatus, htables, hmax'⟩ := memTables_writeLevel0Table hwrites hmem
        refine ⟨hstatus.trans hs.symm, hmax', fun _ => ⟨?_, hmax'.trans hmax⟩⟩
        rw [htables]
        exact h.stack
      · exact ⟨rfl, rfl, fun hok => absurd hok hs⟩

/-- The number of the last operation of a batch. -/
theorem lastSeq_eq (n k : ℕ) :
    BitVec.ofNat 64 (1 + n) + BitVec.ofNat 64 k - 1 = BitVec.ofNat 64 (n + k) := by
  rw [← BitVec.ofNat_add, show 1 + n + k = n + k + 1 by omega, BitVec.ofNat_add]
  exact BitVec.add_sub_cancel _ _

theorem Recovered.recoverRecord [Std.TransCmp c.compare] {s : Recovery} {ops more : List Operation}
    (h : Recovered c s ops) (hwrites : ∀ m, options.writeLevel0Table m = .ok) {b : WriteBatch}
    (hb : b.Holds (BitVec.ofNat 64 (1 + ops.length)) more) (hlength : more.length < 2 ^ 31)
    (hfits : ∀ op ∈ more, op.FitsEntry) (hlast : (ops ++ more).length < 2 ^ 56) :
    ∃ s', DBImpl.recoverRecord c options s b.rep = some s' ∧ s'.status = .ok ∧
      Recovered c s' (ops ++ more) := by
  rw [List.length_append] at hlast
  have hmax := h.maxSequence
  obtain ⟨old, new, rfl, hcomparator, hmem, hrest⟩ := h.mem (by omega)
  have htrans : Std.TransCmp (s.mem.getD (MemTable.new c)).comparator.compare :=
    hcomparator.symm ▸ inferInstance
  have hsequence := hb.sequence_eq
  have hcount : 1 + (old ++ new).length = 1 + old.length + new.length := by
    rw [List.length_append, Nat.add_assoc]
  rw [hcount] at hb
  obtain ⟨m, hinsert, hcomparator', hmem'⟩ := hmem.insertInto hb hfits (by omega)
  have hlastSeq : b.sequence + b.count.signExtend 64 - 1 =
      BitVec.ofNat 64 ((old ++ new).length + more.length) := by
    rw [hsequence, hb.count_eq, Sound.signExtend_ofNat hlength, lastSeq_eq]
  have hok : maybeIgnoreError options.paranoidChecks .ok = .ok := if_pos (.inl rfl)
  have hrecovered : Recovered c { s with
      status := .ok
      mem := some m
      maxSequence := if s.maxSequence < BitVec.ofNat 64 ((old ++ new).length + more.length) then
        BitVec.ofNat 64 ((old ++ new).length + more.length) else s.maxSequence }
      (old ++ new ++ more) := by
    refine ⟨?_, ?_⟩
    · rw [List.append_assoc]
      exact .cons (hcomparator'.trans hcomparator) hmem' hrest
    · dsimp only
      have happend : (old ++ new ++ more).length = (old ++ new).length + more.length :=
        List.length_append
      rw [happend, hmax]
      split_ifs with hlt
      · rfl
      · -- an empty batch
        have hn : ∀ n < 2 ^ 56, (BitVec.ofNat 64 n).toNat = n :=
          fun n hn => (MemTable.le_kMaxSequenceNumber hn).2
        rw [BitVec.lt_def, hn _ (by omega), hn _ hlast] at hlt
        rw [show more.length = 0 by omega, Nat.add_zero]
  obtain ⟨hstatus, hflush⟩ := hrecovered.flush hwrites rfl rfl
  refine ⟨_, ?_, hstatus, hflush⟩
  rw [DBImpl.recoverRecord]
  dsimp only
  rw [hinsert, hok, hlastSeq]
  rfl

variable (crc) in
/-- The groups whose batches are read are recovered, whatever else can be read. -/
theorem Recovered.recoverLoop [Std.TransCmp c.compare] {groups : List (List Writer)}
    {records : List Bytes} {base : ℕ} (hrecorded : Recorded base groups records) {r : Log.Reader}
    (hlog : r.InLog crc) (hread : (r.readAll crc).2 = records) {s : Recovery} {ops : List Operation}
    (h : Recovered c s ops) (hwrites : ∀ m, options.writeLevel0Table m = .ok) (hs : s.status = .ok)
    (hbase : base = 1 + ops.length)
    (hfits : ∀ op ∈ groups.flatMap groupOps, op.FitsEntry)
    (hlast : (ops ++ groups.flatMap groupOps).length < 2 ^ 56) :
    ∃ s', DBImpl.recoverLoop crc c options r s = some s' ∧
      Recovered c s' (ops ++ groups.flatMap groupOps) ∧
      (options.paranoidChecks = false ∨ true ∉ r.file.failures → s'.status = .ok) := by
  induction hrecorded generalizing r s ops with
  | nil base =>
    have hnone : (r.readRecord crc).2 = none := by
      cases hrecord : r.readRecord crc with
      | mk r' record =>
        cases record with
        | none => rfl
        | some record =>
          rw [Log.readAll_of_some hrecord] at hread
          cases hread
    refine ⟨_, recoverLoop_of_none hnone, ?_, ?_⟩
    · rw [List.flatMap_nil, List.append_nil]
      exact ⟨h.stack, h.maxSequence⟩
    · dsimp only
      rw [hs]
      rintro (hignored | hfailures)
      · rw [hignored]
        exact corruptions_false _ _
      · rw [hlog.reports_of_none hnone hfailures, List.drop_length]
        rfl
  | @cons base group groups b records batch length_lt rest ih =>
    subst hbase
    cases hrecord : r.readRecord crc with
    | mk r' record =>
      cases record with
      | none =>
        rw [Log.readAll_of_none (congrArg Prod.snd hrecord)] at hread
        cases hread
      | some record =>
        rw [Log.readAll_of_some hrecord] at hread
        obtain ⟨rfl, hread'⟩ := List.cons.inj hread
        obtain ⟨hlog', hreports, hfailures⟩ := hlog.readRecord hrecord
        rw [List.flatMap_cons, ← List.append_assoc] at hlast
        rw [List.flatMap_cons, List.forall_mem_append] at hfits
        have hlast' : (ops ++ groupOps group).length < 2 ^ 56 := by
          rw [List.length_append] at hlast
          omega
        obtain ⟨s', hs', hok, h'⟩ := h.recoverRecord hwrites batch length_lt hfits.1 hlast'
        have hheader : 12 ≤ b.rep.length := by
          rw [batch.length_rep]
          exact Nat.le_add_right _ _
        obtain ⟨s'', hs'', h'', hstatus⟩ := ih hlog' hread' h' hok
          (by rw [List.length_append, Nat.add_assoc]) hfits.2 hlast
        refine ⟨s'', ?_, ?_, fun hquiet => hstatus (hquiet.imp id fun hnot hfailed =>
          hnot (hfailures.subset hfailed))⟩
        · rw [recoverLoop_of_some hrecord hreports hs hheader hs' hok, hs'']
        · rwa [List.flatMap_cons, ← List.append_assoc]

/-! ## After a crash -/

/-- Of the records some first ones hold some first groups. -/
theorem Recorded.of_isPrefix {base : ℕ} {groups : List (List Writer)}
    {records records' : List Bytes} (h : Recorded base groups records) (hpre : records' <+: records) :
    ∃ groups', groups' <+: groups ∧ Recorded base groups' records' := by
  induction h generalizing records' with
  | nil base =>
    rw [List.prefix_nil.1 hpre]
    exact ⟨[], List.prefix_refl _, .nil base⟩
  | @cons base group groups b records batch length_lt rest ih =>
    cases records' with
    | nil => exact ⟨[], List.nil_prefix, .nil base⟩
    | cons record records' =>
      obtain ⟨rfl, hpre'⟩ := List.cons_prefix_cons.1 hpre
      obtain ⟨groups', hgroups, hrecorded⟩ := ih hpre'
      exact ⟨group :: groups', List.cons_prefix_cons.2 ⟨rfl, hgroups⟩,
        .cons batch length_lt hrecorded⟩

variable (c options) in
/-- What a log gives after a crash that has left what was synced. -/
theorem Logged.recovers [Std.TransCmp c.compare] {log : Log.Writer} {synced : ℕ}
    {groups settled : List (List Writer)} (h : Logged crc log synced groups settled)
    (hfits : ∀ op ∈ groups.flatMap groupOps, op.FitsEntry)
    (hwrites : ∀ m, options.writeLevel0Table m = .ok)
    (hlast : (groups.flatMap groupOps).length < 2 ^ 56) {n : ℕ} (hn : synced ≤ n)
    (failures : List Bool) :
    ∃ r recovered, recoverLogFile crc c options ⟨log.dest.take n, failures⟩ = some r ∧
      recovered <+: groups ∧
      r.maxSequence = BitVec.ofNat 64 (recovered.flatMap groupOps).length ∧
      (r.status = .ok → Recovered c r (recovered.flatMap groupOps)) ∧
      (options.paranoidChecks = false ∨ true ∉ failures → r.status = .ok) ∧
      (true ∉ failures → ∀ group ∈ settled.drop recovered.length, ∀ w ∈ group, w.sync = false) := by
  obtain ⟨records, rfl, hrecorded, k, hk, hsynced, hsettled⟩ := h
  obtain ⟨hread, -, hsound⟩ := @Log.readAll_take crc records n true failures
  obtain ⟨recovered, hpre, hrecovered⟩ := hrecorded.of_isPrefix hread
  have hops : recovered.flatMap groupOps <+: groups.flatMap groupOps := hpre.flatMap groupOps
  have hlast' := Nat.lt_of_le_of_lt hops.length_le hlast
  obtain ⟨s, hs, hs', hstatus⟩ := (recovered_nil c).recoverLoop crc hrecovered
    (Log.inLog_new records n true failures) rfl hwrites rfl rfl
    (fun op hop => hfits op (hops.subset hop)) hlast'
  rw [List.nil_append] at hs'
  obtain ⟨hclose, hmax, hclosed⟩ := hs'.close hwrites hlast'
  refine ⟨s.close options c, recovered, ?_, hpre, hmax.trans hs'.maxSequence,
    fun hok => hclosed (hclose.symm.trans hok), fun hquiet => hclose.trans (hstatus hquiet),
    fun hfailures group hgroup => hsettled group ?_⟩
  · rw [recoverLogFile, hs]
    rfl
  -- every record that was synced has been read
  obtain ⟨-, hall⟩ := hsound hfailures
  have hwritten := (hall _ (List.take_prefix k records) (Nat.le_trans hsynced hn)).length_le
  rw [List.length_take_of_le hk, ← hrecovered.length_eq] at hwritten
  exact (List.drop_sublist_drop_left settled hwritten).subset hgroup

/-- The log holds the groups that are done, and maybe one more from the front of the queue. -/
theorem Sound.exists_logged {s : DBImpl} {joined : List Writer} (h : Sound crc c s joined) :
    ∃ group groups settled, group <+: s.writers ∧ groups <+: s.groups ++ [group] ∧
      s.groups <+: settled ∧ Logged crc s.log s.synced groups settled := by
  have hstands := h.stands
  generalize s.active = active at hstands
  cases hstands with
  | idle _ logged _ | logging _ logged _ =>
    exact ⟨[], _, _, List.nil_prefix, List.prefix_append _ _, List.prefix_refl _, logged⟩
  | syncing _ logged _ =>
    exact ⟨_, _, _, List.take_prefix _ _, List.prefix_refl _, List.prefix_refl _, logged⟩
  | inserting _ _ _ logged _ _ _ _ _ | finishing _ logged _ =>
    exact ⟨_, _, _, List.take_prefix _ _, List.prefix_refl _, List.prefix_append _ _, logged⟩

/-- A crash at any time of a run in which nothing has failed leaves the log up to some byte, and what
was synced in any case.  When the log is read some first groups are recovered, each of them wholly,
and a reader at a number finds what their operations up to it have left.  Unless a read of the file
fails, every group that is done and in which a writer has asked for a sync is among them; a read that
fails is an error only if `paranoid_checks` is set. -/
theorem recovers_groups {c : Comparator} [Std.TransCmp c.compare] {past : List Action} {s : DBImpl}
    (hrun : (system crc room c).Run past s) (hquiet : ∀ e ∈ past, Succeeds e)
    (hsize : (groupOps (joined past)).length < 2 ^ 56) {n : ℕ} (hn : s.synced ≤ n)
    (failures : List Bool) (options : RecoveryOptions)
    (hwrites : ∀ m, options.writeLevel0Table m = .ok) :
    ∃ r recovered group,
      recoverLogFile crc c options ⟨s.log.dest.take n, failures⟩ = some r ∧
      (options.paranoidChecks = false ∨ true ∉ failures → r.status = .ok) ∧
      group <+: s.writers ∧ recovered <+: s.groups ++ [group] ∧
      (true ∉ failures → ∀ g ∈ s.groups.drop recovered.length, ∀ w ∈ g, w.sync = false) ∧
      r.maxSequence.toNat = (recovered.flatMap groupOps).length ∧
      (r.status = .ok → ∀ key : Bytes, key.length + 8 < 2 ^ 32 → ∀ i ≤ r.maxSequence.toNat,
        MemTable.getFirst r.memTables (LookupKey.new key (BitVec.ofNat 64 i)) =
          some ((Versions.lookup c.compare
            (((recovered.flatMap groupOps).map Operation.write).take i) key).map getResult)) := by
  have h := sound_of_run hrun hquiet hsize
  obtain ⟨group, groups, settled, hgroup, hgroups, hsettled, hlogged⟩ := h.exists_logged
  -- the groups are made of writers that have come
  have hjoined : groups.flatten <+: joined past := by
    have hflatten := hgroups.flatten
    rw [List.flatten_append, List.flatten_singleton] at hflatten
    rw [← h.queue]
    exact hflatten.trans ((List.prefix_append_right_inj _).2 hgroup)
  have hops : groups.flatMap groupOps <+: groupOps (joined past) := by
    rw [← groupOps_flatten]
    exact hjoined.flatMap Writer.ops
  have hfits : ∀ op ∈ groups.flatMap groupOps, op.FitsEntry := by
    intro op hop
    obtain ⟨w, hw, hop'⟩ := List.mem_flatMap.1 (hops.subset hop)
    exact (h.valid w hw).fits op hop'
  obtain ⟨r, recovered, hr, hpre, hmax, hrecovered, hstatus, hunsynced⟩ :=
    hlogged.recovers c options hfits hwrites (Nat.lt_of_le_of_lt hops.length_le hsize) hn failures
  have hlength : (recovered.flatMap groupOps).length < 2 ^ 56 :=
    Nat.lt_of_le_of_lt ((hpre.flatMap groupOps).trans hops).length_le hsize
  have hmax : r.maxSequence.toNat = (recovered.flatMap groupOps).length := by
    rw [hmax]
    exact (MemTable.le_kMaxSequenceNumber hlength).2
  refine ⟨r, recovered, group, hr, hstatus, hgroup, hpre.trans hgroups, ?_, hmax, ?_⟩
  · intro hfailures g hg
    exact hunsynced hfailures g ((hsettled.drop _).subset hg)
  · intro hok key hkey i hi
    exact (hrecovered hok).stack.getFirst hkey (by omega)

/-- After a crash that has left no more than was synced the value is still read. -/
theorem recovers_groups_one : ∃ past s r,
    (system (Crc32c.portable 0) (fun _ => true) bytewiseComparator).Run past s ∧
      recoverLogFile (Crc32c.portable 0) bytewiseComparator
        ⟨true, false, fun _ => true, fun _ => .ok⟩ ⟨s.log.dest.take s.synced, []⟩ = some r ∧
      MemTable.getFirst r.memTables (LookupKey.new [1] 1) = some (some (.ok [2])) := by
  have htrans := BytewiseComparator.lawful.transCmp
  obtain ⟨past, s, hrun, hquiet, hsize, hgroups, hwriters⟩ := exists_putOne_done
  obtain ⟨r, recovered, group, hr, hstatus, hgroup, hpre, hunsynced, hmax, hread⟩ :=
    recovers_groups hrun hquiet hsize (Nat.le_refl s.synced) []
      ⟨true, false, fun _ => true, fun _ => .ok⟩ fun _ => rfl
  rw [hgroups] at hpre hunsynced
  obtain rfl : group = [] := List.prefix_nil.1 (hwriters ▸ hgroup)
  have hops : recovered.flatMap groupOps = [.put [1] [2]] := by
    cases recovered with
    | nil =>
      have hsync : putOne.sync = false :=
        hunsynced List.not_mem_nil [putOne] List.mem_cons_self putOne List.mem_cons_self
      cases hsync
    | cons g recovered =>
      obtain ⟨rfl, hrest⟩ := List.cons_prefix_cons.1 hpre
      have hnil : recovered.flatMap groupOps = [] := List.prefix_nil.1 (hrest.flatMap groupOps)
      rw [List.flatMap_cons, groupOps_putOne, hnil, List.append_nil]
  rw [hops] at hmax hread
  have hok := hstatus (.inr List.not_mem_nil)
  refine ⟨past, s, r, hrun, hr, (hread hok [1] (by decide) 1 (by rw [hmax]; decide)).trans ?_⟩
  rfl

end DBImpl

end PracticeSwift.LevelDb
