import PracticeSwift.LevelDb.LogWriter

/-!
# The log reader

The reader takes a block at a time from the file and physical records from the block.  What it makes
of a file that is no log, of a block with a bad checksum or of an offset to start from is modelled
as it is in the source; the results below are about files that a writer has left, whole or cut off.
-/

namespace PracticeSwift.LevelDb

/-- A file that is read from the beginning, and whether the next reads of it fail. -/
structure SequentialFile where
  rest : Bytes
  failures : List Bool := []

namespace SequentialFile

/-- `Read`, which gives less than it is asked for at the end of the file only. -/
def read (file : SequentialFile) (n : ℕ) : Option Bytes × SequentialFile :=
  match file.failures with
  | true :: failures => (none, { file with failures })
  | _ => (some (file.rest.take n), ⟨file.rest.drop n, file.failures.tail⟩)

/-- `Skip` -/
def skip (file : SequentialFile) (n : ℕ) : Bool × SequentialFile :=
  match file.failures with
  | true :: failures => (false, { file with failures })
  | _ => (true, ⟨file.rest.drop n, file.failures.tail⟩)

theorem length_skip (file : SequentialFile) (n : ℕ) :
    (file.skip n).2.rest.length ≤ file.rest.length := by
  unfold skip
  split
  · exact Nat.le_refl _
  · exact (List.drop_sublist _ _).length_le

end SequentialFile

namespace Log

/-- The state of a `Reader`, with what its reporter was told: how many bytes were dropped, and why;
`none` is the status of a failed read. -/
structure Reader where
  file : SequentialFile
  checksum : Bool
  buffer : Bytes := []
  eof : Bool := false
  lastRecordOffset : BitVec 64 := 0
  endOfBufferOffset : BitVec 64 := 0
  initialOffset : BitVec 64
  resyncing : Bool
  reports : List (BitVec 64 × Option String) := []

namespace Reader

/-- The constructor. -/
def new (file : SequentialFile) (checksum : Bool) (initialOffset : BitVec 64) : Reader where
  file
  checksum
  initialOffset
  resyncing := 0 < initialOffset

/-- What is returned in place of a record type. -/
def kEof : BitVec 32 := 5

def kBadRecord : BitVec 32 := 6

/-- The type of a record as it is returned. -/
def typeOf (t : RecordType) : BitVec 32 := t.byte.signExtend 32

def size (bytes : Bytes) : BitVec 64 := BitVec.ofNat 64 bytes.length

def reportDrop (r : Reader) (bytes : BitVec 64) (reason : Option String) : Reader :=
  if r.initialOffset ≤ r.endOfBufferOffset - size r.buffer - bytes then
    { r with reports := r.reports ++ [(bytes, reason)] }
  else r

def reportCorruption (r : Reader) (bytes : BitVec 64) (reason : String) : Reader :=
  r.reportDrop bytes (some reason)

/-- The second half of `ReadPhysicalRecord`, with a header in the buffer; a record that is not
returned leaves the fragment empty, which the caller does not look at then. -/
def parseHeader (crc : Crc32c) (r : Reader) : Reader × BitVec 32 × Bytes :=
  let header := r.buffer
  let a := (byteAt header 4).setWidth 32
  let b := (byteAt header 5).setWidth 32
  let type := (byteAt header 6).signExtend 32
  let length := (a ||| b <<< 8).toNat
  if r.buffer.length < kHeaderSize + length then
    let dropSize := size r.buffer
    let r := { r with buffer := [] }
    if r.eof then (r, kEof, []) else (r.reportCorruption dropSize "bad record length", kBadRecord, [])
  else if type = typeOf .kZeroType ∧ length = 0 then ({ r with buffer := [] }, kBadRecord, [])
  else if r.checksum ∧
      crc.value ((header.drop 6).take (1 + length)) ≠ Crc32c.unmask (decodeFixed32 header) then
    let dropSize := size r.buffer
    ({ r with buffer := [] }.reportCorruption dropSize "checksum mismatch", kBadRecord, [])
  else
    let r := { r with buffer := r.buffer.drop (kHeaderSize + length) }
    if r.endOfBufferOffset - size r.buffer - BitVec.ofNat 64 (kHeaderSize + length) <
        r.initialOffset then (r, kBadRecord, [])
    else (r, type, (header.drop kHeaderSize).take length)

/-- Read the next block. -/
def refill (r : Reader) : Option Reader :=
  match r.file.read kBlockSize with
  | (none, _) => none
  | (some buffer, file) =>
    some { r with
      file
      buffer
      endOfBufferOffset := r.endOfBufferOffset + size buffer
      eof := buffer.length < kBlockSize }

/-- `ReadPhysicalRecord`.  Its loop goes round once: a block that has been read has a header in it
or is the end of the file. -/
def readPhysicalRecord (crc : Crc32c) (r : Reader) : Reader × BitVec 32 × Bytes :=
  if kHeaderSize ≤ r.buffer.length then r.parseHeader crc
  else if r.eof then ({ r with buffer := [] }, kEof, [])
  else
    match { r with buffer := [] }.refill with
    | none =>
      let r := { r with file := (r.file.read kBlockSize).2, buffer := [] }
      ({ r.reportDrop (BitVec.ofNat 64 kBlockSize) none with eof := true }, kEof, [])
    | some r => if kHeaderSize ≤ r.buffer.length then r.parseHeader crc
      else ({ r with buffer := [] }, kEof, [])

/-- The bytes that have not been looked at. -/
def remaining (r : Reader) : ℕ := r.buffer.length + r.file.rest.length

@[simp] theorem remaining_reportDrop (r : Reader) (bytes : BitVec 64) (reason : Option String) :
    (r.reportDrop bytes reason).remaining = r.remaining := by
  unfold reportDrop
  split_ifs <;> rfl

@[simp] theorem remaining_reportCorruption (r : Reader) (bytes : BitVec 64) (reason : String) :
    (r.reportCorruption bytes reason).remaining = r.remaining := remaining_reportDrop r bytes _

theorem remaining_parseHeader (crc : Crc32c) {r : Reader} (h : kHeaderSize ≤ r.buffer.length) :
    (r.parseHeader crc).1.remaining < r.remaining := by
  have hheader : kHeaderSize = 7 := rfl
  unfold parseHeader
  dsimp only
  split_ifs <;> simp only [remaining_reportCorruption] <;>
    simp only [remaining, List.length_nil, List.length_drop] <;> omega

theorem remaining_refill {r r' : Reader} (h : r.refill = some r') :
    r'.remaining = r.file.rest.length := by
  unfold refill SequentialFile.read at h
  split at h
  · cases h
  · rename_i hread
    obtain rfl := Option.some.inj h
    split at hread
    · cases hread
    · obtain ⟨hbuffer, rfl⟩ := Prod.mk.inj hread
      obtain rfl := Option.some.inj hbuffer
      simp only [remaining, List.length_take, List.length_drop]
      omega

/-- Unless the end of the file is reached something has been looked at. -/
theorem remaining_readPhysicalRecord (crc : Crc32c) {r : Reader}
    (h : (r.readPhysicalRecord crc).2.1 ≠ kEof) :
    (r.readPhysicalRecord crc).1.remaining < r.remaining := by
  unfold readPhysicalRecord at h ⊢
  split_ifs at h ⊢ with hbuffer heof
  · exact remaining_parseHeader crc hbuffer
  · exact absurd rfl h
  · split at h
    · exact absurd rfl h
    · rename_i r' hrefill
      split_ifs at h ⊢ with hbuffer'
      · have hparse := remaining_parseHeader crc hbuffer'
        rw [remaining_refill hrefill] at hparse
        simp only [remaining] at hparse ⊢
        omega
      · exact absurd rfl h

/-- `SkipToInitialBlock` -/
def skipToInitialBlock (r : Reader) : Reader × Bool :=
  let offsetInBlock := r.initialOffset.toNat % kBlockSize
  let blockStartLocation := r.initialOffset - BitVec.ofNat 64 offsetInBlock +
    if kBlockSize - 6 < offsetInBlock then BitVec.ofNat 64 kBlockSize else 0
  let r := { r with endOfBufferOffset := blockStartLocation }
  if 0 < blockStartLocation then
    match r.file.skip blockStartLocation.toNat with
    | (false, file) => ({ r with file }.reportDrop blockStartLocation none, false)
    | (true, file) => ({ r with file }, true)
  else (r, true)

/-- What `ReadRecord` does to a physical record while it resynchronizes, and whether it goes on to
the next one. -/
def resync (r : Reader) (recordType : BitVec 32) : Reader × Bool :=
  if r.resyncing then
    if recordType = typeOf .kMiddleType then (r, true)
    else ({ r with resyncing := false }, recordType = typeOf .kLastType)
  else (r, false)

theorem remaining_resync (r : Reader) (recordType : BitVec 32) :
    (r.resync recordType).1.remaining = r.remaining := by
  unfold resync
  split_ifs <;> rfl

end Reader

open Reader

/-- The reader and the variables of `ReadRecord`. -/
structure Scan where
  reader : Reader
  scratch : Bytes := []
  inFragmentedRecord : Bool := false
  prospectiveRecordOffset : BitVec 64 := 0

namespace Scan

def reportCorruption (s : Scan) (bytes : BitVec 64) (reason : String) : Scan :=
  { s with reader := s.reader.reportCorruption bytes reason }

/-- What was collected is dropped when a record begins before the last one has ended. -/
def dropPartial (s : Scan) (reason : String) : Scan :=
  if s.inFragmentedRecord && !s.scratch.isEmpty then s.reportCorruption (size s.scratch) reason
  else s

/-- The `switch` of `ReadRecord` but for the end of the file, and the record when there is one. -/
def onPhysicalRecord (s : Scan) (recordType : BitVec 32) (fragment : Bytes)
    (physicalRecordOffset : BitVec 64) : Scan × Option Bytes :=
  if recordType = typeOf .kFullType then
    let s := s.dropPartial "partial record without end(1)"
    ({ s with
        reader := { s.reader with lastRecordOffset := physicalRecordOffset }
        scratch := []
        prospectiveRecordOffset := physicalRecordOffset }, some fragment)
  else if recordType = typeOf .kFirstType then
    let s := s.dropPartial "partial record without end(2)"
    ({ s with
        scratch := fragment
        inFragmentedRecord := true
        prospectiveRecordOffset := physicalRecordOffset }, none)
  else if recordType = typeOf .kMiddleType then
    if s.inFragmentedRecord then ({ s with scratch := s.scratch ++ fragment }, none)
    else (s.reportCorruption (size fragment) "missing start of fragmented record(1)", none)
  else if recordType = typeOf .kLastType then
    if s.inFragmentedRecord then
      ({ s with
          reader := { s.reader with lastRecordOffset := s.prospectiveRecordOffset }
          scratch := s.scratch ++ fragment }, some (s.scratch ++ fragment))
    else (s.reportCorruption (size fragment) "missing start of fragmented record(2)", none)
  else if recordType = kBadRecord then
    if s.inFragmentedRecord then
      ({ s.reportCorruption (size s.scratch) "error in middle of record" with
          inFragmentedRecord := false
          scratch := [] }, none)
    else (s, none)
  else
    ({ s.reportCorruption (size fragment + if s.inFragmentedRecord then size s.scratch else 0)
          ("unknown record type " ++ toString recordType.toNat) with
        inFragmentedRecord := false
        scratch := [] }, none)

theorem remaining_dropPartial (s : Scan) (reason : String) :
    (s.dropPartial reason).reader.remaining = s.reader.remaining := by
  unfold dropPartial
  split_ifs
  · exact remaining_reportCorruption _ _ _
  · rfl

theorem remaining_onPhysicalRecord (s : Scan) (recordType : BitVec 32) (fragment : Bytes)
    (offset : BitVec 64) :
    (s.onPhysicalRecord recordType fragment offset).1.reader.remaining = s.reader.remaining := by
  unfold onPhysicalRecord
  split_ifs
  · exact remaining_dropPartial _ _
  · exact remaining_dropPartial _ _
  all_goals first | rfl | exact remaining_reportCorruption _ _ _

/-- The loop of `ReadRecord`. -/
def loop (crc : Crc32c) (s : Scan) : Reader × Option Bytes :=
  let physical := s.reader.readPhysicalRecord crc
  let recordType := physical.2.1
  let fragment := physical.2.2
  let physicalRecordOffset := physical.1.endOfBufferOffset - size physical.1.buffer -
    BitVec.ofNat 64 kHeaderSize - size fragment
  let resynced := physical.1.resync recordType
  let s' := { s with reader := resynced.1 }
  if recordType = kEof then (resynced.1, none)
  else if resynced.2 then loop crc s'
  else
    let switched := s'.onPhysicalRecord recordType fragment physicalRecordOffset
    match switched.2 with
    | some record => (switched.1.reader, some record)
    | none => loop crc switched.1
termination_by s.reader.remaining
decreasing_by
  · rw [remaining_resync]
    exact remaining_readPhysicalRecord crc ‹_›
  · rw [remaining_onPhysicalRecord, remaining_resync]
    exact remaining_readPhysicalRecord crc ‹_›

end Scan

/-- `ReadRecord` -/
def Reader.readRecord (crc : Crc32c) (r : Reader) : Reader × Option Bytes :=
  if r.lastRecordOffset < r.initialOffset then
    match r.skipToInitialBlock with
    | (r, false) => (r, none)
    | (r, true) => Scan.loop crc { reader := r }
  else Scan.loop crc { reader := r }

/-- A record that has been read has been looked at. -/
theorem Scan.remaining_loop (crc : Crc32c) (s : Scan) {record : Bytes}
    (h : (s.loop crc).2 = some record) : (s.loop crc).1.remaining < s.reader.remaining := by
  induction s using Scan.loop.induct crc with
  | case1 s physical recordType hend =>
    rw [Scan.loop, if_pos hend] at h
    cases h
  | case2 s physical recordType resynced s' hend hgo ih =>
    have hread : physical.1.remaining < s.reader.remaining :=
      remaining_readPhysicalRecord crc hend
    have hs' : s'.reader.remaining = physical.1.remaining := remaining_resync _ _
    have hloop : s.loop crc = s'.loop crc := by
      rw [Scan.loop, if_neg hend, if_pos hgo]
    rw [hloop] at h ⊢
    have hlt := ih h
    omega
  | case3 s physical recordType fragment offset resynced s' hend hstay switched _ hrecord =>
    have hread : physical.1.remaining < s.reader.remaining :=
      remaining_readPhysicalRecord crc hend
    have hswitched : switched.1.reader.remaining = physical.1.remaining :=
      (remaining_onPhysicalRecord _ _ _ _).trans (remaining_resync _ _)
    have hloop : (s.loop crc).1 = switched.1.reader := by
      rw [Scan.loop, if_neg hend, if_neg hstay]
      dsimp only
      rw [show (s'.onPhysicalRecord recordType fragment offset).2 = _ from hrecord]
    rw [hloop]
    omega
  | case4 s physical recordType fragment offset resynced s' hend hstay switched hnone ih =>
    have hread : physical.1.remaining < s.reader.remaining :=
      remaining_readPhysicalRecord crc hend
    have hswitched : switched.1.reader.remaining = physical.1.remaining :=
      (remaining_onPhysicalRecord _ _ _ _).trans (remaining_resync _ _)
    have hloop : s.loop crc = switched.1.loop crc := by
      rw [Scan.loop, if_neg hend, if_neg hstay]
      dsimp only
      rw [show (s'.onPhysicalRecord recordType fragment offset).2 = _ from hnone]
    rw [hloop] at h ⊢
    have hlt := ih h
    omega

theorem Reader.remaining_skipToInitialBlock (r : Reader) :
    r.skipToInitialBlock.1.remaining ≤ r.remaining := by
  unfold skipToInitialBlock
  extract_lets offsetInBlock blockStartLocation r'
  have hskip := r'.file.length_skip blockStartLocation.toNat
  by_cases hpos : 0 < blockStartLocation
  · rw [if_pos hpos]
    split
    · rename_i hfile
      rw [hfile] at hskip
      rw [remaining_reportDrop]
      exact Nat.add_le_add_left hskip _
    · rename_i hfile
      rw [hfile] at hskip
      exact Nat.add_le_add_left hskip _
  · rw [if_neg hpos]
    exact Nat.le_refl _

theorem Reader.remaining_readRecord (crc : Crc32c) (r : Reader) {record : Bytes}
    (h : (r.readRecord crc).2 = some record) : (r.readRecord crc).1.remaining < r.remaining := by
  have hskip := r.remaining_skipToInitialBlock
  unfold readRecord at h ⊢
  split_ifs at h ⊢
  · split at h
    · cases h
    · rename_i hskipped
      rw [hskipped] at hskip
      exact Nat.lt_of_lt_of_le (Scan.remaining_loop crc _ h) hskip
  · exact Scan.remaining_loop crc _ h

/-- The records that the readers of a log read, until there is none. -/
def Reader.readAll (crc : Crc32c) (r : Reader) : Reader × List Bytes :=
  match _hread : r.readRecord crc with
  | (r', none) => (r', [])
  | (r', some record) =>
    let later := readAll crc r'
    (later.1, record :: later.2)
termination_by r.remaining
decreasing_by
  have hlt := r.remaining_readRecord crc (congrArg Prod.snd _hread)
  rwa [_hread] at hlt

end Log

end PracticeSwift.LevelDb
