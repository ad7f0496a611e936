import PracticeSwift.LevelDb.Crc32c

/-!
# The log writer

A log is a sequence of blocks of 32 kilobytes, and a record a sequence of physical records of which
none crosses a block boundary; too little space for a header at the end of a block is filled with
zeros.  `Emits` says what the bytes of a record look like at an offset in a block, whoever wrote
them, and `addRecord` emits every record.
-/

namespace PracticeSwift.LevelDb

/-! ## The format -/

namespace Log

inductive RecordType
  | kZeroType
  | kFullType
  | kFirstType
  | kMiddleType
  | kLastType
  deriving DecidableEq

/-- The value of the enumeration, as the byte of a header. -/
def RecordType.byte : RecordType → Byte
  | .kZeroType => 0
  | .kFullType => 1
  | .kFirstType => 2
  | .kMiddleType => 3
  | .kLastType => 4

def kBlockSize : ℕ := 32768

def kHeaderSize : ℕ := 4 + 2 + 1

/-- The header that `EmitPhysicalRecord` writes. -/
def header (crc : Crc32c) (t : RecordType) (ptr : Bytes) : Bytes :=
  encodeFixed32 (Crc32c.mask (crc.extend (crc.value [t.byte]) ptr)) ++
    [BitVec.ofNat 8 ptr.length, BitVec.ofNat 8 (ptr.length >>> 8), t.byte]

@[simp] theorem length_header (crc : Crc32c) (t : RecordType) (ptr : Bytes) :
    (header crc t ptr).length = kHeaderSize := rfl

/-- Where the next physical record starts in its block, from an offset in the current one. -/
def start (offset : ℕ) : ℕ := if kBlockSize - offset < kHeaderSize then 0 else offset

/-- The zeros that come before it. -/
def trailer (offset : ℕ) : ℕ :=
  if kBlockSize - offset < kHeaderSize then kBlockSize - offset else 0

/-- How long its fragment can be. -/
def avail (offset : ℕ) : ℕ := kBlockSize - start offset - kHeaderSize

theorem start_add_avail (offset : ℕ) : start offset + kHeaderSize + avail offset = kBlockSize := by
  have hsize : kBlockSize = 32768 := rfl
  have hheader : kHeaderSize = 7 := rfl
  unfold avail start
  split_ifs <;> omega

/-- A block that is full is left for the next one. -/
theorem avail_pos_of_le {offset : ℕ} (h : kBlockSize ≤ offset) : 0 < avail offset := by
  have hsize : kBlockSize = 32768 := rfl
  have hheader : kHeaderSize = 7 := rfl
  unfold avail start
  rw [if_pos (by omega)]
  omega

/-! ## The writer -/

/-- The file, and the offset in its current block. -/
structure Writer where
  dest : Bytes := []
  blockOffset : ℕ := 0

namespace Writer

/-- The writer for a file that has been written to. -/
def reopen (dest : Bytes) : Writer where
  dest
  blockOffset := dest.length % kBlockSize

/-- Switch to a new block when there is no space for a header, and fill the trailer. -/
def switchBlock (w : Writer) : Writer :=
  let leftover := kBlockSize - w.blockOffset
  if leftover < kHeaderSize then
    { dest := w.dest ++ List.replicate leftover 0, blockOffset := 0 }
  else w

theorem switchBlock_eq (w : Writer) : w.switchBlock =
    ⟨w.dest ++ List.replicate (trailer w.blockOffset) 0, start w.blockOffset⟩ := by
  unfold switchBlock trailer start
  dsimp only
  split_ifs
  · rfl
  · rw [List.replicate_zero, List.append_nil]

variable (crc : Crc32c)

def emitPhysicalRecord (w : Writer) (t : RecordType) (ptr : Bytes) : Writer where
  dest := w.dest ++ header crc t ptr ++ ptr
  blockOffset := w.blockOffset + kHeaderSize + ptr.length

/-- The type of a fragment. -/
def recordType (begin last : Bool) : RecordType :=
  if begin && last then .kFullType
  else if begin then .kFirstType
  else if last then .kLastType
  else .kMiddleType

/-- One round of the loop of `AddRecord`, which emits a fragment of this length. -/
def addFragment (w : Writer) (begin : Bool) (ptr : Bytes) (fragmentLength : ℕ) : Writer :=
  w.switchBlock.emitPhysicalRecord crc (recordType begin (ptr.length = fragmentLength))
    (ptr.take fragmentLength)

/-- A fragment that does not end its record fills the block. -/
theorem blockOffset_addFragment {w : Writer} {ptr : Bytes} (h : avail w.blockOffset < ptr.length)
    (begin : Bool) :
    (w.addFragment crc begin ptr (min ptr.length (avail w.blockOffset))).blockOffset =
      kBlockSize := by
  have hstart := start_add_avail w.blockOffset
  rw [addFragment, switchBlock_eq, emitPhysicalRecord, List.length_take]
  dsimp only
  omega

/-- The loop of `AddRecord`, with the bytes that are left. -/
def addFragments (w : Writer) (begin : Bool) (ptr : Bytes) : Writer :=
  let fragmentLength := min ptr.length (avail w.blockOffset)
  let w' := w.addFragment crc begin ptr fragmentLength
  if fragmentLength < ptr.length then addFragments w' false (ptr.drop fragmentLength) else w'
termination_by ptr.length + if avail w.blockOffset = 0 then 1 else 0
decreasing_by
  have havail : avail w.blockOffset < ptr.length := by omega
  have hpos := avail_pos_of_le (Nat.le_of_eq (blockOffset_addFragment crc havail begin).symm)
  rw [List.length_drop, if_neg (by omega)]
  split_ifs <;> omega

def addRecord (w : Writer) (slice : Bytes) : Writer := w.addFragments crc true slice

end Writer

/-! ## What is written -/

/-- The bytes of a physical record at an offset. -/
def emitted (crc : Crc32c) (offset : ℕ) (t : RecordType) (fragment : Bytes) : Bytes :=
  List.replicate (trailer offset) 0 ++ header crc t fragment ++ fragment

/-- The bytes of a record, or of what is left of one, from an offset on up to another. -/
inductive Emits (crc : Crc32c) : Bool → ℕ → Bytes → Bytes → ℕ → Prop
  | last (begin : Bool) {offset : ℕ} {data : Bytes} (fits : data.length ≤ avail offset) :
      Emits crc begin offset data (emitted crc offset (Writer.recordType begin true) data)
        (start offset + kHeaderSize + data.length)
  | cons (begin : Bool) {offset offset' : ℕ} {fragment data bytes : Bytes}
      (fits : fragment.length ≤ avail offset)
      (rest : Emits crc false (start offset + kHeaderSize + fragment.length) data bytes offset') :
      Emits crc begin offset (fragment ++ data)
        (emitted crc offset (Writer.recordType begin false) fragment ++ bytes) offset'

theorem Emits.offset_le {crc : Crc32c} {begin : Bool} {offset offset' : ℕ} {data bytes : Bytes}
    (h : Emits crc begin offset data bytes offset') : offset' ≤ kBlockSize := by
  induction h with
  | @last begin offset data fits =>
    have hstart := start_add_avail offset
    omega
  | cons _ _ _ ih => exact ih

namespace Writer

variable (crc : Crc32c)

theorem addFragment_eq (w : Writer) (begin : Bool) (ptr : Bytes) (fragmentLength : ℕ) :
    w.addFragment crc begin ptr fragmentLength =
      ⟨w.dest ++ emitted crc w.blockOffset (recordType begin (ptr.length = fragmentLength))
          (ptr.take fragmentLength),
        start w.blockOffset + kHeaderSize + (ptr.take fragmentLength).length⟩ := by
  simp only [addFragment, switchBlock_eq, emitPhysicalRecord, emitted, List.append_assoc]

/-- The loop emits what is left of the record. -/
theorem addFragments_emits (w : Writer) (begin : Bool) (ptr : Bytes) :
    ∃ bytes, (w.addFragments crc begin ptr).dest = w.dest ++ bytes ∧
      Emits crc begin w.blockOffset ptr bytes (w.addFragments crc begin ptr).blockOffset := by
  induction w, begin, ptr using addFragments.induct crc with
  | case1 w begin ptr fragmentLength w' hleft ih =>
    obtain ⟨bytes, hdest, hemits⟩ := ih
    have hw' := addFragment_eq crc w begin ptr fragmentLength
    rw [decide_eq_false (by omega)] at hw'
    have hlength : (ptr.take fragmentLength).length ≤ avail w.blockOffset := by
      rw [List.length_take]
      omega
    rw [show w' = _ from hw'] at hdest hemits
    have hcons := Emits.cons begin hlength hemits
    rw [List.take_append_drop] at hcons
    unfold addFragments
    dsimp only
    rw [if_pos hleft, hw']
    refine ⟨_, ?_, hcons⟩
    rw [hdest, List.append_assoc]
  | case2 w begin ptr fragmentLength hdone =>
    have hw' := addFragment_eq crc w begin ptr fragmentLength
    have hall : ptr.length ≤ fragmentLength := by omega
    rw [decide_eq_true (by omega), List.take_of_length_le hall] at hw'
    unfold addFragments
    dsimp only
    rw [if_neg hdone, hw']
    exact ⟨_, rfl, .last begin (by omega)⟩

theorem addRecord_emits (w : Writer) (slice : Bytes) :
    ∃ bytes, (w.addRecord crc slice).dest = w.dest ++ bytes ∧
      Emits crc true w.blockOffset slice bytes (w.addRecord crc slice).blockOffset :=
  addFragments_emits crc w true slice

/-- Some records, one after the other. -/
def addRecords (w : Writer) (slices : List Bytes) : Writer := slices.foldl (addRecord crc) w

theorem addRecords_append (w : Writer) (slices more : List Bytes) :
    w.addRecords crc (slices ++ more) = (w.addRecords crc slices).addRecords crc more :=
  List.foldl_append

theorem dest_addRecords (w : Writer) (slices : List Bytes) :
    w.dest <+: (w.addRecords crc slices).dest := by
  induction slices generalizing w with
  | nil => exact List.prefix_refl _
  | cons slice slices ih =>
    obtain ⟨bytes, hdest, -⟩ := w.addRecord_emits crc slice
    exact List.IsPrefix.trans ⟨bytes, hdest.symm⟩ (ih (w.addRecord crc slice))

/-! ## Block boundaries -/

/-- The end of a block is the beginning of the next. -/
theorem addRecord_end (dest slice : Bytes) :
    addRecord crc ⟨dest, kBlockSize⟩ slice = addRecord crc ⟨dest, 0⟩ slice := by
  have hstart : start kBlockSize = start 0 := by decide
  have htrailer : trailer kBlockSize = trailer 0 := by decide
  have havail : avail kBlockSize = avail 0 := by decide
  have hfragment : ∀ fragmentLength, addFragment crc ⟨dest, kBlockSize⟩ true slice fragmentLength =
      addFragment crc ⟨dest, 0⟩ true slice fragmentLength := by
    intro fragmentLength
    rw [addFragment_eq, addFragment_eq]
    unfold emitted
    rw [hstart, htrailer]
  have hend := addFragments.eq_1 crc ⟨dest, kBlockSize⟩ true slice
  dsimp only at hend
  rw [havail, hfragment] at hend
  exact hend.trans (addFragments.eq_1 crc ⟨dest, 0⟩ true slice).symm

theorem dest_addRecords_end (dest : Bytes) (slices : List Bytes) :
    (addRecords crc ⟨dest, kBlockSize⟩ slices).dest = (addRecords crc ⟨dest, 0⟩ slices).dest := by
  cases slices with
  | nil => rfl
  | cons slice slices =>
    unfold addRecords
    rw [List.foldl_cons, List.foldl_cons, addRecord_end]

/-- The offset is where the file ends in its block. -/
def Aligned (w : Writer) : Prop :=
  w.blockOffset ≤ kBlockSize ∧ w.dest.length % kBlockSize = w.blockOffset % kBlockSize

end Writer

theorem length_emitted (crc : Crc32c) (offset : ℕ) (t : RecordType) (fragment : Bytes)
    (h : offset ≤ kBlockSize) :
    (offset + (emitted crc offset t fragment).length) % kBlockSize =
      (start offset + kHeaderSize + fragment.length) % kBlockSize := by
  have hsize : kBlockSize = 32768 := rfl
  have hheader : kHeaderSize = 7 := rfl
  simp only [emitted, List.length_append, List.length_replicate, length_header, trailer, start]
  rw [hsize, hheader]
  rw [hsize] at h
  split_ifs <;> omega

theorem Emits.aligned {crc : Crc32c} {begin : Bool} {offset offset' : ℕ} {data bytes : Bytes}
    (h : Emits crc begin offset data bytes offset') (hoffset : offset ≤ kBlockSize) :
    (offset + bytes.length) % kBlockSize = offset' % kBlockSize := by
  induction h with
  | last begin fits => exact length_emitted crc _ _ _ hoffset
  | @cons begin offset offset' fragment data bytes fits _ ih =>
    have hstart := start_add_avail offset
    have hrest := ih (by omega)
    have hfirst := length_emitted crc offset (Writer.recordType begin false) fragment hoffset
    rw [List.length_append, ← Nat.add_assoc, Nat.add_mod, hfirst, ← Nat.add_mod, hrest]

namespace Writer

variable (crc : Crc32c)

theorem Aligned.addRecord {w : Writer} (h : w.Aligned) (slice : Bytes) :
    (w.addRecord crc slice).Aligned := by
  obtain ⟨bytes, hdest, hemits⟩ := w.addRecord_emits crc slice
  refine ⟨hemits.offset_le, ?_⟩
  rw [hdest, List.length_append, Nat.add_mod, h.2, ← Nat.add_mod, hemits.aligned h.1]

theorem Aligned.addRecords {w : Writer} (h : w.Aligned) (slices : List Bytes) :
    (w.addRecords crc slices).Aligned := by
  induction slices generalizing w with
  | nil => exact h
  | cons slice slices ih => exact ih (h.addRecord crc slice)

/-- A file that is opened again is continued as if it had not been closed. -/
theorem Aligned.dest_reopen {w : Writer} (h : w.Aligned) (slices : List Bytes) :
    ((reopen w.dest).addRecords crc slices).dest = (w.addRecords crc slices).dest := by
  obtain ⟨hle, hmod⟩ := h
  unfold reopen
  rcases Nat.lt_or_eq_of_le hle with hlt | hend
  · rw [hmod, Nat.mod_eq_of_lt hlt]
  · rw [hmod, hend, Nat.mod_self, ← dest_addRecords_end, ← hend]

/-- What a file holds after it was opened several times and written to each time. -/
def sessions (dest : Bytes) (slices : List (List Bytes)) : Bytes :=
  slices.foldl (fun dest session => ((reopen dest).addRecords crc session).dest) dest

theorem Aligned.sessions {w : Writer} (h : w.Aligned) (slices : List (List Bytes)) :
    sessions crc w.dest slices = (w.addRecords crc slices.flatten).dest := by
  induction slices generalizing w with
  | nil => rfl
  | cons session slices ih =>
    have hrest := ih (h.addRecords crc session)
    rw [List.flatten_cons, addRecords_append, ← hrest, ← h.dest_reopen crc session]
    rfl

end Writer

end Log

end PracticeSwift.LevelDb
