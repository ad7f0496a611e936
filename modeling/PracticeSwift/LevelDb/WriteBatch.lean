import PracticeSwift.LevelDb.Coding

/-!
# Write batches

A write batch holds its operations as bytes: a sequence number, how many operations there are, and
the operations one after the other.  `Holds` says which operations the bytes stand for; every way to
change a batch keeps it, and `iterate` hands the operations to its handler in their order.
-/

namespace PracticeSwift.LevelDb

/-- The type of a value, as it is embedded in the data on disk. -/
inductive ValueType
  | kTypeDeletion
  | kTypeValue
  deriving DecidableEq

def ValueType.byte : ValueType → Byte
  | .kTypeDeletion => 0
  | .kTypeValue => 1

/-- The statuses that are returned here. -/
inductive Status
  | ok
  | notFound
  | corruption (msg : String)
  | ioError
  deriving DecidableEq

/-- What a batch asks for. -/
inductive Operation
  | put (key value : Bytes)
  | delete (key : Bytes)
  deriving DecidableEq

namespace Operation

/-- The lengths fit the 32 bits that they are written in. -/
def Fits : Operation → Prop
  | put key value => key.length < 2 ^ 32 ∧ value.length < 2 ^ 32
  | delete key => key.length < 2 ^ 32

/-- The bytes of an operation. -/
def record : Operation → Bytes
  | put key value => ValueType.kTypeValue.byte ::
      (putLengthPrefixedSlice [] key ++ putLengthPrefixedSlice [] value)
  | delete key => ValueType.kTypeDeletion.byte :: putLengthPrefixedSlice [] key

end Operation

/-- `WriteBatch::Handler`, with its own state. -/
structure Handler (σ : Type) where
  put : Bytes → Bytes → σ → σ
  delete : Bytes → σ → σ

def Handler.apply {σ : Type} (handler : Handler σ) (s : σ) : Operation → σ
  | .put key value => handler.put key value s
  | .delete key => handler.delete key s

structure WriteBatch where
  rep : Bytes

namespace WriteBatch

/-! ## Building a batch -/

/-- The sequence number and the count. -/
def kHeader : ℕ := 12

/-- The bytes that are written over those from an index on. -/
def overwrite (rep : Bytes) (i : ℕ) (bytes : Bytes) : Bytes :=
  rep.take i ++ bytes ++ rep.drop (i + bytes.length)

/-- `Clear`, which the constructor calls. -/
def clear : WriteBatch := ⟨List.replicate kHeader 0⟩

def count (b : WriteBatch) : BitVec 32 := decodeFixed32 (b.rep.drop 8)

def setCount (b : WriteBatch) (n : BitVec 32) : WriteBatch :=
  ⟨overwrite b.rep 8 (encodeFixed32 n)⟩

def sequence (b : WriteBatch) : BitVec 64 := decodeFixed64 b.rep

def setSequence (b : WriteBatch) (seq : BitVec 64) : WriteBatch :=
  ⟨overwrite b.rep 0 (encodeFixed64 seq)⟩

def byteSize (b : WriteBatch) : ℕ := b.rep.length

def put (b : WriteBatch) (key value : Bytes) : WriteBatch :=
  let b := b.setCount (b.count + 1)
  let rep := b.rep ++ [ValueType.kTypeValue.byte]
  ⟨putLengthPrefixedSlice (putLengthPrefixedSlice rep key) value⟩

def delete (b : WriteBatch) (key : Bytes) : WriteBatch :=
  let b := b.setCount (b.count + 1)
  let rep := b.rep ++ [ValueType.kTypeDeletion.byte]
  ⟨putLengthPrefixedSlice rep key⟩

def append (dst src : WriteBatch) : WriteBatch :=
  let dst := dst.setCount (dst.count + src.count)
  ⟨dst.rep ++ src.rep.drop kHeader⟩

/-! ## Iterating -/

/-- One round of the loop of `Iterate`, up to the call of the handler. -/
def readRecord (tag : Byte) (input : Bytes) : Except Status (Operation × Bytes) :=
  if tag = ValueType.kTypeValue.byte then
    match getLengthPrefixedSlice input with
    | some (key, input) =>
      match getLengthPrefixedSlice input with
      | some (value, input) => .ok (.put key value, input)
      | none => .error (.corruption "bad WriteBatch Put")
    | none => .error (.corruption "bad WriteBatch Put")
  else if tag = ValueType.kTypeDeletion.byte then
    match getLengthPrefixedSlice input with
    | some (key, input) => .ok (.delete key, input)
    | none => .error (.corruption "bad WriteBatch Delete")
  else .error (.corruption "unknown WriteBatch tag")

theorem length_readRecord {tag : Byte} {input rest : Bytes} {op : Operation}
    (h : readRecord tag input = .ok (op, rest)) : rest.length < input.length := by
  unfold readRecord at h
  split_ifs at h
  · split at h
    · next key input' hkey =>
      have hlt := length_getLengthPrefixedSlice hkey
      split at h
      · next value input'' hvalue =>
        have hlt' := length_getLengthPrefixedSlice hvalue
        cases h
        omega
      · cases h
    · cases h
  · split at h
    · next key input' hkey =>
      have hlt := length_getLengthPrefixedSlice hkey
      cases h
      omega
    · cases h

variable {σ : Type}

/-- The loop of `Iterate`: how many operations were found, or the status that was returned early. -/
def iterateLoop (handler : Handler σ) (input : Bytes) (found : BitVec 32) (s : σ) :
    Except Status (BitVec 32) × σ :=
  match input with
  | [] => (.ok found, s)
  | tag :: input =>
    match h : readRecord tag input with
    | .error status => (.error status, s)
    | .ok (op, rest) => iterateLoop handler rest (found + 1) (handler.apply s op)
termination_by input.length
decreasing_by
  have hlt := length_readRecord h
  rw [List.length_cons]
  omega

def iterate (b : WriteBatch) (handler : Handler σ) (s : σ) : Status × σ :=
  if b.rep.length < kHeader then (.corruption "malformed WriteBatch (too small)", s)
  else
    match iterateLoop handler (b.rep.drop kHeader) 0 s with
    | (.error status, s) => (status, s)
    | (.ok found, s) =>
      if found ≠ b.count then (.corruption "WriteBatch has wrong count", s) else (.ok, s)

/-! ## What a batch holds -/

/-- The bytes of a batch stand for these operations, the first with this sequence number. -/
structure Holds (b : WriteBatch) (seq : BitVec 64) (ops : List Operation) : Prop where
  rep_eq : b.rep = encodeFixed64 seq ++
    (encodeFixed32 (BitVec.ofNat 32 ops.length) ++ ops.flatMap Operation.record)

theorem putLengthPrefixedSlice_eq (dst value : Bytes) :
    putLengthPrefixedSlice dst value = dst ++ putLengthPrefixedSlice [] value := by
  simp only [putLengthPrefixedSlice, putVarint32, List.nil_append, List.append_assoc]

theorem holds_clear : clear.Holds 0 [] := ⟨by decide⟩

namespace Holds

variable {b : WriteBatch} {seq : BitVec 64} {ops : List Operation}

theorem sequence_eq (h : b.Holds seq ops) : b.sequence = seq := by
  rw [sequence, h.rep_eq, decodeFixed64_encode]

theorem drop_rep (h : b.Holds seq ops) :
    b.rep.drop 8 = encodeFixed32 (BitVec.ofNat 32 ops.length) ++ ops.flatMap Operation.record := by
  rw [h.rep_eq, List.drop_left' (length_encodeFixed64 seq)]

theorem count_eq (h : b.Holds seq ops) : b.count = BitVec.ofNat 32 ops.length := by
  rw [count, h.drop_rep, decodeFixed32_encode]

theorem records_eq (h : b.Holds seq ops) : b.rep.drop kHeader = ops.flatMap Operation.record := by
  have hdrop : b.rep.drop kHeader = (b.rep.drop 8).drop 4 := by
    rw [List.drop_drop]
    rfl
  rw [hdrop, h.drop_rep, List.drop_left' (length_encodeFixed32 _)]

theorem length_rep (h : b.Holds seq ops) :
    b.rep.length = kHeader + (ops.flatMap Operation.record).length := by
  rw [h.rep_eq, List.length_append, List.length_append, length_encodeFixed64, length_encodeFixed32,
    ← Nat.add_assoc]
  rfl

theorem setSequence (h : b.Holds seq ops) (seq' : BitVec 64) :
    (b.setSequence seq').Holds seq' ops := by
  constructor
  rw [WriteBatch.setSequence, overwrite, length_encodeFixed64, Nat.zero_add, h.drop_rep]
  rfl

/-- The count is written again, and bytes are appended for as many operations as it has grown by. -/
theorem setCount_append (h : b.Holds seq ops) {n : BitVec 32} {more : List Operation}
    (hn : n = BitVec.ofNat 32 (ops ++ more).length) :
    Holds ⟨(b.setCount n).rep ++ more.flatMap Operation.record⟩ seq (ops ++ more) := by
  have htake : b.rep.take 8 = encodeFixed64 seq := by
    rw [h.rep_eq, List.take_left' (length_encodeFixed64 seq)]
  constructor
  rw [WriteBatch.setCount, overwrite, length_encodeFixed32, htake, hn]
  rw [show b.rep.drop (8 + 4) = ops.flatMap Operation.record from h.records_eq]
  simp only [List.flatMap_append, List.append_assoc]

theorem append {src : WriteBatch} {seq' : BitVec 64} {ops' : List Operation}
    (h : b.Holds seq ops) (hsrc : src.Holds seq' ops') : (b.append src).Holds seq (ops ++ ops') := by
  rw [WriteBatch.append, hsrc.records_eq]
  apply h.setCount_append
  rw [h.count_eq, hsrc.count_eq, List.length_append, ← BitVec.ofNat_add]

theorem count_succ (h : b.Holds seq ops) (op : Operation) :
    b.count + 1 = BitVec.ofNat 32 (ops ++ [op]).length := by
  rw [h.count_eq, List.length_append, List.length_singleton, BitVec.ofNat_add]
  rfl

theorem put (h : b.Holds seq ops) (key value : Bytes) :
    (b.put key value).Holds seq (ops ++ [.put key value]) := by
  have hput := h.setCount_append (h.count_succ (.put key value))
  rw [List.flatMap_singleton, Operation.record] at hput
  rw [WriteBatch.put, putLengthPrefixedSlice_eq, putLengthPrefixedSlice_eq _ key]
  rw [List.append_assoc, List.append_assoc]
  exact hput

theorem delete (h : b.Holds seq ops) (key : Bytes) :
    (b.delete key).Holds seq (ops ++ [.delete key]) := by
  have hdelete := h.setCount_append (h.count_succ (.delete key))
  rw [List.flatMap_singleton, Operation.record] at hdelete
  rw [WriteBatch.delete, putLengthPrefixedSlice_eq, List.append_assoc]
  exact hdelete

end Holds

/-! ## Reading the operations back -/

/-- An operation is read back, and what follows it is left. -/
theorem readRecord_record {op : Operation} (h : op.Fits) (rest : Bytes) :
    ∃ tag input, op.record ++ rest = tag :: input ∧ readRecord tag input = .ok (op, rest) := by
  cases op with
  | put key value =>
    refine ⟨_, _, rfl, ?_⟩
    rw [List.append_eq, List.append_assoc, readRecord, if_pos rfl, getLengthPrefixedSlice_put h.1]
    dsimp only
    rw [getLengthPrefixedSlice_put h.2]
  | delete key =>
    refine ⟨_, _, rfl, ?_⟩
    rw [List.append_eq, readRecord, if_neg (by decide), if_pos rfl, getLengthPrefixedSlice_put h]

variable (handler : Handler σ)

theorem iterateLoop_nil (found : BitVec 32) (s : σ) :
    iterateLoop handler [] found s = (.ok found, s) := by
  rw [iterateLoop]

theorem iterateLoop_ok {tag : Byte} {input rest : Bytes} {op : Operation}
    (h : readRecord tag input = .ok (op, rest)) (found : BitVec 32) (s : σ) :
    iterateLoop handler (tag :: input) found s =
      iterateLoop handler rest (found + 1) (handler.apply s op) := by
  rw [iterateLoop]
  split
  · next status herror =>
    rw [h] at herror
    cases herror
  · next op' rest' hok =>
    rw [h] at hok
    cases hok
    rfl

theorem iterateLoop_error {tag : Byte} {input : Bytes} {status : Status}
    (h : readRecord tag input = .error status) (found : BitVec 32) (s : σ) :
    iterateLoop handler (tag :: input) found s = (.error status, s) := by
  rw [iterateLoop]
  split
  · next status' herror =>
    rw [h] at herror
    cases herror
    rfl
  · next op rest hok =>
    rw [h] at hok
    cases hok

theorem iterateLoop_record {op : Operation} (h : op.Fits) (rest : Bytes) (found : BitVec 32) (s : σ) :
    iterateLoop handler (op.record ++ rest) found s =
      iterateLoop handler rest (found + 1) (handler.apply s op) := by
  obtain ⟨tag, input, hrecord, hread⟩ := readRecord_record h rest
  rw [hrecord, iterateLoop_ok handler hread]

theorem iterateLoop_records {ops : List Operation} (h : ∀ op ∈ ops, op.Fits) (rest : Bytes)
    (found : BitVec 32) (s : σ) :
    iterateLoop handler (ops.flatMap Operation.record ++ rest) found s =
      iterateLoop handler rest (found + BitVec.ofNat 32 ops.length) (ops.foldl handler.apply s) := by
  induction ops generalizing found s with
  | nil =>
    rw [List.length_nil, BitVec.add_zero]
    rfl
  | cons op ops ih =>
    rw [List.forall_mem_cons] at h
    rw [List.flatMap_cons, List.append_assoc, iterateLoop_record handler h.1, ih h.2]
    rw [List.length_cons, Nat.add_comm, BitVec.ofNat_add, ← BitVec.add_assoc]
    rfl

/-- An operation that is cut off is not handed on. -/
theorem iterateLoop_take {op : Operation} (h : op.Fits) {k : ℕ} (hpos : 0 < k)
    (hk : k < op.record.length) (found : BitVec 32) (s : σ) :
    ∃ status, status ≠ .ok ∧
      iterateLoop handler (op.record.take k) found s = (.error status, s) := by
  obtain ⟨k, rfl⟩ := Nat.exists_eq_add_of_lt hpos
  rw [Nat.zero_add] at hk ⊢
  cases op with
  | put key value =>
    refine ⟨.corruption "bad WriteBatch Put", by decide, ?_⟩
    rw [Operation.record, List.length_cons, List.length_append] at hk
    rw [Operation.record, List.take_succ_cons]
    apply iterateLoop_error
    rw [readRecord, if_pos rfl, List.take_append]
    by_cases hkey : k < (putLengthPrefixedSlice [] key).length
    · rw [show k - (putLengthPrefixedSlice [] key).length = 0 by omega, List.take_zero,
        List.append_nil, getLengthPrefixedSlice_take h.1 hkey]
    · rw [List.take_of_length_le (by omega), getLengthPrefixedSlice_put h.1]
      dsimp only
      rw [getLengthPrefixedSlice_take h.2 (by omega)]
  | delete key =>
    refine ⟨.corruption "bad WriteBatch Delete", by decide, ?_⟩
    rw [Operation.record, List.length_cons] at hk
    rw [Operation.record, List.take_succ_cons]
    apply iterateLoop_error
    rw [readRecord, if_neg (by decide), if_pos rfl, getLengthPrefixedSlice_take h (by omega)]

/-- Where the bytes end in the middle, some of the operations are found and the others are not. -/
theorem iterateLoop_take_records {ops : List Operation} (h : ∀ op ∈ ops, op.Fits) {k : ℕ}
    (hk : k < (ops.flatMap Operation.record).length) (found : BitVec 32) (s : σ) :
    ∃ result : Except Status (BitVec 32), ∃ m < ops.length,
      iterateLoop handler ((ops.flatMap Operation.record).take k) found s =
        (result, (ops.take m).foldl handler.apply s) ∧
      (result = .ok (found + BitVec.ofNat 32 m) ∨ ∃ status, status ≠ .ok ∧ result = .error status) := by
  induction ops generalizing k found s with
  | nil => exact absurd hk (Nat.not_lt_zero k)
  | cons op ops ih =>
    rw [List.forall_mem_cons] at h
    rw [List.flatMap_cons, List.length_append] at hk
    rw [List.flatMap_cons, List.take_append]
    by_cases hop : k < op.record.length
    · rw [show k - op.record.length = 0 by omega, List.take_zero, List.append_nil]
      rcases Nat.eq_zero_or_pos k with rfl | hpos
      · refine ⟨_, 0, Nat.succ_pos _, iterateLoop_nil handler found s, .inl ?_⟩
        rw [BitVec.add_zero]
      · obtain ⟨status, hstatus, hloop⟩ := iterateLoop_take handler h.1 hpos hop found s
        exact ⟨_, 0, Nat.succ_pos _, hloop, .inr ⟨status, hstatus, rfl⟩⟩
    · rw [List.take_of_length_le (by omega), iterateLoop_record handler h.1]
      obtain ⟨result, m, hm, hloop, hresult⟩ := ih h.2 (by omega : k - op.record.length < _)
        (found + 1) (handler.apply s op)
      refine ⟨result, m + 1, Nat.succ_lt_succ hm, hloop, ?_⟩
      rwa [Nat.add_comm m, BitVec.ofNat_add, ← BitVec.add_assoc]

namespace Holds

variable {b : WriteBatch} {seq : BitVec 64} {ops : List Operation}

theorem iterate_eq (h : b.Holds seq ops) (hfits : ∀ op ∈ ops, op.Fits) (s : σ) :
    b.iterate handler s = (.ok, ops.foldl handler.apply s) := by
  have hlength := h.length_rep
  have hloop := iterateLoop_records handler hfits [] 0 s
  rw [List.append_nil, iterateLoop_nil] at hloop
  rw [iterate, if_neg (by omega), h.records_eq, hloop]
  dsimp only
  rw [h.count_eq, if_neg]
  exact fun hne => hne (BitVec.zero_add _)

theorem rep_take (h : b.Holds seq ops) {n : ℕ} (hn : kHeader ≤ n) :
    b.rep.take n = encodeFixed64 seq ++ (encodeFixed32 (BitVec.ofNat 32 ops.length) ++
      (ops.flatMap Operation.record).take (n - kHeader)) := by
  have hheader : kHeader = 12 := rfl
  rw [h.rep_eq, List.take_append, List.take_append, length_encodeFixed64, length_encodeFixed32,
    List.take_of_length_le (by rw [length_encodeFixed64]; omega),
    List.take_of_length_le (by rw [length_encodeFixed32]; omega), show n - 8 - 4 = n - kHeader by omega]

/-- A batch that is cut off is refused, and the handler has seen the first of its operations. -/
theorem iterate_take (h : b.Holds seq ops) (hfits : ∀ op ∈ ops, op.Fits) (hops : ops.length < 2 ^ 32)
    {n : ℕ} (hn : n < b.rep.length) (s : σ) :
    ∃ status, status ≠ .ok ∧ ∃ m ≤ ops.length,
      iterate ⟨b.rep.take n⟩ handler s = (status, (ops.take m).foldl handler.apply s) := by
  have hlength := h.length_rep
  by_cases hsmall : n < kHeader
  · refine ⟨.corruption "malformed WriteBatch (too small)", by decide, 0, Nat.zero_le _, ?_⟩
    rw [iterate, if_pos (by rw [List.length_take]; omega)]
    rfl
  · obtain ⟨result, m, hm, hloop, hresult⟩ :=
      iterateLoop_take_records handler hfits (by omega : n - kHeader < _) 0 s
    have hdrop : (b.rep.take n).drop kHeader = (ops.flatMap Operation.record).take (n - kHeader) := by
      rw [List.drop_take, h.records_eq]
    have hcount : count ⟨b.rep.take n⟩ = BitVec.ofNat 32 ops.length := by
      rw [count, h.rep_take (by omega), List.drop_left' (length_encodeFixed64 seq),
        decodeFixed32_encode]
    rw [iterate, if_neg (by rw [List.length_take]; omega), hdrop, hloop]
    rcases hresult with rfl | ⟨status, hstatus, rfl⟩
    · -- fewer operations were found than were counted
      refine ⟨.corruption "WriteBatch has wrong count", by decide, m, Nat.le_of_lt hm, ?_⟩
      dsimp only
      rw [hcount, if_pos]
      intro hfound
      have hvalue := congrArg BitVec.toNat hfound
      rw [BitVec.ofNat_eq_ofNat, BitVec.zero_add, BitVec.toNat_ofNat, BitVec.toNat_ofNat,
        Nat.mod_eq_of_lt hops, Nat.mod_eq_of_lt (by omega)] at hvalue
      omega
    · exact ⟨status, hstatus, m, Nat.le_of_lt hm, rfl⟩

end Holds

/-! ## Every batch -/

/-- The batches that can be built, with what was asked for since they were cleared. -/
inductive Built : WriteBatch → BitVec 64 → List Operation → Prop
  | clear : Built clear 0 []
  | put {b : WriteBatch} {seq : BitVec 64} {ops : List Operation} (h : Built b seq ops)
      (key value : Bytes) : Built (b.put key value) seq (ops ++ [.put key value])
  | delete {b : WriteBatch} {seq : BitVec 64} {ops : List Operation} (h : Built b seq ops)
      (key : Bytes) : Built (b.delete key) seq (ops ++ [.delete key])
  | append {b src : WriteBatch} {seq seq' : BitVec 64} {ops ops' : List Operation}
      (h : Built b seq ops) (hsrc : Built src seq' ops') : Built (b.append src) seq (ops ++ ops')
  | setSequence {b : WriteBatch} {seq : BitVec 64} {ops : List Operation} (h : Built b seq ops)
      (seq' : BitVec 64) : Built (b.setSequence seq') seq' ops

theorem Built.holds {b : WriteBatch} {seq : BitVec 64} {ops : List Operation} (h : Built b seq ops) :
    b.Holds seq ops := by
  induction h with
  | clear => exact holds_clear
  | put _ key value ih => exact ih.put key value
  | delete _ key ih => exact ih.delete key
  | append _ _ ih ihsrc => exact ih.append ihsrc
  | setSequence _ seq' ih => exact ih.setSequence seq'

/-- However a batch was built, of operations that can be written and fewer than an `int` counts,
whoever iterates over it is handed its operations in their order, and over less than the whole of it
the first few of them, and a status that says so. -/
theorem built_iterate {b : WriteBatch} {seq : BitVec 64} {ops : List Operation} (h : Built b seq ops)
    (hfits : ∀ op ∈ ops, op.Fits) (hops : ops.length < 2 ^ 31) (handler : Handler σ) (s : σ) :
    b.sequence = seq ∧ b.count.toInt = ops.length ∧
      b.iterate handler s = (.ok, ops.foldl handler.apply s) ∧
      ∀ n < b.byteSize, ∃ status, status ≠ .ok ∧ ∃ m ≤ ops.length,
        iterate ⟨b.rep.take n⟩ handler s = (status, (ops.take m).foldl handler.apply s) := by
  have hholds := h.holds
  refine ⟨hholds.sequence_eq, ?_, hholds.iterate_eq handler hfits s, ?_⟩
  · have hcount : (BitVec.ofNat 32 ops.length).toNat = ops.length := by
      rw [BitVec.toNat_ofNat, Nat.mod_eq_of_lt (by omega)]
    rw [hholds.count_eq, BitVec.toInt_eq_toNat_of_lt (by omega), hcount]
  · exact fun n hn => hholds.iterate_take handler hfits (by omega) hn s

theorem built_iterate_two :
    ((clear.put [1] [2, 3]).delete [4]).iterate
        ⟨fun key value ops => ops ++ [Operation.put key value],
          fun key ops => ops ++ [Operation.delete key]⟩ [] =
      (.ok, [.put [1] [2, 3], .delete [4]]) :=
  (built_iterate ((Built.clear.put [1] [2, 3]).delete [4]) (by simp [Operation.Fits]) (by simp)
    ⟨_, _⟩ []).2.2.1

end WriteBatch

end PracticeSwift.LevelDb
