import PracticeSwift.LevelDb.MemTable

/-!
# Groups of writers

Threads that write stand in a queue, and the one at its front writes for some of those behind it as
well: it makes one batch of theirs, which holds the operations of all of them in their order.
-/

namespace PracticeSwift.LevelDb

/-! ## What a batch asks for -/

namespace WriteBatch

/-- A handler that keeps the operations. -/
def collector : Handler (List Operation) where
  put key value ops := ops ++ [.put key value]
  delete key ops := ops ++ [.delete key]

/-- The operations of a batch, in their order. -/
def operations (b : WriteBatch) : List Operation := (b.iterate collector []).2

theorem foldl_collector (ops more : List Operation) :
    more.foldl collector.apply ops = ops ++ more := by
  induction more generalizing ops with
  | nil => rw [List.foldl_nil, List.append_nil]
  | cons op more ih =>
    have happly : collector.apply ops op = ops ++ [op] := by cases op <;> rfl
    rw [List.foldl_cons, happly, ih, List.append_assoc, List.singleton_append]

namespace Holds

variable {b : WriteBatch} {seq : BitVec 64} {ops : List Operation}

theorem operations_eq (h : b.Holds seq ops) (hfits : ∀ op ∈ ops, op.Fits) : b.operations = ops := by
  rw [operations, h.iterate_eq collector hfits]
  exact foldl_collector [] ops

theorem byteSize_eq (h : b.Holds seq ops) :
    b.byteSize = kHeader + (ops.flatMap Operation.record).length := h.length_rep

end Holds

/-- Every operation takes a byte at least. -/
theorem length_le_records (ops : List Operation) :
    ops.length ≤ (ops.flatMap Operation.record).length := by
  induction ops with
  | nil => exact Nat.le_refl 0
  | cons op ops ih =>
    have hpos : 0 < op.record.length := by cases op <;> exact Nat.succ_pos _
    rw [List.flatMap_cons, List.length_append, List.length_cons]
    omega

end WriteBatch

/-! ## The queue -/

/-- `DBImpl::Writer`; one without a batch asks for a compaction. -/
structure Writer where
  batch : Option WriteBatch
  sync : Bool

namespace Writer

def ops (w : Writer) : List Operation := (w.batch.map WriteBatch.operations).getD []

/-- The batch was built, its lengths fit and it is below two gigabytes, as its count has to be. -/
def Valid (w : Writer) : Prop :=
  ∀ b, w.batch = some b → (∃ seq ops, WriteBatch.Built b seq ops ∧ ∀ op ∈ ops, op.FitsEntry) ∧
    b.byteSize < 2 ^ 31

theorem Valid.holds {w : Writer} (h : w.Valid) {b : WriteBatch} (hb : w.batch = some b) :
    (∃ seq, b.Holds seq w.ops) ∧ (∀ op ∈ w.ops, op.FitsEntry) ∧ b.byteSize < 2 ^ 31 := by
  obtain ⟨⟨seq, ops, hbuilt, hfits⟩, hsize⟩ := h b hb
  have hholds := hbuilt.holds
  have hops : w.ops = ops := by
    rw [Writer.ops, hb]
    exact hholds.operations_eq fun op hop => MemTable.fits_of_fitsEntry (hfits op hop)
  rw [hops]
  exact ⟨⟨seq, hholds⟩, hfits, hsize⟩

theorem Valid.fits {w : Writer} (h : w.Valid) : ∀ op ∈ w.ops, op.FitsEntry := by
  cases hb : w.batch with
  | none =>
    intro op hop
    rw [ops, hb] at hop
    exact absurd hop List.not_mem_nil
  | some b => exact (h.holds hb).2.1

end Writer

/-- How large a group may get: not much larger than a small write. -/
def maxGroupSize (size : ℕ) : ℕ := if size ≤ 128 <<< 10 then size + (128 <<< 10) else 1 <<< 20

/-- The loop of `BuildBatchGroup` over the writers behind the first, with the temporary batch if it
has been switched to. -/
def appendWriters (first : Writer) (firstBatch tmp : WriteBatch) (maxSize : ℕ) :
    ℕ → Option WriteBatch → ℕ → List Writer → Option WriteBatch × ℕ
  | _, result, group, [] => (result, group)
  | size, result, group, w :: writers =>
    if w.sync && !first.sync then (result, group)
    else
      match w.batch with
      | none => appendWriters first firstBatch tmp maxSize size result (group + 1) writers
      | some b =>
        let size := size + b.byteSize
        if maxSize < size then (result, group)
        else
          let result := result.getD (tmp.append firstBatch)
          appendWriters first firstBatch tmp maxSize size (some (result.append b)) (group + 1) writers

/-- What the loop knows of the writers that it has passed. -/
structure Grouped (first : Writer) (firstBatch tmp : WriteBatch) (result : Option WriteBatch)
    (ops : List Operation) : Prop where
  updates : ∃ seq, (result.getD firstBatch).Holds seq ops
  tmp : ∃ seq, (result.getD (tmp.append firstBatch)).Holds seq ops

/-- What the loop makes of the writers behind those with these operations: it takes some of those at
the front, none of them to be synced unless the first one is. -/
structure Takes (first : Writer) (firstBatch tmp : WriteBatch) (ops : List Operation)
    (limit group : ℕ) (writers taken : List Writer) (built : Option WriteBatch × ℕ) : Prop where
  front : taken <+: writers
  group_eq : built.2 = group + taken.length
  sync : ∀ w ∈ taken, w.sync = true → first.sync = true
  grouped : Grouped first firstBatch tmp built.1 (ops ++ taken.flatMap Writer.ops)
  size_le : WriteBatch.kHeader +
    ((ops ++ taken.flatMap Writer.ops).flatMap Operation.record).length ≤ limit

namespace Takes

variable {first w : Writer} {firstBatch tmp : WriteBatch} {ops : List Operation}
  {limit limit' group : ℕ} {writers taken : List Writer} {built : Option WriteBatch × ℕ}

/-- The loop stops. -/
theorem nil {result : Option WriteBatch} (h : Grouped first firstBatch tmp result ops)
    (hsize : WriteBatch.kHeader + (ops.flatMap Operation.record).length ≤ limit) :
    Takes first firstBatch tmp ops limit group writers [] (result, group) := by
  refine ⟨List.nil_prefix, rfl, fun w hw => absurd hw List.not_mem_nil, ?_, ?_⟩
  · rw [List.flatMap_nil, List.append_nil]
    exact h
  · rw [List.flatMap_nil, List.append_nil]
    exact hsize

/-- The loop takes one more and goes on. -/
theorem cons (h : Takes first firstBatch tmp (ops ++ w.ops) limit (group + 1) writers taken built)
    (hw : w.sync = true → first.sync = true) :
    Takes first firstBatch tmp ops limit group (w :: writers) (w :: taken) built := by
  have hgrouped := h.grouped
  have hsize := h.size_le
  rw [List.append_assoc] at hgrouped hsize
  refine ⟨List.cons_prefix_cons.2 ⟨rfl, h.front⟩, ?_, List.forall_mem_cons.2 ⟨hw, h.sync⟩, hgrouped,
    hsize⟩
  rw [h.group_eq, List.length_cons]
  omega

theorem mono (h : Takes first firstBatch tmp ops limit group writers taken built)
    (hle : limit ≤ limit') : Takes first firstBatch tmp ops limit' group writers taken built :=
  ⟨h.front, h.group_eq, h.sync, h.grouped, Nat.le_trans h.size_le hle⟩

end Takes

theorem appendWriters_spec {first : Writer} {firstBatch tmp : WriteBatch} {size : ℕ}
    {result : Option WriteBatch} {ops : List Operation} {writers : List Writer} (maxSize group : ℕ)
    (hvalid : ∀ w ∈ writers, w.Valid) (h : Grouped first firstBatch tmp result ops)
    (hsize : WriteBatch.kHeader + (ops.flatMap Operation.record).length ≤ size) :
    ∃ taken, Takes first firstBatch tmp ops (max size maxSize) group writers taken
      (appendWriters first firstBatch tmp maxSize size result group writers) := by
  have hlimit : WriteBatch.kHeader + (ops.flatMap Operation.record).length ≤ max size maxSize :=
    Nat.le_trans hsize (Nat.le_max_left _ _)
  induction writers generalizing size result group ops with
  | nil => exact ⟨[], .nil h hlimit⟩
  | cons w writers ih =>
    rw [List.forall_mem_cons] at hvalid
    rw [appendWriters]
    by_cases hsync : (w.sync && !first.sync) = true
    · rw [if_pos hsync]
      exact ⟨[], .nil h hlimit⟩
    · have hw : w.sync = true → first.sync = true := by
        intro hw
        rw [hw, Bool.true_and, Bool.not_eq_true', Bool.not_eq_false] at hsync
        exact hsync
      rw [if_neg hsync]
      cases hbatch : w.batch with
      | none =>
        have hnone : ops ++ w.ops = ops := by
          rw [Writer.ops, hbatch]
          exact List.append_nil ops
        obtain ⟨taken, htaken⟩ := ih (group + 1) hvalid.2 h hsize hlimit
        exact ⟨w :: taken, .cons (hnone.symm ▸ htaken) hw⟩
      | some b =>
        dsimp only
        by_cases hlarge : maxSize < size + b.byteSize
        · rw [if_pos hlarge]
          exact ⟨[], .nil h hlimit⟩
        · rw [if_neg hlarge]
          obtain ⟨⟨seq, hholds⟩, -, -⟩ := hvalid.1.holds hbatch
          obtain ⟨seq', htmp⟩ := h.tmp
          have happend := htmp.append hholds
          have hsize' : WriteBatch.kHeader + ((ops ++ w.ops).flatMap Operation.record).length ≤
              size + b.byteSize := by
            rw [List.flatMap_append, List.length_append, hholds.byteSize_eq]
            omega
          have h' : Grouped first firstBatch tmp
              (some ((result.getD (tmp.append firstBatch)).append b)) (ops ++ w.ops) :=
            ⟨⟨seq', happend⟩, ⟨seq', happend⟩⟩
          obtain ⟨taken, htaken⟩ := ih (group + 1) hvalid.2 h' hsize'
            (Nat.le_trans hsize' (Nat.le_max_left _ _))
          exact ⟨w :: taken, .cons (htaken.mono (by omega)) hw⟩

/-- `BuildBatchGroup`, for a first writer with this batch: the temporary batch unless the batch itself
is used, and the size of the group. -/
def buildBatchGroup (tmp : WriteBatch) (first : Writer) (b : WriteBatch) (writers : List Writer) :
    Option WriteBatch × ℕ :=
  let size := b.byteSize
  appendWriters first b tmp (maxGroupSize size) size none 1 writers

theorem maxGroupSize_lt (size : ℕ) : maxGroupSize size < 2 ^ 31 := by
  unfold maxGroupSize
  split_ifs with hsmall
  · exact Nat.lt_of_le_of_lt (Nat.add_le_add_right hsmall _) (by decide)
  · decide

/-- The batch holds the operations of the writers that are in the group. -/
theorem buildBatchGroup_spec {tmp b : WriteBatch} {first : Writer} {writers : List Writer}
    {seq : BitVec 64} (htmp : tmp.Holds seq []) (hvalid : ∀ w ∈ first :: writers, w.Valid)
    (hb : first.batch = some b) :
    (buildBatchGroup tmp first b writers).2 ≤ (first :: writers).length ∧
      (∃ seq, ((buildBatchGroup tmp first b writers).1.getD b).Holds seq
        (((first :: writers).take (buildBatchGroup tmp first b writers).2).flatMap Writer.ops)) ∧
      (((first :: writers).take (buildBatchGroup tmp first b writers).2).flatMap
        Writer.ops).length < 2 ^ 31 ∧
      0 < (buildBatchGroup tmp first b writers).2 ∧
      ∀ w ∈ (first :: writers).take (buildBatchGroup tmp first b writers).2,
        w.sync = true → first.sync = true := by
  obtain ⟨⟨seq', hholds⟩, -, hbytes⟩ := (hvalid first List.mem_cons_self).holds hb
  have hgrouped : Grouped first b tmp none first.ops :=
    ⟨⟨seq', hholds⟩, ⟨seq, htmp.append hholds⟩⟩
  obtain ⟨taken, hpre, hgroup, hsync, hgrouped', hlarge⟩ := appendWriters_spec
    (maxGroupSize b.byteSize) 1 (fun w hw => hvalid w (List.mem_cons_of_mem _ hw)) hgrouped
    (Nat.le_of_eq hholds.byteSize_eq.symm)
  have htake : (first :: writers).take (1 + taken.length) = first :: taken := by
    rw [Nat.add_comm, List.take_succ_cons, ← List.prefix_iff_eq_take.1 hpre]
  have hgroup' : (buildBatchGroup tmp first b writers).2 = 1 + taken.length := hgroup
  rw [hgroup', htake]
  refine ⟨?_, hgrouped'.updates, ?_, by omega, List.forall_mem_cons.2 ⟨id, hsync⟩⟩
  · rw [List.length_cons]
    have hle := hpre.length_le
    omega
  · have hle := WriteBatch.length_le_records (first.ops ++ taken.flatMap Writer.ops)
    have hmax := maxGroupSize_lt b.byteSize
    rw [List.flatMap_cons]
    omega

end PracticeSwift.LevelDb
