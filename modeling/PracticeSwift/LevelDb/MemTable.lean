import PracticeSwift.LevelDb.InternalKey
import PracticeSwift.LevelDb.SkipList
import PracticeSwift.Library.Versions

/-!
# The memtable

A memtable is a skip list of entries, each an internal key and a value after their lengths.  `Holds`
says which operations have been added, numbered from a base on; then a reader at a sequence number
finds what a key has after the operations up to it.
-/

namespace PracticeSwift.LevelDb

/-- The key for a lookup, in two parts: its length, and from `kstart_` on the internal key. -/
structure LookupKey where
  klength : Bytes
  kstart : Bytes

namespace LookupKey

def new (userKey : Bytes) (s : BitVec 64) : LookupKey where
  klength := encodeVarint32 (BitVec.ofNat 32 (userKey.length + 8))
  kstart := userKey ++ encodeFixed64 (packSequenceAndType s kValueTypeForSeek)

def memtableKey (key : LookupKey) : Bytes := key.klength ++ key.kstart

def internalKey (key : LookupKey) : Bytes := key.kstart

def userKey (key : LookupKey) : Bytes := key.kstart.take (key.kstart.length - 8)

end LookupKey

/-- A memtable, with the comparator of the user keys. -/
structure MemTable where
  comparator : Comparator
  table : SkipList Bytes

namespace MemTable

/-- The slice after its length that a pointer leads to, which is assumed not to be corrupted. -/
def lengthPrefixed (data : Bytes) : Bytes :=
  match getVarint32 data with
  | some (len, p) => p.take len.toNat
  | none => []

/-- `KeyComparator`, of two entries. -/
def keyCompare (c : Comparator) (aptr bptr : Bytes) : Ordering :=
  InternalKeyComparator.compare c (lengthPrefixed aptr) (lengthPrefixed bptr)

def new (comparator : Comparator) : MemTable := ⟨comparator, SkipList.new []⟩

/-- The bytes that `Add` puts into the arena. -/
def encodeEntry (s : BitVec 64) (type : ValueType) (key value : Bytes) : Bytes :=
  let internalKeySize := key.length + 8
  encodeVarint32 (BitVec.ofNat 32 internalKeySize) ++ key ++
    encodeFixed64 (packSequenceAndType s type) ++ encodeVarint32 (BitVec.ofNat 32 value.length) ++ value

def add (m : MemTable) (s : BitVec 64) (type : ValueType) (key value : Bytes) : Option MemTable :=
  (m.table.insert (keyCompare m.comparator) (encodeEntry s type key value)).map
    fun table => { m with table }

/-- What `Get` finds at an entry: nothing if it belongs to another key. -/
def getEntry (c : Comparator) (entry : Bytes) (key : LookupKey) : Option (Except Status Bytes) := do
  let (keyLength, keyPtr) ← getVarint32 entry
  if c.compare (keyPtr.take (keyLength - 8).toNat) key.userKey = .eq then
    let tag := decodeFixed64 (keyPtr.drop (keyLength - 8).toNat)
    match ← ValueType.ofTag tag with
    | .kTypeValue => some (.ok (lengthPrefixed (keyPtr.drop keyLength.toNat)))
    | .kTypeDeletion => some (.error .notFound)
  else none

/-- `Get`, which is `true` and sets the value or the status, or is `false`. -/
def get (m : MemTable) (key : LookupKey) : Option (Option (Except Status Bytes)) :=
  (m.table.seek (keyCompare m.comparator) key.memtableKey).map fun n =>
    n.bind fun n => getEntry m.comparator (m.table.key n) key

/-- `MemTableInserter`, with the sequence number of the next operation and the memtable. -/
def inserter : Handler (BitVec 64 × Option MemTable) where
  put key value s := (s.1 + 1, s.2.bind fun m => m.add s.1 .kTypeValue key value)
  delete key s := (s.1 + 1, s.2.bind fun m => m.add s.1 .kTypeDeletion key [])

/-- `WriteBatchInternal::InsertInto` -/
def insertInto (b : WriteBatch) (m : MemTable) : Status × Option MemTable :=
  let (status, s) := b.iterate inserter (b.sequence, some m)
  (status, s.2)

/-! ## Entries -/

/-- The version that an entry holds: its user key, and the number and type of its value. -/
def version (entry : Bytes) : Bytes × ℕ :=
  (extractUserKey (lengthPrefixed entry), (extractTag (lengthPrefixed entry)).toNat)

/-- Entries are in the order of their versions. -/
theorem keyCompare_eq (c : Comparator) (a b : Bytes) :
    keyCompare c a b = Versions.order c.compare (version a) (version b) := by
  rw [keyCompare, InternalKeyComparator.compare_eq, InternalKeyComparator.compare_toNat]
  rfl

instance {c : Comparator} [Std.TransCmp c.compare] : Std.TransCmp (keyCompare c) where
  eq_swap := by
    intro a b
    unfold keyCompare
    exact Std.OrientedCmp.eq_swap
  isLE_trans := by
    intro a b d hab hbd
    unfold keyCompare at hab hbd ⊢
    exact Std.TransCmp.isLE_trans hab hbd

/-- The version of an entry whose length fits. -/
theorem version_append {key : Bytes} (h : key.length + 8 < 2 ^ 32) (tag : BitVec 64) (rest : Bytes) :
    version (encodeVarint32 (BitVec.ofNat 32 (key.length + 8)) ++ (key ++ (encodeFixed64 tag ++ rest))) =
      (key, tag.toNat) := by
  have hlength : (key ++ encodeFixed64 tag).length = key.length + 8 := by
    rw [List.length_append, length_encodeFixed64]
  have hslice : lengthPrefixed (encodeVarint32 (BitVec.ofNat 32 (key.length + 8)) ++
      (key ++ (encodeFixed64 tag ++ rest))) = key ++ encodeFixed64 tag := by
    rw [lengthPrefixed, getVarint32_encode]
    dsimp only
    rw [BitVec.toNat_ofNat, Nat.mod_eq_of_lt h, ← List.append_assoc, List.take_left' hlength]
  rw [version, hslice, extractUserKey_append, extractTag_append]

theorem version_encodeEntry {key : Bytes} (h : key.length + 8 < 2 ^ 32) {s : BitVec 64}
    (hs : s ≤ kMaxSequenceNumber) (type : ValueType) (value : Bytes) :
    version (encodeEntry s type key value) = (key, s.toNat * 256 + type.byte.toNat) := by
  rw [encodeEntry, List.append_assoc, List.append_assoc, List.append_assoc, version_append h,
    toNat_packSequenceAndType hs]

theorem version_memtableKey {key : Bytes} (h : key.length + 8 < 2 ^ 32) {s : BitVec 64}
    (hs : s ≤ kMaxSequenceNumber) :
    version (LookupKey.new key s).memtableKey = (key, s.toNat * 256 + 1) := by
  have happend := version_append h (packSequenceAndType s kValueTypeForSeek) []
  rw [List.append_nil, toNat_packSequenceAndType hs] at happend
  exact happend

theorem userKey_new (key : Bytes) (s : BitVec 64) : (LookupKey.new key s).userKey = key :=
  extractUserKey_append key _

/-- At an entry for the key its value is found, or that it was deleted. -/
theorem getEntry_encodeEntry {c : Comparator} {key value : Bytes} (hkey : key.length + 8 < 2 ^ 32)
    (hvalue : value.length < 2 ^ 32) (s : BitVec 64) (type : ValueType) (target : LookupKey) :
    getEntry c (encodeEntry s type key value) target =
      if c.compare key target.userKey = .eq then
        some (match type with
          | .kTypeValue => .ok value
          | .kTypeDeletion => .error .notFound)
      else none := by
  have hlength : (BitVec.ofNat 32 (key.length + 8)).toNat = key.length + 8 := by
    rw [BitVec.toNat_ofNat, Nat.mod_eq_of_lt hkey]
  have hsub : (BitVec.ofNat 32 (key.length + 8) - 8).toNat = key.length := by
    rw [BitVec.toNat_sub, hlength, show (8 : BitVec 32).toNat = 8 from rfl]
    omega
  have hrest : (key ++ (encodeFixed64 (packSequenceAndType s type) ++
      (encodeVarint32 (BitVec.ofNat 32 value.length) ++ value))).drop (key.length + 8) =
        encodeVarint32 (BitVec.ofNat 32 value.length) ++ value := by
    have hkeyLength : (key ++ encodeFixed64 (packSequenceAndType s type)).length = key.length + 8 := by
      rw [List.length_append, length_encodeFixed64]
    rw [← List.append_assoc, List.drop_left' hkeyLength]
  have hslice : lengthPrefixed (encodeVarint32 (BitVec.ofNat 32 value.length) ++ value) = value := by
    rw [lengthPrefixed, getVarint32_encode]
    dsimp only
    rw [toNat_length hvalue, List.take_length]
  rw [getEntry, encodeEntry, List.append_assoc, List.append_assoc, List.append_assoc,
    getVarint32_encode, Option.bind_eq_bind, Option.bind_some]
  dsimp only
  rw [hsub, List.take_left' rfl, List.drop_left' rfl, decodeFixed64_encode, hlength, hrest, hslice,
    ofTag_packSequenceAndType]
  cases type <;> rfl

end MemTable

/-! ## What a memtable holds -/

namespace Operation

def type : Operation → ValueType
  | put _ _ => .kTypeValue
  | delete _ => .kTypeDeletion

def key : Operation → Bytes
  | put key _ => key
  | delete key => key

/-- The value that is put, unless the key is deleted. -/
def value : Operation → Option Bytes
  | put _ value => some value
  | delete _ => none

/-- The lengths fit an entry of a memtable. -/
def FitsEntry (op : Operation) : Prop :=
  op.key.length + 8 < 2 ^ 32 ∧ (op.value.getD []).length < 2 ^ 32

/-- What the operation does to its key. -/
def write (op : Operation) : Bytes × Option Bytes := (op.key, op.value)

end Operation

/-- What `Get` says of a key with this value, or without any. -/
def getResult : Option Bytes → Except Status Bytes
  | some value => .ok value
  | none => .error .notFound

namespace MemTable

/-- The entry of an operation with its number. -/
def entryOf (e : Operation × ℕ) : Bytes :=
  encodeEntry (BitVec.ofNat 64 e.2) e.1.type e.1.key (e.1.value.getD [])

/-- These operations have been added, the first with this number and each with the next. -/
structure Holds (m : MemTable) (base : ℕ) (ops : List Operation) : Prop where
  represents : ∃ nodes height, SkipList.Represents (keyCompare m.comparator) m.table nodes height ∧
    (nodes.map m.table.key).Perm ((ops.zipIdx base).map entryOf)
  fits : ∀ op ∈ ops, op.FitsEntry
  last_le : base + ops.length ≤ 2 ^ 56

theorem holds_new (comparator : Comparator) {base : ℕ} (h : base ≤ 2 ^ 56) :
    (new comparator).Holds base [] where
  represents := ⟨[], _, SkipList.represents_new [] _, .refl _⟩
  fits _ hop := absurd hop List.not_mem_nil
  last_le := h

theorem le_kMaxSequenceNumber {n : ℕ} (h : n < 2 ^ 56) :
    BitVec.ofNat 64 n ≤ kMaxSequenceNumber ∧ (BitVec.ofNat 64 n).toNat = n := by
  have hn : (BitVec.ofNat 64 n).toNat = n := by
    rw [BitVec.toNat_ofNat, Nat.mod_eq_of_lt (by omega)]
  refine ⟨?_, hn⟩
  rw [BitVec.le_def, hn, show kMaxSequenceNumber.toNat = 2 ^ 56 - 1 from rfl]
  omega

theorem version_entryOf {op : Operation} {n : ℕ} (h : op.FitsEntry) (hn : n < 2 ^ 56) :
    version (entryOf (op, n)) = (op.key, n * 256 + op.type.byte.toNat) := by
  obtain ⟨hle, htoNat⟩ := le_kMaxSequenceNumber hn
  rw [entryOf, version_encodeEntry h.1 hle, htoNat]

/-- One bit is enough for the types. -/
theorem type_le (type : ValueType) : type.byte.toNat ≤ 1 := by
  cases type <;> decide

/-- A number is not too new if its tag is not. -/
theorem tag_le_iff {a n : ℕ} (type : ValueType) : a * 256 + type.byte.toNat ≤ n * 256 + 1 ↔ a ≤ n := by
  have htype := type_le type
  omega

theorem le_of_tag_le {a b : ℕ} {type type' : ValueType}
    (h : a * 256 + type.byte.toNat ≤ b * 256 + type'.byte.toNat) : a ≤ b := by
  have htype := type_le type'
  omega

theorem value_of_type (op : Operation) :
    (match op.type with
      | .kTypeValue => .ok (op.value.getD [])
      | .kTypeDeletion => .error .notFound : Except Status Bytes) = getResult op.value := by
  cases op <;> rfl

namespace Holds

variable {m : MemTable} {base : ℕ} {ops : List Operation}

/-- The number of an operation that has been added. -/
theorem mem_zipIdx (h : m.Holds base ops) {e : Operation × ℕ} (he : e ∈ ops.zipIdx base) :
    e.1.FitsEntry ∧ base ≤ e.2 ∧ e.2 < base + ops.length ∧ e.2 < 2 ^ 56 := by
  obtain ⟨op, n⟩ := e
  obtain ⟨hbase, hn, hop⟩ := List.mem_zipIdx he
  have hlast := h.last_le
  refine ⟨h.fits op ?_, hbase, hn, by dsimp only; omega⟩
  rw [hop]
  exact List.getElem_mem _

theorem add [Std.TransCmp m.comparator.compare] (h : m.Holds base ops) {op : Operation}
    (hop : op.FitsEntry) (hnext : base + ops.length < 2 ^ 56) :
    ∃ m', m.add (BitVec.ofNat 64 (base + ops.length)) op.type op.key (op.value.getD []) = some m' ∧
      m'.comparator = m.comparator ∧ m'.Holds base (ops ++ [op]) := by
  obtain ⟨nodes, height, hrepresents, hperm⟩ := h.represents
  have hfresh : ∀ n ∈ nodes, keyCompare m.comparator (m.table.key n)
      (entryOf (op, base + ops.length)) ≠ .eq := by
    intro n hn heq
    obtain ⟨e, he, hentry⟩ := List.mem_map.1 (hperm.subset (List.mem_map_of_mem hn))
    obtain ⟨hfits, -, hlt, hlt'⟩ := h.mem_zipIdx he
    have htype := type_le e.1.type
    have htype' := type_le op.type
    rw [← hentry, keyCompare_eq, version_entryOf hfits hlt', version_entryOf hop hnext,
      Versions.order, Ordering.then_eq_eq, Nat.compare_eq_eq] at heq
    omega
  obtain ⟨table, height', hinsert, hrepresents', hkey⟩ := hrepresents.insert hfresh
  have hkeys := hrepresents.keys_insert hkey
    (m.table.isBefore (keyCompare m.comparator) (entryOf (op, base + ops.length)))
  refine ⟨{ m with table }, ?_, rfl, ⟨_, _, hrepresents', ?_⟩, ?_, ?_⟩
  · rw [MemTable.add]
    exact congrArg (Option.map _) hinsert
  · have hentries : ((ops ++ [op]).zipIdx base).map entryOf =
        (ops.zipIdx base).map entryOf ++ [entryOf (op, base + ops.length)] := by
      rw [List.zipIdx_append, List.map_append]
      rfl
    rw [hentries]
    exact hkeys.trans (hperm.append_right _)
  · intro o ho
    rcases List.mem_append.1 ho with ho | ho
    · exact h.fits o ho
    · rw [List.mem_singleton.1 ho]
      exact hop
  · rw [List.length_append, List.length_singleton]
    omega

/-- The operation that the entry of a node was made from. -/
theorem getElem_of_mem (h : m.Holds base ops) {entry : Bytes}
    (hentry : entry ∈ (ops.zipIdx base).map entryOf) :
    ∃ i, ∃ hi : i < ops.length, entry = entryOf (ops[i], base + i) ∧ ops[i].FitsEntry ∧
      version entry = (ops[i].key, (base + i) * 256 + ops[i].type.byte.toNat) := by
  obtain ⟨⟨op, n⟩, he, rfl⟩ := List.mem_map.1 hentry
  obtain ⟨hfits, hbase, hlt, hlt'⟩ := h.mem_zipIdx he
  obtain ⟨-, hn, hop⟩ := List.mem_zipIdx he
  have hsub : base + (n - base) = n := by
    dsimp only at hbase
    omega
  refine ⟨n - base, by dsimp only at hbase hlt; omega, ?_⟩
  rw [← hop, hsub]
  exact ⟨rfl, hfits, version_entryOf hfits hlt'⟩

section Lookup

variable {nodes : List Node} {key : Bytes} {n : ℕ}

/-- Every operation has a node. -/
theorem exists_node (h : m.Holds base ops)
    (hperm : (nodes.map m.table.key).Perm ((ops.zipIdx base).map entryOf)) {i : ℕ}
    (hi : i < ops.length) :
    ∃ x ∈ nodes,
      version (m.table.key x) = (ops[i].key, (base + i) * 256 + ops[i].type.byte.toNat) := by
  have hmem : (ops[i], base + i) ∈ ops.zipIdx base :=
    List.mk_add_mem_zipIdx_iff_getElem?.2 (List.getElem?_eq_getElem hi)
  obtain ⟨x, hx, hxkey⟩ := List.mem_map.1 (hperm.symm.subset (List.mem_map_of_mem hmem))
  obtain ⟨hfits, -, -, hlt⟩ := h.mem_zipIdx hmem
  exact ⟨x, hx, by rw [hxkey, version_entryOf hfits hlt]⟩

/-- If every node of the key is too new, so is every operation on it. -/
theorem lookup_eq_none (h : m.Holds base ops)
    (hperm : (nodes.map m.table.key).Perm ((ops.zipIdx base).map entryOf))
    (hnewer : ∀ x ∈ nodes, m.comparator.compare (version (m.table.key x)).1 key = .eq →
      n * 256 + 1 < (version (m.table.key x)).2) :
    Versions.lookup m.comparator.compare ((ops.map Operation.write).take (n + 1 - base)) key =
      none := by
  refine Versions.lookup_take_eq_none fun j hj hjkey => ?_
  rw [List.length_map] at hj
  rw [List.getElem_map] at hjkey
  obtain ⟨x, hx, hxversion⟩ := h.exists_node hperm hj
  have hlt := hnewer x hx (by rw [hxversion]; exact hjkey)
  rw [hxversion] at hlt
  exact Nat.lt_of_not_le fun hle => Nat.not_lt_of_le ((tag_le_iff ops[j].type).2 hle) hlt

/-- The operation of the newest node of the key that is not too new. -/
theorem lookup_eq_some (h : m.Holds base ops)
    (hperm : (nodes.map m.table.key).Perm ((ops.zipIdx base).map entryOf)) {i : ℕ}
    (hi : i < ops.length) (hkey : m.comparator.compare ops[i].key key = .eq)
    (hle : (base + i) * 256 + ops[i].type.byte.toNat ≤ n * 256 + 1)
    (hnewest : ∀ y ∈ nodes, m.comparator.compare (version (m.table.key y)).1 key = .eq →
      (version (m.table.key y)).2 ≤ n * 256 + 1 →
        (version (m.table.key y)).2 ≤ (base + i) * 256 + ops[i].type.byte.toNat) :
    Versions.lookup m.comparator.compare ((ops.map Operation.write).take (n + 1 - base)) key =
      some ops[i].value := by
  have hi' : i < (ops.map Operation.write).length := by rwa [List.length_map]
  have hlookup : Versions.lookup m.comparator.compare
      ((ops.map Operation.write).take (n + 1 - base)) key = some (ops.map Operation.write)[i].2 := by
    refine Versions.lookup_take hi' ((tag_le_iff ops[i].type).1 hle)
      (by rw [List.getElem_map]; exact hkey) ?_
    intro j hj hjn hjkey
    rw [List.length_map] at hj
    rw [List.getElem_map] at hjkey
    obtain ⟨y, hy, hyversion⟩ := h.exists_node hperm hj
    have hyle := hnewest y hy (by rw [hyversion]; exact hjkey)
    rw [hyversion] at hyle
    exact Nat.le_of_add_le_add_left (le_of_tag_le (hyle ((tag_le_iff ops[j].type).2 hjn)))
  rw [List.getElem_map] at hlookup
  exact hlookup

end Lookup

/-- A reader at a number finds what the key has after the operations up to it. -/
theorem get [Std.TransCmp m.comparator.compare] (h : m.Holds base ops) {key : Bytes}
    (hkey : key.length + 8 < 2 ^ 32) {n : ℕ} (hn : n < 2 ^ 56) :
    m.get (LookupKey.new key (BitVec.ofNat 64 n)) =
      some ((Versions.lookup m.comparator.compare ((ops.map Operation.write).take (n + 1 - base))
        key).map getResult) := by
  obtain ⟨nodes, height, hrepresents, hperm⟩ := h.represents
  obtain ⟨hle, htoNat⟩ := le_kMaxSequenceNumber hn
  have htarget := version_memtableKey hkey hle
  rw [htoNat] at htarget
  have hsorted : nodes.Pairwise fun a b => Versions.order m.comparator.compare
      (version (m.table.key a)) (version (m.table.key b)) = .lt := by
    refine hrepresents.sorted.imp fun hlt => ?_
    rwa [keyCompare_eq] at hlt
  have hseek := hrepresents.iterates.seek (LookupKey.new key (BitVec.ofNat 64 n)).memtableKey
  simp only [keyCompare_eq, htarget] at hseek
  rw [MemTable.get, hseek, Option.map_some]
  cases hfind : nodes.find? fun x => (Versions.order m.comparator.compare
      (version (m.table.key x)) (key, n * 256 + 1)).isGE with
  | none =>
    rw [h.lookup_eq_none hperm
      (Versions.newer_of_find? hsorted fun x hx => by rw [hfind] at hx; cases hx)]
    rfl
  | some x =>
    have hx := List.mem_of_find?_eq_some hfind
    obtain ⟨i, hi, hentry, hfits, hversion⟩ :=
      h.getElem_of_mem (hperm.subset (List.mem_map_of_mem hx))
    have hget := getEntry_encodeEntry (c := m.comparator) hfits.1 hfits.2
      (BitVec.ofNat 64 (base + i)) ops[i].type (LookupKey.new key (BitVec.ofNat 64 n))
    rw [userKey_new, value_of_type] at hget
    rw [Option.bind_some, hentry, entryOf, hget]
    by_cases hsame : m.comparator.compare ops[i].key key = .eq
    · obtain ⟨-, hxle, hmax⟩ :=
        Versions.newest_of_find? hsorted hfind (by rw [hversion]; exact hsame)
      rw [hversion] at hxle hmax
      rw [if_pos hsame, h.lookup_eq_some hperm hi hsame hxle hmax]
      rfl
    · -- the node found is of another key, and those of this key are before it
      have hother := Versions.newer_of_find? hsorted fun y hy => by
        rw [hfind] at hy
        cases hy
        rw [hversion]
        exact hsame
      rw [if_neg hsame, h.lookup_eq_none hperm hother]
      rfl

end Holds

/-! ## Batches -/

theorem apply_inserter (op : Operation) (s : BitVec 64) (m : MemTable) :
    inserter.apply (s, some m) op = (s + 1, m.add s op.type op.key (op.value.getD [])) := by
  cases op <;> rfl

theorem fits_of_fitsEntry {op : Operation} (h : op.FitsEntry) : op.Fits := by
  obtain ⟨hkey, hvalue⟩ := h
  cases op with
  | put key value => exact ⟨Nat.lt_of_le_of_lt (Nat.le_add_right _ 8) hkey, hvalue⟩
  | delete key => exact Nat.lt_of_le_of_lt (Nat.le_add_right _ 8) hkey

namespace Holds

variable {m : MemTable} {base : ℕ} {ops : List Operation}

/-- Each operation is added with the next number. -/
theorem foldl_inserter [Std.TransCmp m.comparator.compare] (h : m.Holds base ops)
    {more : List Operation} (hfits : ∀ op ∈ more, op.FitsEntry)
    (hlast : base + ops.length + more.length ≤ 2 ^ 56) :
    ∃ m', more.foldl inserter.apply (BitVec.ofNat 64 (base + ops.length), some m) =
        (BitVec.ofNat 64 (base + ops.length + more.length), some m') ∧
      m'.comparator = m.comparator ∧ m'.Holds base (ops ++ more) := by
  induction more generalizing m ops with
  | nil => exact ⟨m, rfl, rfl, by rwa [List.append_nil]⟩
  | cons op more ih =>
    rw [List.forall_mem_cons] at hfits
    rw [List.length_cons] at hlast
    obtain ⟨m', hadd, hcomparator, h'⟩ := h.add hfits.1 (by omega)
    have hlength : (ops ++ [op]).length = ops.length + 1 := by
      rw [List.length_append, List.length_singleton]
    have htrans : Std.TransCmp m'.comparator.compare := hcomparator.symm ▸ inferInstance
    obtain ⟨m'', hfold, hcomparator', h''⟩ := ih h' hfits.2 (by omega)
    refine ⟨m'', ?_, hcomparator'.trans hcomparator, by rwa [List.append_assoc] at h''⟩
    rw [List.foldl_cons, apply_inserter, hadd]
    rw [hlength, ← Nat.add_assoc, BitVec.ofNat_add] at hfold
    rw [show base + ops.length + (op :: more).length = base + ops.length + 1 + more.length by
      rw [List.length_cons]; omega]
    exact hfold

/-- A batch that is numbered from the next number on is inserted. -/
theorem insertInto [Std.TransCmp m.comparator.compare] (h : m.Holds base ops) {b : WriteBatch}
    {more : List Operation} (hb : b.Holds (BitVec.ofNat 64 (base + ops.length)) more)
    (hfits : ∀ op ∈ more, op.FitsEntry) (hlast : base + ops.length + more.length ≤ 2 ^ 56) :
    ∃ m', MemTable.insertInto b m = (.ok, some m') ∧ m'.comparator = m.comparator ∧
      m'.Holds base (ops ++ more) := by
  obtain ⟨m', hfold, hcomparator, h'⟩ := h.foldl_inserter hfits hlast
  refine ⟨m', ?_, hcomparator, h'⟩
  rw [MemTable.insertInto, hb.sequence_eq,
    hb.iterate_eq inserter fun op hop => fits_of_fitsEntry (hfits op hop), hfold]

end Holds

end MemTable

end PracticeSwift.LevelDb
