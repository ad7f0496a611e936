import PracticeSwift.LevelDb.Comparator

/-!
# Internal keys

An internal key is a user key followed by the sequence number and the type of its value, packed into
64 bits.  Internal keys are in the order of their user keys, and those of one user key the newest
first.
-/

namespace PracticeSwift.LevelDb

/-- Eight bits are left empty, where the type is packed. -/
def kMaxSequenceNumber : BitVec 64 := (1#64 <<< 56) - 1

/-- The highest-numbered type, since internal keys are in decreasing order of what is packed. -/
def kValueTypeForSeek : ValueType := .kTypeValue

structure ParsedInternalKey where
  userKey : Bytes
  sequence : BitVec 64
  type : ValueType
  deriving DecidableEq

def packSequenceAndType (seq : BitVec 64) (t : ValueType) : BitVec 64 :=
  seq <<< 8 ||| t.byte.setWidth 64

def appendInternalKey (result : Bytes) (key : ParsedInternalKey) : Bytes :=
  result ++ key.userKey ++ encodeFixed64 (packSequenceAndType key.sequence key.type)

def extractUserKey (internalKey : Bytes) : Bytes := internalKey.take (internalKey.length - 8)

/-- The last eight bytes, which hold the sequence number and the type. -/
def extractTag (internalKey : Bytes) : BitVec 64 :=
  decodeFixed64 (internalKey.drop (internalKey.length - 8))

/-- The type that a tag holds, unless it is unknown. -/
def ValueType.ofTag (tag : BitVec 64) : Option ValueType :=
  if tag.setWidth 8 = kTypeDeletion.byte then some .kTypeDeletion
  else if tag.setWidth 8 = kTypeValue.byte then some .kTypeValue
  else none

def parseInternalKey (internalKey : Bytes) : Option ParsedInternalKey :=
  if internalKey.length < 8 then none
  else
    let num := extractTag internalKey
    (ValueType.ofTag num).map fun type => ⟨extractUserKey internalKey, num >>> 8, type⟩

/-! ## Packing -/

theorem extractUserKey_append (userKey : Bytes) (tag : BitVec 64) :
    extractUserKey (userKey ++ encodeFixed64 tag) = userKey := by
  rw [extractUserKey, List.length_append, length_encodeFixed64, Nat.add_sub_cancel,
    List.take_left' rfl]

theorem extractTag_append (userKey : Bytes) (tag : BitVec 64) :
    extractTag (userKey ++ encodeFixed64 tag) = tag := by
  have htag := decodeFixed64_encode tag []
  rw [List.append_nil] at htag
  rw [extractTag, List.length_append, length_encodeFixed64, Nat.add_sub_cancel, List.drop_left' rfl,
    htag]

theorem toNat_packSequenceAndType {seq : BitVec 64} (h : seq ≤ kMaxSequenceNumber) (t : ValueType) :
    (packSequenceAndType seq t).toNat = seq.toNat * 256 + t.byte.toNat := by
  have hseq : seq.toNat < 2 ^ 56 := Nat.lt_succ_of_le h
  have hbyte := t.byte.isLt
  have hshift : (seq <<< 8).toNat = seq.toNat <<< 8 := by
    rw [BitVec.toNat_shiftLeft, Nat.mod_eq_of_lt]
    rw [Nat.shiftLeft_eq]
    omega
  rw [packSequenceAndType, BitVec.toNat_or, hshift, BitVec.toNat_setWidth,
    Nat.mod_eq_of_lt (by omega : t.byte.toNat < 2 ^ 64), ← Nat.shiftLeft_add_eq_or_of_lt hbyte,
    Nat.shiftLeft_eq]

theorem ofTag_packSequenceAndType (seq : BitVec 64) (t : ValueType) :
    ValueType.ofTag (packSequenceAndType seq t) = some t := by
  have hbyte : (packSequenceAndType seq t).setWidth 8 = t.byte := by
    ext i hi
    rw [packSequenceAndType, BitVec.setWidth_or, BitVec.getElem_or, BitVec.getElem_setWidth,
      BitVec.getLsbD_shiftLeft, BitVec.getElem_setWidth, BitVec.getLsbD_setWidth]
    simp [hi, Nat.lt_of_lt_of_le hi (by decide : 8 ≤ 64)]
  rw [ValueType.ofTag, hbyte]
  cases t <;> rfl

theorem packSequenceAndType_shift {seq : BitVec 64} (h : seq ≤ kMaxSequenceNumber) (t : ValueType) :
    packSequenceAndType seq t >>> 8 = seq := by
  have hbyte := t.byte.isLt
  apply BitVec.eq_of_toNat_eq
  rw [BitVec.toNat_ushiftRight, toNat_packSequenceAndType h, Nat.shiftRight_eq_div_pow]
  omega

/-- A key is parsed back, unless its sequence number takes the bits of the type. -/
theorem parseInternalKey_append {key : ParsedInternalKey} (h : key.sequence ≤ kMaxSequenceNumber) :
    parseInternalKey (appendInternalKey [] key) = some key := by
  rw [appendInternalKey, List.nil_append, parseInternalKey, List.length_append,
    length_encodeFixed64, if_neg (by omega)]
  dsimp only
  rw [extractTag_append, extractUserKey_append, ofTag_packSequenceAndType, Option.map_some,
    packSequenceAndType_shift h]

/-! ## The comparator -/

namespace InternalKeyComparator

variable (c : Comparator)

def compare (akey bkey : Bytes) : Ordering :=
  let r := c.compare (extractUserKey akey) (extractUserKey bkey)
  if r = .eq then
    let anum := extractTag akey
    let bnum := extractTag bkey
    if bnum < anum then .lt else if anum < bnum then .gt else r
  else r

/-- The user key has become shorter physically, but larger logically. -/
def Shortened (userKey tmp : Bytes) : Prop :=
  tmp.length < userKey.length ∧ c.compare userKey tmp = .lt

instance (userKey tmp : Bytes) : Decidable (Shortened c userKey tmp) :=
  inferInstanceAs (Decidable (_ ∧ _))

/-- The earliest possible number is tacked on to a shortened user key. -/
def tackOn (tmp : Bytes) : Bytes :=
  tmp ++ encodeFixed64 (packSequenceAndType kMaxSequenceNumber kValueTypeForSeek)

def findShortestSeparator (start limit : Bytes) : Bytes :=
  let userStart := extractUserKey start
  let userLimit := extractUserKey limit
  let tmp := c.findShortestSeparator userStart userLimit
  if Shortened c userStart tmp then tackOn tmp else start

def findShortSuccessor (key : Bytes) : Bytes :=
  let userKey := extractUserKey key
  let tmp := c.findShortSuccessor userKey
  if Shortened c userKey tmp then tackOn tmp else key

variable {c}

theorem compare_eq (akey bkey : Bytes) : compare c akey bkey =
    (c.compare (extractUserKey akey) (extractUserKey bkey)).then
      (Ord.compare (extractTag bkey) (extractTag akey)) := by
  have htag : ∀ a b : BitVec 64, Ord.compare b a =
      if b < a then .lt else if a < b then .gt else .eq := by
    intro a b
    have hcompare : Ord.compare b a = compareOfLessAndEq b a := rfl
    rw [hcompare, compareOfLessAndEq]
    split_ifs with hlt heq hgt hgt <;> first | rfl | (exfalso; bv_omega)
  rw [compare]
  dsimp only
  split_ifs with heq hlt hgt
  · rw [heq, htag, if_pos hlt]
    rfl
  · rw [heq, htag, if_neg hlt, if_pos hgt]
    rfl
  · rw [heq, htag, if_neg hlt, if_neg hgt]
    rfl
  · cases h : c.compare (extractUserKey akey) (extractUserKey bkey)
    · rfl
    · exact absurd h heq
    · rfl

/-- The last eight bytes are what the tag is written as. -/
theorem encode_extractTag {key : Bytes} (h : 8 ≤ key.length) :
    encodeFixed64 (extractTag key) = key.drop (key.length - 8) := by
  apply encodeFixed64_decode
  rw [List.length_drop]
  omega

/-- Internal keys that compare equal have the same user key and the same tag. -/
theorem eq_of_compare {akey bkey : Bytes} (ha : 8 ≤ akey.length) (hb : 8 ≤ bkey.length)
    (huser : ∀ {a b}, c.compare a b = .eq → a = b) (h : compare c akey bkey = .eq) :
    akey = bkey := by
  rw [compare_eq, Ordering.then_eq_eq] at h
  have hkey : extractUserKey akey = extractUserKey bkey := huser h.1
  have htag : extractTag akey = extractTag bkey := (Std.LawfulEqCmp.eq_of_compare h.2).symm
  calc akey = extractUserKey akey ++ encodeFixed64 (extractTag akey) := by
        rw [encode_extractTag ha, extractUserKey, List.take_append_drop]
    _ = extractUserKey bkey ++ encodeFixed64 (extractTag bkey) := by rw [hkey, htag]
    _ = bkey := by rw [encode_extractTag hb, extractUserKey, List.take_append_drop]

theorem compare_of_lt {akey bkey : Bytes}
    (h : c.compare (extractUserKey akey) (extractUserKey bkey) = .lt) : compare c akey bkey = .lt := by
  rw [compare_eq, h]
  rfl

instance transCmp [Std.TransCmp c.compare] : Std.TransCmp (compare c) where
  eq_swap := by
    intro a b
    rw [compare_eq, compare_eq, Ordering.swap_then, ← Std.OrientedCmp.eq_swap,
      ← Std.OrientedCmp.eq_swap]
  isLE_trans := by
    intro a b d hab hbd
    rw [compare_eq, Ordering.isLE_then_iff_and] at hab hbd ⊢
    refine ⟨Std.TransCmp.isLE_trans hab.1 hbd.1, ?_⟩
    rcases hab.2 with hlt | hle
    · exact .inl (Std.TransCmp.lt_of_lt_of_isLE hlt hbd.1)
    · rcases hbd.2 with hlt | hle'
      · exact .inl (Std.TransCmp.lt_of_isLE_of_lt hab.1 hlt)
      · exact .inr (Std.TransCmp.isLE_trans hle' hle)

theorem compare_toNat {w : ℕ} (a b : BitVec w) :
    Ord.compare a b = Ord.compare a.toNat b.toNat := by
  have hleft : Ord.compare a b = compareOfLessAndEq a b := rfl
  have hright : Ord.compare a.toNat b.toNat = compareOfLessAndEq a.toNat b.toNat := rfl
  rw [hleft, hright, compareOfLessAndEq, compareOfLessAndEq]
  simp only [BitVec.lt_def, ← BitVec.toNat_inj]

/-- Two keys of one user key are in decreasing order of their sequence numbers. -/
theorem compare_internalKey {a b : ParsedInternalKey} (ha : a.sequence ≤ kMaxSequenceNumber)
    (hb : b.sequence ≤ kMaxSequenceNumber) :
    compare c (appendInternalKey [] a) (appendInternalKey [] b) =
      (c.compare a.userKey b.userKey).then (Ord.compare
        (b.sequence.toNat * 256 + b.type.byte.toNat) (a.sequence.toNat * 256 + a.type.byte.toNat)) := by
  rw [compare_eq, appendInternalKey, appendInternalKey, List.nil_append, List.nil_append,
    extractUserKey_append, extractUserKey_append, extractTag_append, extractTag_append, compare_toNat,
    toNat_packSequenceAndType ha, toNat_packSequenceAndType hb]

end InternalKeyComparator

/-- `InternalKeyComparator`, over the comparator of the user keys. -/
def internalKeyComparator (c : Comparator) : Comparator where
  compare := InternalKeyComparator.compare c
  findShortestSeparator := InternalKeyComparator.findShortestSeparator c
  findShortSuccessor := InternalKeyComparator.findShortSuccessor c

/-- What `ExtractUserKey` asserts of its argument. -/
def IsInternalKey (key : Bytes) : Prop := 8 ≤ key.length

namespace InternalKeyComparator

variable {c : Comparator}

theorem isInternalKey_tackOn (tmp : Bytes) : IsInternalKey (tackOn tmp) := by
  rw [IsInternalKey, tackOn, List.length_append, length_encodeFixed64]
  exact Nat.le_add_left 8 _

/-- A key with a shortened user key is no longer. -/
theorem length_tackOn {key tmp : Bytes} (hkey : IsInternalKey key)
    (h : Shortened c (extractUserKey key) tmp) : (tackOn tmp).length ≤ key.length := by
  have hlength := h.1
  rw [extractUserKey, List.length_take] at hlength
  rw [IsInternalKey] at hkey
  rw [tackOn, List.length_append, length_encodeFixed64]
  omega

theorem compare_tackOn {key tmp : Bytes} (h : Shortened c (extractUserKey key) tmp) :
    compare c key (tackOn tmp) = .lt := by
  apply compare_of_lt
  rw [tackOn, extractUserKey_append]
  exact h.2

/-- A separator has the user key of a separator of the user keys, or it is the start. -/
theorem findShortestSeparator_cases (h : c.Lawful fun _ => True) {start : Bytes} (limit : Bytes)
    (hstart : IsInternalKey start) :
    findShortestSeparator c start limit = start ∨
      compare c start (findShortestSeparator c start limit) = .lt ∧
        compare c (findShortestSeparator c start limit) limit = .lt ∧ compare c start limit = .lt ∧
        IsInternalKey (findShortestSeparator c start limit) ∧
        (findShortestSeparator c start limit).length ≤ start.length := by
  rw [findShortestSeparator]
  split_ifs with hshort
  · right
    have hlt : c.compare (extractUserKey start) (extractUserKey limit) = .lt := by
      -- of user keys in another order the first is not changed
      by_contra hge
      have hlength := hshort.1
      rw [h.separator_eq trivial trivial hge] at hlength
      exact Nat.lt_irrefl _ hlength
    refine ⟨compare_tackOn hshort, ?_, compare_of_lt hlt, isInternalKey_tackOn _,
      length_tackOn hstart hshort⟩
    apply compare_of_lt
    rw [tackOn, extractUserKey_append]
    exact (h.separator trivial trivial hlt).2
  · exact .inl rfl

theorem findShortSuccessor_cases {key : Bytes} (hkey : IsInternalKey key) :
    findShortSuccessor c key = key ∨ compare c key (findShortSuccessor c key) = .lt ∧
      IsInternalKey (findShortSuccessor c key) ∧ (findShortSuccessor c key).length ≤ key.length := by
  rw [findShortSuccessor]
  split_ifs with hshort
  · exact .inr ⟨compare_tackOn hshort, isInternalKey_tackOn _, length_tackOn hkey hshort⟩
  · exact .inl rfl

theorem lawful (h : c.Lawful fun _ => True) : (internalKeyComparator c).Lawful IsInternalKey := by
  have hcompare := h.transCmp
  have hself : ∀ key, compare c key key = .eq := fun key => Std.ReflCmp.compare_self
  refine ⟨inferInstanceAs (Std.TransCmp (compare c)), ?_, ?_, ?_, ?_, ?_, ?_⟩
  · intro a b ha hb
    exact eq_of_compare ha hb (h.eq_of_compare trivial trivial)
  · intro start limit hstart _ hlt
    show (compare c start (findShortestSeparator c start limit)).isLE ∧
      compare c (findShortestSeparator c start limit) limit = .lt
    rcases findShortestSeparator_cases h limit hstart with heq | ⟨hbefore, hafter, -, -, -⟩
    · rw [heq, hself]
      exact ⟨rfl, hlt⟩
    · rw [hbefore]
      exact ⟨rfl, hafter⟩
  · intro start limit hstart _ hge
    rcases findShortestSeparator_cases h limit hstart with heq | ⟨-, -, hlt, -, -⟩
    · exact heq
    · exact absurd hlt hge
  · intro start limit hstart _
    show IsInternalKey (findShortestSeparator c start limit) ∧
      (findShortestSeparator c start limit).length ≤ start.length
    rcases findShortestSeparator_cases h limit hstart with heq | ⟨-, -, -, hkey, hlength⟩
    · rw [heq]
      exact ⟨hstart, Nat.le_refl _⟩
    · exact ⟨hkey, hlength⟩
  · intro key hkey
    show (compare c key (findShortSuccessor c key)).isLE
    rcases findShortSuccessor_cases hkey with heq | ⟨hlt, -, -⟩
    · rw [heq, hself]
      rfl
    · rw [hlt]
      rfl
  · intro key hkey
    show IsInternalKey (findShortSuccessor c key) ∧
      (findShortSuccessor c key).length ≤ key.length
    rcases findShortSuccessor_cases hkey with heq | ⟨-, hkey', hlength⟩
    · rw [heq]
      exact ⟨hkey, Nat.le_refl _⟩
    · exact ⟨hkey', hlength⟩

end InternalKeyComparator

/-- The bytewise comparator keeps its promises, and over any comparator of user keys that does the
comparator of internal keys does as well: it never shortens a key past the limit, although it gives
the shortened user key another sequence number, and what it changes it makes larger. -/
theorem comparators_lawful : bytewiseComparator.Lawful (fun _ => True) ∧
    ∀ c : Comparator, c.Lawful (fun _ => True) → (internalKeyComparator c).Lawful IsInternalKey ∧
      (∀ start limit, IsInternalKey start →
        let separator := (internalKeyComparator c).findShortestSeparator start limit
        separator = start ∨ (internalKeyComparator c).compare start separator = .lt ∧
          (internalKeyComparator c).compare separator limit = .lt) ∧
      ∀ key, IsInternalKey key →
        let successor := (internalKeyComparator c).findShortSuccessor key
        successor = key ∨ (internalKeyComparator c).compare key successor = .lt := by
  refine ⟨BytewiseComparator.lawful, fun c h => ⟨InternalKeyComparator.lawful h, ?_, ?_⟩⟩
  · intro start limit hstart
    rcases InternalKeyComparator.findShortestSeparator_cases h limit hstart with heq | hbetween
    · exact .inl heq
    · exact .inr ⟨hbetween.1, hbetween.2.1⟩
  · intro key hkey
    rcases InternalKeyComparator.findShortSuccessor_cases hkey with heq | hlt
    · exact .inl heq
    · exact .inr hlt.1

end PracticeSwift.LevelDb
