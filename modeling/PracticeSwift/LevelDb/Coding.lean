import PracticeSwift.Library.Base128

/-!
# Coding

The encodings of `util/coding.cc` that the log and the write batches are made of: numbers of fixed
length, the least significant byte first, numbers of variable length in base 128, and slices after
their length.  A `Get` returns the value and what is left of its input; none of them reads beyond
it, and each reads back what its `Put` has appended.
-/

namespace PracticeSwift.LevelDb

abbrev Byte := BitVec 8

/-- The bytes of a `Slice`, of a `std::string` or of a file. -/
abbrev Bytes := List Byte

/-! ## Fixed length -/

def encodeFixed32 (value : BitVec 32) : Bytes :=
  [value.setWidth 8, (value >>> 8).setWidth 8, (value >>> 16).setWidth 8, (value >>> 24).setWidth 8]

def encodeFixed64 (value : BitVec 64) : Bytes :=
  [value.setWidth 8, (value >>> 8).setWidth 8, (value >>> 16).setWidth 8, (value >>> 24).setWidth 8,
    (value >>> 32).setWidth 8, (value >>> 40).setWidth 8, (value >>> 48).setWidth 8,
    (value >>> 56).setWidth 8]

/-- The byte at `ptr[i]`; the callers have checked that there is one. -/
def byteAt (ptr : Bytes) (i : ℕ) : Byte := ptr.getD i 0

def decodeFixed32 (ptr : Bytes) : BitVec 32 :=
  (byteAt ptr 0).setWidth 32 ||| (byteAt ptr 1).setWidth 32 <<< 8 |||
    (byteAt ptr 2).setWidth 32 <<< 16 ||| (byteAt ptr 3).setWidth 32 <<< 24

def decodeFixed64 (ptr : Bytes) : BitVec 64 :=
  let lo := (decodeFixed32 ptr).setWidth 64
  let hi := (decodeFixed32 (ptr.drop 4)).setWidth 64
  hi <<< 32 ||| lo

@[simp] theorem length_encodeFixed32 (value : BitVec 32) : (encodeFixed32 value).length = 4 := rfl

@[simp] theorem length_encodeFixed64 (value : BitVec 64) : (encodeFixed64 value).length = 8 := rfl

@[simp] theorem decodeFixed32_encode (value : BitVec 32) (rest : Bytes) :
    decodeFixed32 (encodeFixed32 value ++ rest) = value := by
  simp only [decodeFixed32, encodeFixed32, byteAt, List.cons_append, List.getD_cons_zero,
    List.getD_cons_succ]
  ext i hi
  simp only [BitVec.getElem_or, BitVec.getElem_setWidth, BitVec.getElem_shiftLeft,
    BitVec.getLsbD_setWidth, BitVec.getLsbD_ushiftRight]
  grind

/-- A number of eight bytes is two of four. -/
theorem encodeFixed64_eq (value : BitVec 64) : encodeFixed64 value =
    encodeFixed32 (value.setWidth 32) ++ encodeFixed32 ((value >>> 32).setWidth 32) := by
  simp only [encodeFixed64, encodeFixed32, List.cons_append, List.nil_append, List.cons.injEq,
    and_true]
  refine ⟨?_, ?_, ?_, ?_, ?_, ?_, ?_, ?_⟩ <;> ext i hi <;>
    simp only [BitVec.getElem_setWidth, BitVec.getLsbD_setWidth, BitVec.getLsbD_ushiftRight] <;> grind

@[simp] theorem decodeFixed64_encode (value : BitVec 64) (rest : Bytes) :
    decodeFixed64 (encodeFixed64 value ++ rest) = value := by
  have hdrop : (encodeFixed64 value ++ rest).drop 4 =
      encodeFixed32 ((value >>> 32).setWidth 32) ++ rest := by
    rw [encodeFixed64_eq, List.append_assoc]
    rfl
  rw [decodeFixed64, hdrop, encodeFixed64_eq, List.append_assoc, decodeFixed32_encode,
    decodeFixed32_encode]
  ext i hi
  simp only [BitVec.getElem_or, BitVec.getElem_setWidth, BitVec.getElem_shiftLeft,
    BitVec.getLsbD_setWidth, BitVec.getLsbD_ushiftRight]
  grind

theorem encodeFixed32_decode (a b c d : Byte) :
    encodeFixed32 (decodeFixed32 [a, b, c, d]) = [a, b, c, d] := by
  simp only [decodeFixed32, encodeFixed32, byteAt, List.getD_cons_zero, List.getD_cons_succ,
    List.cons.injEq, and_true]
  refine ⟨?_, ?_, ?_, ?_⟩ <;> ext i hi <;>
    simp only [BitVec.getElem_setWidth, BitVec.getLsbD_setWidth, BitVec.getLsbD_ushiftRight,
      BitVec.getLsbD_or, BitVec.getLsbD_shiftLeft] <;> grind

/-- Eight bytes are what their number is written as. -/
theorem encodeFixed64_decode {bytes : Bytes} (h : bytes.length = 8) :
    encodeFixed64 (decodeFixed64 bytes) = bytes := by
  match bytes, h with
  | [a, b, c, d, a', b', c', d'], _ =>
    have hlow : ∀ lo hi : BitVec 32,
        (hi.setWidth 64 <<< 32 ||| lo.setWidth 64).setWidth 32 = lo ∧
          ((hi.setWidth 64 <<< 32 ||| lo.setWidth 64) >>> 32).setWidth 32 = hi := by
      intro lo hi
      constructor <;> ext i hi <;>
        simp only [BitVec.getElem_setWidth, BitVec.getLsbD_setWidth, BitVec.getLsbD_ushiftRight,
          BitVec.getLsbD_or, BitVec.getLsbD_shiftLeft] <;> grind
    have hbytes := congrArg₂ (· ++ ·) (encodeFixed32_decode a b c d)
      (encodeFixed32_decode a' b' c' d')
    rw [decodeFixed64, encodeFixed64_eq, (hlow _ _).1, (hlow _ _).2]
    exact hbytes

/-! ## Variable length -/

/-- `EncodeVarint32`, one branch for each length. -/
def encodeVarint32 (v : BitVec 32) : Bytes :=
  if v.toNat < 2 ^ 7 then [v.setWidth 8]
  else if v.toNat < 2 ^ 14 then [(v ||| 128).setWidth 8, (v >>> 7).setWidth 8]
  else if v.toNat < 2 ^ 21 then
    [(v ||| 128).setWidth 8, (v >>> 7 ||| 128).setWidth 8, (v >>> 14).setWidth 8]
  else if v.toNat < 2 ^ 28 then
    [(v ||| 128).setWidth 8, (v >>> 7 ||| 128).setWidth 8, (v >>> 14 ||| 128).setWidth 8,
      (v >>> 21).setWidth 8]
  else
    [(v ||| 128).setWidth 8, (v >>> 7 ||| 128).setWidth 8, (v >>> 14 ||| 128).setWidth 8,
      (v >>> 21 ||| 128).setWidth 8, (v >>> 28).setWidth 8]

/-- `EncodeVarint64`, a loop. -/
def encodeVarint64 (v : BitVec 64) : Bytes :=
  if 128 ≤ v.toNat then (v ||| 128).setWidth 8 :: encodeVarint64 (v >>> 7) else [v.setWidth 8]
termination_by v.toNat
decreasing_by
  rw [BitVec.toNat_ushiftRight, Nat.shiftRight_eq_div_pow]
  omega

def varintLength (v : BitVec 64) : ℕ :=
  if 128 ≤ v.toNat then varintLength (v >>> 7) + 1 else 1
termination_by v.toNat
decreasing_by
  rw [BitVec.toNat_ushiftRight, Nat.shiftRight_eq_div_pow]
  omega

/-- The loop of `GetVarint32PtrFallback` and of `GetVarint64Ptr`, from a shift on. -/
def getVarint {w : ℕ} (maxShift shift : ℕ) (result : BitVec w) : Bytes → Option (BitVec w × Bytes)
  | [] => none
  | byte :: p =>
    if shift ≤ maxShift then
      if byte &&& 128 ≠ 0 then
        getVarint maxShift (shift + 7) (result ||| (byte &&& 127).setWidth w <<< shift) p
      else some (result ||| byte.setWidth w <<< shift, p)
    else none

def getVarint32PtrFallback (p : Bytes) : Option (BitVec 32 × Bytes) := getVarint 28 0 0 p

/-- `GetVarint32Ptr`, which is also `GetVarint32` of the slice. -/
def getVarint32 (p : Bytes) : Option (BitVec 32 × Bytes) :=
  match p with
  | [] => getVarint32PtrFallback p
  | byte :: rest =>
    if byte &&& 128 = 0 then some (byte.setWidth 32, rest) else getVarint32PtrFallback p

/-- `GetVarint64Ptr`, which is also `GetVarint64` of the slice. -/
def getVarint64 (p : Bytes) : Option (BitVec 64 × Bytes) := getVarint 63 0 0 p

/-! ## Slices -/

def putVarint32 (dst : Bytes) (v : BitVec 32) : Bytes := dst ++ encodeVarint32 v

/-- `PutLengthPrefixedSlice`, which passes the length as an `uint32_t`. -/
def putLengthPrefixedSlice (dst value : Bytes) : Bytes :=
  putVarint32 dst (BitVec.ofNat 32 value.length) ++ value

def getLengthPrefixedSlice (input : Bytes) : Option (Bytes × Bytes) := do
  let (len, input) ← getVarint32 input
  if len.toNat ≤ input.length then some (input.take len.toNat, input.drop len.toNat) else none

/-! ## What is encoded -/

/-- The bytes of a number in base 128. -/
def base128 (n : ℕ) : Bytes := (Base128.encode n).map (BitVec.ofNat 8)

theorem setWidth_or {w : ℕ} (v : BitVec w) (hw : 8 ≤ w) :
    (v ||| 128).setWidth 8 = BitVec.ofNat 8 (v.toNat % 128 + 128) := by
  have hor : ∀ b : BitVec 8, b ||| 128 = BitVec.ofNat 8 (b.toNat % 128 + 128) := by decide
  have hbyte : (128 : BitVec w).setWidth 8 = 128 := by
    apply BitVec.eq_of_toNat_eq
    have hlt : 128 < 2 ^ w :=
      Nat.lt_of_lt_of_le (by decide) (Nat.pow_le_pow_right (by decide) hw)
    rw [BitVec.toNat_setWidth]
    simp only [BitVec.ofNat_eq_ofNat, BitVec.toNat_ofNat]
    rw [Nat.mod_eq_of_lt hlt]
  rw [BitVec.setWidth_or, hbyte, hor, BitVec.toNat_setWidth]
  congr 2
  omega

theorem toNat_shift {w : ℕ} (v : BitVec w) : (v >>> 7).toNat = v.toNat / 128 := by
  rw [BitVec.toNat_ushiftRight, Nat.shiftRight_eq_div_pow]

theorem base128_of_lt {w : ℕ} {v : BitVec w} (h : v.toNat < 128) :
    base128 v.toNat = [v.setWidth 8] := by
  rw [base128, Base128.encode_of_lt h, List.map_singleton, BitVec.ofNat_toNat]

theorem base128_of_le {w : ℕ} {v : BitVec w} (hw : 8 ≤ w) (h : 128 ≤ v.toNat) :
    base128 v.toNat = (v ||| 128).setWidth 8 :: base128 (v >>> 7).toNat := by
  rw [base128, Base128.encode_of_le h, setWidth_or v hw, toNat_shift]
  rfl

/-- The loop writes the number in base 128. -/
theorem encodeVarint64_eq (v : BitVec 64) : encodeVarint64 v = base128 v.toNat := by
  induction h : v.toNat using Nat.strongRecOn generalizing v with
  | ind n ih =>
    subst h
    unfold encodeVarint64
    split_ifs with hv
    · have hshift := toNat_shift v
      rw [base128_of_le (by decide) hv, ih _ (by omega) (v >>> 7) rfl]
    · rw [base128_of_lt (by omega)]

theorem length_encodeVarint64 (v : BitVec 64) : (encodeVarint64 v).length = varintLength v := by
  induction h : v.toNat using Nat.strongRecOn generalizing v with
  | ind n ih =>
    subst h
    unfold encodeVarint64 varintLength
    split_ifs with hv
    · have hshift := toNat_shift v
      rw [List.length_cons, ih _ (by omega) (v >>> 7) rfl]
    · rfl

/-- The branches write what the loop would. -/
theorem encodeVarint32_eq (v : BitVec 32) : encodeVarint32 v = base128 v.toNat := by
  have hlt := v.isLt
  have htwo : v >>> 7 >>> 7 = v >>> 14 := (BitVec.shiftRight_add v 7 7).symm
  have hthree : v >>> 14 >>> 7 = v >>> 21 := (BitVec.shiftRight_add v 14 7).symm
  have hfour : v >>> 21 >>> 7 = v >>> 28 := (BitVec.shiftRight_add v 21 7).symm
  have h₁ := toNat_shift v
  have h₂ := toNat_shift (v >>> 7)
  have h₃ := toNat_shift (v >>> 14)
  have h₄ := toNat_shift (v >>> 21)
  rw [htwo] at h₂
  rw [hthree] at h₃
  rw [hfour] at h₄
  unfold encodeVarint32
  split_ifs
  · rw [base128_of_lt (by omega)]
  · rw [base128_of_le (by decide) (by omega), base128_of_lt (by omega)]
  · rw [base128_of_le (by decide) (by omega), base128_of_le (by decide) (by omega), htwo,
      base128_of_lt (by omega)]
  · rw [base128_of_le (by decide) (by omega), base128_of_le (by decide) (by omega), htwo,
      base128_of_le (by decide) (by omega), hthree, base128_of_lt (by omega)]
  · rw [base128_of_le (by decide) (by omega), base128_of_le (by decide) (by omega), htwo,
      base128_of_le (by decide) (by omega), hthree, base128_of_le (by decide) (by omega), hfour,
      base128_of_lt (by omega)]

/-! ## What is decoded -/

/-- A digit added at the shift that the result has reached. -/
theorem toNat_or_shift {w : ℕ} {result : BitVec w} {shift : ℕ} (hresult : result.toNat < 2 ^ shift)
    (digit : Byte) (hdigit : digit.toNat * 2 ^ shift < 2 ^ w) :
    (result ||| digit.setWidth w <<< shift).toNat = result.toNat + digit.toNat * 2 ^ shift := by
  have hpos := Nat.two_pow_pos shift
  have hlt : digit.toNat < 2 ^ w := Nat.lt_of_le_of_lt (Nat.le_mul_of_pos_right _ hpos) hdigit
  rw [BitVec.toNat_or, BitVec.toNat_shiftLeft, BitVec.toNat_setWidth, Nat.mod_eq_of_lt hlt,
    Nat.shiftLeft_eq, Nat.mod_eq_of_lt hdigit, Nat.or_comm, ← Nat.shiftLeft_eq,
    ← Nat.shiftLeft_add_eq_or_of_lt hresult, Nat.shiftLeft_eq, Nat.add_comm]

theorem and_ne_zero_iff : ∀ byte : Byte, byte &&& 128 ≠ 0 ↔ 128 ≤ byte.toNat := by decide

theorem toNat_and (byte : Byte) : (byte &&& 127).toNat = byte.toNat % 128 := by
  rw [BitVec.toNat_and]
  exact Nat.and_two_pow_sub_one_eq_mod byte.toNat 7

/-- The loop reads what the bytes are in base 128, if it fits. -/
theorem getVarint_of_decode {w shift n : ℕ} (maxShift : ℕ) {result : BitVec w} {p : Bytes}
    {rest : List ℕ}
    (h : Base128.decode shift result.toNat (p.map BitVec.toNat) = some (n, rest))
    (hresult : result.toNat < 2 ^ shift) (hfits : n < 2 ^ w)
    (hshift : shift + 7 * p.length ≤ maxShift + 7 + 7 * rest.length) :
    ∃ p', getVarint maxShift shift result p = some (BitVec.ofNat w n, p') ∧
      p'.map BitVec.toNat = rest := by
  induction p generalizing shift result with
  | nil => cases h
  | cons byte p ih =>
    obtain ⟨hle, hlt⟩ := Base128.of_decode h
    rw [List.length_map] at hlt
    rw [List.map_cons, Base128.decode] at h
    rw [getVarint, if_pos (by omega)]
    by_cases hbyte : byte.toNat < 128
    · rw [if_pos hbyte] at h
      obtain ⟨rfl, rfl⟩ := Prod.mk.inj (Option.some.inj h)
      refine ⟨p, ?_, rfl⟩
      rw [if_neg (by rw [and_ne_zero_iff]; omega),
        ← toNat_or_shift hresult byte (by omega), BitVec.ofNat_toNat, BitVec.setWidth_eq]
    · have hdigit : (byte &&& 127).toNat = byte.toNat - 128 := by
        have hlt := byte.isLt
        rw [toNat_and]
        omega
      have hpow : 2 ^ (shift + 7) = 128 * 2 ^ shift := by
        rw [Nat.pow_add]
        omega
      rw [if_neg hbyte] at h
      have hle' := (Base128.of_decode h).1
      have hdigits : (byte.toNat - 128) * 2 ^ shift ≤ 127 * 2 ^ shift :=
        Nat.mul_le_mul_right _ (by have hlt := byte.isLt; omega)
      have hvalue := toNat_or_shift hresult (byte &&& 127) (by rw [hdigit]; omega)
      rw [hdigit] at hvalue
      rw [← hvalue] at h
      rw [if_pos (by rw [and_ne_zero_iff]; omega)]
      rw [List.length_cons] at hshift
      exact ih h (by omega) (by omega)

theorem map_toNat_base128 (n : ℕ) : (base128 n).map BitVec.toNat = Base128.encode n := by
  rw [base128, List.map_map]
  conv_rhs => rw [← List.map_id (Base128.encode n)]
  refine List.map_congr_left fun byte hbyte => ?_
  rw [Function.comp_apply, BitVec.toNat_ofNat, Nat.mod_eq_of_lt (Base128.lt_of_mem_encode hbyte), id]

/-- A number that fits is read back by the loop. -/
theorem getVarint_base128 {w : ℕ} (maxShift n shift : ℕ) (result : BitVec w) (rest : Bytes)
    (hresult : result.toNat < 2 ^ shift) (hfits : result.toNat + n * 2 ^ shift < 2 ^ w)
    (hshift : shift + 7 * (Base128.encode n).length ≤ maxShift + 7) :
    getVarint maxShift shift result (base128 n ++ rest) =
      some (BitVec.ofNat w (result.toNat + n * 2 ^ shift), rest) := by
  have hbytes : (base128 n ++ rest).map BitVec.toNat =
      Base128.encode n ++ rest.map BitVec.toNat := by
    rw [List.map_append, map_toNat_base128]
  have hlength : (base128 n ++ rest).length = (Base128.encode n).length + rest.length := by
    rw [List.length_append, base128, List.length_map]
  have hdecode := Base128.decode_encode n shift result.toNat (rest.map BitVec.toNat)
  rw [← hbytes] at hdecode
  obtain ⟨p', hp', hrest⟩ := getVarint_of_decode maxShift hdecode hresult hfits
    (by rw [hlength, List.length_map]; omega)
  have hinjective : Function.Injective (BitVec.toNat : Byte → ℕ) := fun _ _ => BitVec.eq_of_toNat_eq
  rw [hp', hinjective.list_map hrest]

/-- A number of the width of the result is read back, and what follows it is left. -/
theorem getVarint_toNat {w maxShift k : ℕ} (v : BitVec w) (rest : Bytes) (hw : w ≤ 7 * (k + 1))
    (hshift : 7 * k ≤ maxShift) :
    getVarint maxShift 0 (0 : BitVec w) (base128 v.toNat ++ rest) = some (v, rest) := by
  have hlt := v.isLt
  have hpow : 2 ^ w ≤ 2 ^ (7 * (k + 1)) := Nat.pow_le_pow_right (by decide) hw
  have hlength := Base128.length_encode_le (n := v.toNat) (k := k) (by omega)
  rw [getVarint_base128 maxShift v.toNat 0 0 rest (by simp) (by simpa using hlt) (by omega)]
  simp

/-- The fast path for a single byte agrees with the loop. -/
theorem getVarint32_eq (p : Bytes) : getVarint32 p = getVarint32PtrFallback p := by
  cases p with
  | nil => rfl
  | cons byte rest =>
    unfold getVarint32 getVarint32PtrFallback
    dsimp only
    split_ifs with hbyte
    · rw [getVarint, if_pos (Nat.zero_le _), if_neg (not_not_intro hbyte)]
      simp
    · rfl

@[simp] theorem getVarint32_encode (v : BitVec 32) (rest : Bytes) :
    getVarint32 (encodeVarint32 v ++ rest) = some (v, rest) := by
  rw [getVarint32_eq, encodeVarint32_eq]
  exact getVarint_toNat (k := 4) v rest (by decide) (by decide)

@[simp] theorem getVarint64_encode (v : BitVec 64) (rest : Bytes) :
    getVarint64 (encodeVarint64 v ++ rest) = some (v, rest) := by
  rw [encodeVarint64_eq]
  exact getVarint_toNat (k := 9) v rest (by decide) (by decide)

/-- A number that is read takes at least a byte. -/
theorem length_getVarint {w maxShift shift : ℕ} {result v : BitVec w} {p rest : Bytes}
    (h : getVarint maxShift shift result p = some (v, rest)) : rest.length < p.length := by
  induction p generalizing shift result with
  | nil => cases h
  | cons byte p ih =>
    rw [getVarint] at h
    rw [List.length_cons]
    split_ifs at h
    · have hrest := ih h
      omega
    · cases h
      omega

/-- A number that is cut off is not read. -/
theorem getVarint_take {w : ℕ} (maxShift n shift : ℕ) (result : BitVec w) {k : ℕ}
    (hk : k < (base128 n).length) : getVarint maxShift shift result ((base128 n).take k) = none := by
  induction k generalizing n shift result with
  | zero => rfl
  | succ k ih =>
    have hlong : 128 ≤ n := by
      by_contra hn
      rw [base128, Base128.encode_of_lt (by omega), List.map_singleton, List.length_singleton] at hk
      omega
    have hbyte : (BitVec.ofNat 8 (n % 128 + 128)).toNat = n % 128 + 128 := by
      rw [BitVec.toNat_ofNat, Nat.mod_eq_of_lt (by omega)]
    rw [base128, Base128.encode_of_le hlong, List.map_cons] at hk ⊢
    rw [List.take_succ_cons, getVarint, if_pos (c := _ ≠ _) (by rw [and_ne_zero_iff]; omega)]
    split_ifs
    · exact ih (n / 128) (shift + 7) _ (Nat.lt_of_succ_lt_succ hk)
    · rfl

/-- A length that fits its 32 bits. -/
theorem toNat_length {value : Bytes} (h : value.length < 2 ^ 32) :
    (BitVec.ofNat 32 value.length).toNat = value.length := by
  rw [BitVec.toNat_ofNat, Nat.mod_eq_of_lt h]

theorem getLengthPrefixedSlice_put {value : Bytes} (h : value.length < 2 ^ 32) (rest : Bytes) :
    getLengthPrefixedSlice (putLengthPrefixedSlice [] value ++ rest) = some (value, rest) := by
  simp only [getLengthPrefixedSlice, putLengthPrefixedSlice, putVarint32, List.nil_append,
    List.append_assoc, getVarint32_encode, Option.bind_eq_bind, Option.bind_some, toNat_length h]
  rw [if_pos (by simp), List.take_left, List.drop_left]

theorem length_getLengthPrefixedSlice {input slice rest : Bytes}
    (h : getLengthPrefixedSlice input = some (slice, rest)) : rest.length < input.length := by
  rw [getLengthPrefixedSlice, getVarint32_eq, Option.bind_eq_bind, Option.bind_eq_some_iff] at h
  obtain ⟨⟨len, left⟩, hlen, hslice⟩ := h
  have hleft := length_getVarint hlen
  dsimp only at hslice
  split_ifs at hslice
  cases hslice
  rw [List.length_drop]
  omega

/-- A slice that is cut off is not read, whether its length is there or not. -/
theorem getLengthPrefixedSlice_take {value : Bytes} (h : value.length < 2 ^ 32) {k : ℕ}
    (hk : k < (putLengthPrefixedSlice [] value).length) :
    getLengthPrefixedSlice ((putLengthPrefixedSlice [] value).take k) = none := by
  rw [putLengthPrefixedSlice, putVarint32, List.nil_append, List.length_append] at hk
  rw [putLengthPrefixedSlice, putVarint32, List.nil_append, List.take_append]
  by_cases hlen : k < (encodeVarint32 (BitVec.ofNat 32 value.length)).length
  · rw [show k - (encodeVarint32 (BitVec.ofNat 32 value.length)).length = 0 by omega, List.take_zero,
      List.append_nil, getLengthPrefixedSlice, getVarint32_eq]
    rw [encodeVarint32_eq] at hlen ⊢
    rw [getVarint32PtrFallback, getVarint_take 28 _ 0 0 hlen]
    rfl
  · rw [List.take_of_length_le (by omega), getLengthPrefixedSlice, getVarint32_encode,
      Option.bind_eq_bind, Option.bind_some]
    dsimp only
    rw [toNat_length h, List.length_take, if_neg (by omega)]

/-- A longer slice is written after the rest of its length modulo `2 ^ 32`, and read back shorter. -/
theorem getLengthPrefixedSlice_put_ne {value : Bytes} (h : 2 ^ 32 ≤ value.length) (rest : Bytes) :
    getLengthPrefixedSlice (putLengthPrefixedSlice [] value ++ rest) ≠ some (value, rest) := by
  simp only [getLengthPrefixedSlice, putLengthPrefixedSlice, putVarint32, List.nil_append,
    List.append_assoc, getVarint32_encode, Option.bind_eq_bind, Option.bind_some]
  intro hread
  split_ifs at hread
  have hvalue := congrArg (fun r => r.1.length) (Option.some.inj hread)
  have hlt := (BitVec.ofNat 32 value.length).isLt
  simp only [List.length_take] at hvalue
  omega

/-- Both encoders of numbers write the number in base 128, however they go about it, in as many bytes
as `VarintLength` says; whatever follows, the decoders read the number back and leave the rest.  A
slice comes back exactly when its length fits 32 bits. -/
theorem varints_read_back (rest : Bytes) :
    (∀ v : BitVec 32, encodeVarint32 v = encodeVarint64 (v.setWidth 64) ∧
      getVarint32 (encodeVarint32 v ++ rest) = some (v, rest)) ∧
    (∀ v : BitVec 64, (encodeVarint64 v).length = varintLength v ∧
      getVarint64 (encodeVarint64 v ++ rest) = some (v, rest)) ∧
    ∀ value : Bytes, getLengthPrefixedSlice (putLengthPrefixedSlice [] value ++ rest) =
      some (value, rest) ↔ value.length < 2 ^ 32 := by
  refine ⟨fun v => ⟨?_, getVarint32_encode v rest⟩,
    fun v => ⟨length_encodeVarint64 v, getVarint64_encode v rest⟩, fun value => ⟨?_, ?_⟩⟩
  · have hlt := v.isLt
    rw [encodeVarint32_eq, encodeVarint64_eq, BitVec.toNat_setWidth, Nat.mod_eq_of_lt (by omega)]
  · intro hread
    by_contra hlength
    exact getLengthPrefixedSlice_put_ne (Nat.le_of_not_lt hlength) rest hread
  · exact fun hlength => getLengthPrefixedSlice_put hlength rest

end PracticeSwift.LevelDb
