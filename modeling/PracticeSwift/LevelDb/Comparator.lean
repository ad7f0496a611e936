import Mathlib.Data.List.GetD
import PracticeSwift.LevelDb.WriteBatch

/-!
# Comparators

A comparator orders the keys, and shortens a key that only has to separate others.  `Lawful` is what
a comparator promises; the bytewise comparator keeps it, and the comparator of internal keys keeps
it if the comparator of the user keys does.
-/

namespace PracticeSwift.LevelDb

structure Comparator where
  compare : Bytes → Bytes → Ordering
  findShortestSeparator : Bytes → Bytes → Bytes
  findShortSuccessor : Bytes → Bytes

namespace Comparator

/-- The promises of a comparator, about keys of some form. -/
structure Lawful (c : Comparator) (Key : Bytes → Prop) : Prop where
  transCmp : Std.TransCmp c.compare
  /-- The order is total: only equal keys compare equal. -/
  eq_of_compare : ∀ {a b}, Key a → Key b → c.compare a b = .eq → a = b
  /-- The separator is in `[start, limit)`. -/
  separator : ∀ {start limit}, Key start → Key limit → c.compare start limit = .lt →
    (c.compare start (c.findShortestSeparator start limit)).isLE ∧
      c.compare (c.findShortestSeparator start limit) limit = .lt
  separator_eq : ∀ {start limit}, Key start → Key limit → c.compare start limit ≠ .lt →
    c.findShortestSeparator start limit = start
  separator_key : ∀ {start limit}, Key start → Key limit →
    Key (c.findShortestSeparator start limit) ∧
      (c.findShortestSeparator start limit).length ≤ start.length
  successor : ∀ {key}, Key key → (c.compare key (c.findShortSuccessor key)).isLE
  successor_key : ∀ {key}, Key key →
    Key (c.findShortSuccessor key) ∧ (c.findShortSuccessor key).length ≤ key.length

end Comparator

/-! ## The bytewise comparator -/

namespace BytewiseComparator

/-- `memcmp` of so many bytes. -/
def memcmp : ℕ → Bytes → Bytes → Ordering
  | n + 1, a :: as, b :: bs => (compare a b).then (memcmp n as bs)
  | _, _, _ => .eq

/-- `Slice::compare` -/
def compare (a b : Bytes) : Ordering :=
  let minLen := if a.length < b.length then a.length else b.length
  let r := memcmp minLen a b
  if r = .eq then
    if a.length < b.length then .lt else if b.length < a.length then .gt else r
  else r

/-- The loop that finds the length of the common prefix. -/
def diffIndex (start limit : Bytes) (minLength i : ℕ) : ℕ :=
  if i < minLength ∧ byteAt start i = byteAt limit i then diffIndex start limit minLength (i + 1)
  else i
termination_by minLength - i

def findShortestSeparator (start limit : Bytes) : Bytes :=
  let minLength := min start.length limit.length
  let i := diffIndex start limit minLength 0
  if minLength ≤ i then start
  else
    let diffByte := byteAt start i
    if diffByte.toNat < 0xff ∧ diffByte.toNat + 1 < (byteAt limit i).toNat then
      (start.set i (diffByte + 1)).take (i + 1)
    else start

/-- The first byte that can be incremented is, and the bytes after it are left out. -/
def findShortSuccessor (key : Bytes) : Bytes :=
  match key.findIdx? fun byte => byte ≠ 0xff with
  | some i => (key.set i (byteAt key i + 1)).take (i + 1)
  | none => key

/-- Slices are compared byte by byte, and a prefix comes first. -/
theorem compare_eq (a b : Bytes) : compare a b = List.compareLex Ord.compare a b := by
  induction a generalizing b with
  | nil =>
    cases b with
    | nil => rfl
    | cons b bs => rfl
  | cons a as ih =>
    cases b with
    | nil => rfl
    | cons b bs =>
      rw [List.compareLex_cons_cons, ← ih bs]
      have hlt : (a :: as).length < (b :: bs).length ↔ as.length < bs.length := Nat.succ_lt_succ_iff
      have hgt : (b :: bs).length < (a :: as).length ↔ bs.length < as.length := Nat.succ_lt_succ_iff
      have hmin : (if (a :: as).length < (b :: bs).length then (a :: as).length
          else (b :: bs).length) = (if as.length < bs.length then as.length else bs.length) + 1 := by
        simp only [hlt]
        split_ifs <;> rfl
      unfold compare
      dsimp only
      rw [hmin, memcmp]
      simp only [hlt, hgt]
      cases Ord.compare a b <;> rfl

instance : Std.TransCmp compare where
  eq_swap := by
    intro a b
    rw [compare_eq, compare_eq]
    exact Std.OrientedCmp.eq_swap
  isLE_trans := by
    intro a b c hab hbc
    rw [compare_eq] at hab hbc ⊢
    exact Std.TransCmp.isLE_trans hab hbc

/-- At the first byte where they differ the slices are compared. -/
theorem compare_append {u a b : Bytes} {x y : Byte} (h : Ord.compare x y = .lt) :
    compare (u ++ x :: a) (u ++ y :: b) = .lt := by
  rw [compare_eq]
  induction u with
  | nil =>
    rw [List.nil_append, List.nil_append, List.compareLex_cons_cons, h]
    rfl
  | cons z u ih =>
    have hself : Ord.compare z z = .eq := Std.ReflCmp.compare_self
    rw [List.cons_append, List.cons_append, List.compareLex_cons_cons, hself]
    exact ih

theorem compare_of_lt {x y : Byte} (h : x < y) : Ord.compare x y = .lt :=
  compareOfLessAndEq_eq_lt.2 h

theorem lt_succ {x : Byte} (h : x.toNat < 255) : x < x + 1 := by
  rw [BitVec.lt_def, BitVec.toNat_add, show (1 : Byte).toNat = 1 from rfl]
  omega

/-- What the loop has passed is the same in both, and it has stopped where they differ. -/
theorem diffIndex_spec (start limit : Bytes) (minLength i : ℕ) (hi : i ≤ minLength) :
    i ≤ diffIndex start limit minLength i ∧ diffIndex start limit minLength i ≤ minLength ∧
      (∀ j, i ≤ j → j < diffIndex start limit minLength i → byteAt start j = byteAt limit j) ∧
      (diffIndex start limit minLength i < minLength →
        byteAt start (diffIndex start limit minLength i) ≠
          byteAt limit (diffIndex start limit minLength i)) := by
  induction i using diffIndex.induct start limit minLength with
  | case1 i hsame ih =>
    obtain ⟨hle, hlast, hpassed, hdiffer⟩ := ih hsame.1
    rw [diffIndex, if_pos hsame]
    refine ⟨by omega, hlast, fun j hj hlt => ?_, hdiffer⟩
    rcases Nat.eq_or_lt_of_le hj with rfl | hj
    · exact hsame.2
    · exact hpassed j hj hlt
  | case2 i hstop =>
    rw [diffIndex, if_neg hstop]
    exact ⟨Nat.le_refl i, hi, fun j hj hlt => by omega, fun hlt heq => hstop ⟨hlt, heq⟩⟩

/-- Two slices at the first byte where they differ. -/
structure Differ (start limit : Bytes) (i : ℕ) : Prop where
  start_eq : start = start.take i ++ byteAt start i :: start.drop (i + 1)
  limit_eq : limit = start.take i ++ byteAt limit i :: limit.drop (i + 1)
  lt : i < start.length

theorem split_at {bytes : Bytes} {i : ℕ} (h : i < bytes.length) :
    bytes = bytes.take i ++ byteAt bytes i :: bytes.drop (i + 1) := by
  have hbyte : byteAt bytes i = bytes[i] := by rw [byteAt, List.getD_eq_getElem _ _ h]
  rw [hbyte, List.getElem_cons_drop, List.take_append_drop]

theorem differ {start limit : Bytes}
    (h : diffIndex start limit (min start.length limit.length) 0 < min start.length limit.length) :
    Differ start limit (diffIndex start limit (min start.length limit.length) 0) := by
  obtain ⟨-, -, hpassed, -⟩ :=
    diffIndex_spec start limit (min start.length limit.length) 0 (Nat.zero_le _)
  generalize diffIndex start limit (min start.length limit.length) 0 = i at h hpassed ⊢
  have hsame : start.take i = limit.take i := by
    apply List.ext_getElem
    · rw [List.length_take, List.length_take]
      omega
    · intro j hj _
      rw [List.length_take] at hj
      have hbyte := hpassed j (Nat.zero_le j) (by omega)
      rw [byteAt, byteAt, List.getD_eq_getElem _ _ (by omega), List.getD_eq_getElem _ _ (by omega)]
        at hbyte
      rw [List.getElem_take, List.getElem_take, hbyte]
  refine ⟨split_at (by omega), ?_, by omega⟩
  rw [hsame]
  exact split_at (by omega)

/-- What is left when a byte is incremented and those after it are left out. -/
theorem take_set {bytes : Bytes} {i : ℕ} (h : i < bytes.length) (x : Byte) :
    (bytes.set i x).take (i + 1) = bytes.take i ++ [x] := by
  rw [List.take_succ_eq_append_getElem (by rw [List.length_set]; exact h), List.getElem_set_self,
    List.take_set_of_le (Nat.le_refl i)]

/-- The separator is the start, or shorter than the limit allows and between the two. -/
theorem findShortestSeparator_cases (start limit : Bytes) :
    findShortestSeparator start limit = start ∨
      compare start limit = .lt ∧ compare start (findShortestSeparator start limit) = .lt ∧
        compare (findShortestSeparator start limit) limit = .lt ∧
        (findShortestSeparator start limit).length ≤ start.length := by
  unfold findShortestSeparator
  dsimp only
  split_ifs with hend hbyte
  · exact .inl rfl
  · right
    have h := differ (Nat.lt_of_not_le hend)
    generalize diffIndex start limit (min start.length limit.length) 0 = i at h hbyte ⊢
    have hsucc := lt_succ (x := byteAt start i) (by omega)
    have hnext : byteAt start i + 1 < byteAt limit i := by
      rw [BitVec.lt_def, BitVec.toNat_add, show (1 : Byte).toNat = 1 from rfl]
      omega
    have hlt := h.lt
    rw [take_set h.lt]
    refine ⟨?_, ?_, ?_, ?_⟩
    · conv_lhs => rw [h.start_eq, h.limit_eq]
      apply compare_append
      exact compare_of_lt (BitVec.lt_trans hsucc hnext)
    · conv_lhs =>
        arg 1
        rw [h.start_eq]
      exact compare_append (compare_of_lt hsucc)
    · conv_lhs =>
        arg 2
        rw [h.limit_eq]
      exact compare_append (compare_of_lt hnext)
    · rw [List.length_append, List.length_take, List.length_singleton]
      omega
  · exact .inl rfl

theorem findShortSuccessor_cases (key : Bytes) :
    findShortSuccessor key = key ∨ compare key (findShortSuccessor key) = .lt ∧
      (findShortSuccessor key).length ≤ key.length := by
  unfold findShortSuccessor
  split
  · next i hfind =>
    right
    obtain ⟨hlt, hbyte, -⟩ := List.findIdx?_eq_some_iff_getElem.1 hfind
    have hne : byteAt key i ≠ 0xff := by
      rw [byteAt, List.getD_eq_getElem _ _ hlt]
      exact of_decide_eq_true hbyte
    have hmax : (byteAt key i).toNat ≠ 255 := fun h => hne (BitVec.eq_of_toNat_eq h)
    have hbound := (byteAt key i).isLt
    rw [take_set hlt]
    refine ⟨?_, ?_⟩
    · conv_lhs =>
        arg 1
        rw [split_at hlt]
      exact compare_append (compare_of_lt (lt_succ (by omega)))
    · rw [List.length_append, List.length_take, List.length_singleton]
      omega
  · exact .inl rfl

end BytewiseComparator

/-- `BytewiseComparator()` -/
def bytewiseComparator : Comparator where
  compare := BytewiseComparator.compare
  findShortestSeparator := BytewiseComparator.findShortestSeparator
  findShortSuccessor := BytewiseComparator.findShortSuccessor

namespace BytewiseComparator

theorem compare_self (a : Bytes) : compare a a = .eq := Std.ReflCmp.compare_self

theorem eq_of_compare {a b : Bytes} (h : compare a b = .eq) : a = b := by
  rw [compare_eq] at h
  exact Std.LawfulEqCmp.eq_of_compare h

theorem lawful : bytewiseComparator.Lawful fun _ => True where
  transCmp := inferInstanceAs (Std.TransCmp compare)
  eq_of_compare _ _ := eq_of_compare
  separator {start limit} _ _ hlt := by
    rcases findShortestSeparator_cases start limit with heq | ⟨-, hstart, hlimit, -⟩
    · show (compare start (findShortestSeparator start limit)).isLE ∧ _
      refine ⟨by rw [heq, compare_self]; rfl, ?_⟩
      show compare (findShortestSeparator start limit) limit = .lt
      rwa [heq]
    · refine ⟨?_, hlimit⟩
      show (compare start (findShortestSeparator start limit)).isLE
      rw [hstart]
      rfl
  separator_eq {start limit} _ _ hge := by
    rcases findShortestSeparator_cases start limit with heq | ⟨hlt, -, -, -⟩
    · exact heq
    · exact absurd hlt hge
  separator_key {start limit} _ _ := by
    refine ⟨trivial, ?_⟩
    rcases findShortestSeparator_cases start limit with heq | ⟨-, -, -, hlength⟩
    · exact Nat.le_of_eq (congrArg List.length heq)
    · exact hlength
  successor {key} _ := by
    show (compare key (findShortSuccessor key)).isLE
    rcases findShortSuccessor_cases key with heq | ⟨hlt, -⟩
    · rw [heq, compare_self]
      rfl
    · rw [hlt]
      rfl
  successor_key {key} _ := by
    refine ⟨trivial, ?_⟩
    rcases findShortSuccessor_cases key with heq | ⟨-, hlength⟩
    · exact Nat.le_of_eq (congrArg List.length heq)
    · exact hlength

end BytewiseComparator

end PracticeSwift.LevelDb
