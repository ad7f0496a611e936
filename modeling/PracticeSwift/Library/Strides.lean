import Mathlib.Algebra.Ring.Nat
import Mathlib.Logic.Function.Iterate

/-!
# Registers that are read in strides

A checksum is a register that a linear map moves on after each word was added to it.  As the map is
linear the words may be spread over several lanes, which are moved on independently of one another
and combined at the end.
-/

namespace Strides

variable {w : ℕ}

def Linear (f : BitVec w → BitVec w) : Prop := ∀ a b, f (a ^^^ b) = f a ^^^ f b

namespace Linear

variable {f : BitVec w → BitVec w}

theorem zero (h : Linear f) : f 0#w = 0#w := by
  have hzero := h 0#w 0#w
  rwa [BitVec.xor_self, BitVec.xor_self] at hzero

theorem iterate (h : Linear f) (n : ℕ) : Linear f^[n] := by
  intro a b
  induction n with
  | zero => rfl
  | succ n ih => rw [Function.iterate_succ_apply', Function.iterate_succ_apply',
      Function.iterate_succ_apply', ih, h]

/-- A linear map that only takes zero to zero tells any two values apart. -/
theorem injective (h : Linear f) (hker : ∀ a, f a = 0#w → a = 0#w) : Function.Injective f := by
  intro a b hab
  have hxor := hker (a ^^^ b) (by rw [h, hab, BitVec.xor_self])
  exact BitVec.xor_eq_zero_iff.1 hxor

end Linear

/-! ## Tables -/

/-- A table of the values at the first `2 ^ k` numbers, which are sums of the powers of two. -/
def span (f : BitVec w → BitVec w) : ℕ → List (BitVec w)
  | 0 => [0#w]
  | k + 1 => span f k ++ (span f k).map (f (BitVec.twoPow w k) ^^^ ·)

theorem ofNat_two_pow_add {k i : ℕ} (h : i < 2 ^ k) :
    BitVec.ofNat w (2 ^ k + i) = BitVec.twoPow w k ^^^ BitVec.ofNat w i := by
  apply BitVec.eq_of_getLsbD_eq
  intro j hj
  simp only [BitVec.getLsbD_xor, BitVec.getLsbD_ofNat, BitVec.getLsbD_twoPow, decide_eq_true hj,
    Bool.true_and]
  rcases Nat.lt_trichotomy j k with hlt | rfl | hgt
  · rw [Nat.testBit_two_pow_add_gt hlt, decide_eq_false (Nat.ne_of_gt hlt), Bool.and_false,
      Bool.false_xor]
  · rw [Nat.testBit_two_pow_add_eq, decide_eq_true hj, decide_eq_true rfl]
    exact (Bool.true_xor _).symm
  · have hpow : 2 ^ (k + 1) ≤ 2 ^ j := Nat.pow_le_pow_right (by decide) hgt
    rw [Nat.pow_succ] at hpow
    rw [Nat.testBit_lt_two_pow (by omega), Nat.testBit_lt_two_pow (by omega),
      decide_eq_false (Nat.ne_of_lt hgt), Bool.and_false]
    rfl

/-- The table is one of all values that fit its length. -/
theorem Linear.span_eq {f : BitVec w → BitVec w} (h : Linear f) {k : ℕ} (hk : k ≤ w) :
    span f k = (List.range (2 ^ k)).map fun i => f (BitVec.ofNat w i) := by
  induction k with
  | zero => exact congrArg (fun a => [a]) h.zero.symm
  | succ k ih =>
    have hdouble : 2 ^ (k + 1) = 2 ^ k + 2 ^ k := by rw [Nat.pow_succ, Nat.mul_two]
    rw [span, ih (by omega), hdouble, List.range_add, List.map_append, List.map_map, List.map_map]
    congr 1
    refine List.map_congr_left fun i hi => ?_
    have hi' : i < 2 ^ k := List.mem_range.1 hi
    rw [Function.comp_apply, Function.comp_apply, ofNat_two_pow_add hi', h]

/-! ## Lanes -/

/-- The register after some words. -/
def feed (f : BitVec w → BitVec w) (register : BitVec w) (words : List (BitVec w)) : BitVec w :=
  words.foldl (fun register word => f (register ^^^ word)) register

@[simp] theorem feed_nil (f : BitVec w → BitVec w) (register : BitVec w) :
    feed f register [] = register := rfl

@[simp] theorem feed_cons (f : BitVec w → BitVec w) (register word : BitVec w)
    (words : List (BitVec w)) :
    feed f register (word :: words) = feed f (f (register ^^^ word)) words := rfl

theorem feed_append (f : BitVec w → BitVec w) (register : BitVec w) (words more : List (BitVec w)) :
    feed f register (words ++ more) = feed f (feed f register words) more := List.foldl_append

/-- A register that is moved on by an injective map never forgets. -/
theorem feed_injective {f : BitVec w → BitVec w} (h : Function.Injective f)
    (words : List (BitVec w)) : Function.Injective fun register => feed f register words := by
  induction words with
  | nil => exact Function.injective_id
  | cons word words ih =>
    intro a b hab
    exact (BitVec.xor_left_inj word).1 (h (ih hab))

/-- The lanes after another word: the first lane has been combined with the others the longest ago,
and takes the word. -/
def push (f : BitVec w → BitVec w) (lane : BitVec w) (lanes : List (BitVec w)) (word : BitVec w) :
    List (BitVec w) :=
  lanes ++ [word ^^^ f^[lanes.length + 1] lane]

variable {f : BitVec w → BitVec w}

theorem feed_eq (h : Linear f) (register : BitVec w) (words : List (BitVec w)) :
    feed f register words = f^[words.length] register ^^^ feed f 0#w words := by
  induction words generalizing register with
  | nil => exact (BitVec.xor_zero).symm
  | cons word words ih =>
    rw [feed_cons, feed_cons, ih, ih (f (0#w ^^^ word)), BitVec.zero_xor, h, (h.iterate _),
      List.length_cons, Function.iterate_succ_apply, BitVec.xor_assoc]

/-- The lanes are combined as one register that has read the word. -/
theorem feed_push (h : Linear f) (lane : BitVec w) (lanes : List (BitVec w)) (word : BitVec w) :
    feed f 0#w (push f lane lanes word) = f (feed f 0#w (lane :: lanes) ^^^ word) := by
  have hlane : feed f 0#w (lane :: lanes) = f^[lanes.length + 1] lane ^^^ feed f 0#w lanes := by
    rw [feed_cons, feed_eq h, BitVec.zero_xor, Function.iterate_succ_apply]
  rw [push, feed_append, feed_cons, feed_nil, hlane]
  congr 1
  rw [BitVec.xor_comm word, ← BitVec.xor_assoc, BitVec.xor_comm (feed f 0#w lanes)]

end Strides
