import Mathlib.Algebra.Ring.Nat
import Mathlib.Data.List.Basic

/-!
# Numbers in base 128

A number is written as its digits in base 128, the least significant first, with 128 added to every
digit but the last, so that a reader knows where it ends.  `decode` reads one number and leaves what
follows; it adds a digit at the shift that the digits before it have reached.
-/

namespace Base128

/-- The bytes of a number. -/
def encode (n : ℕ) : List ℕ :=
  if n < 128 then [n] else (n % 128 + 128) :: encode (n / 128)

theorem encode_of_lt {n : ℕ} (h : n < 128) : encode n = [n] := by
  rw [encode, if_pos h]

theorem encode_of_le {n : ℕ} (h : 128 ≤ n) : encode n = (n % 128 + 128) :: encode (n / 128) := by
  rw [encode, if_neg (by omega)]

/-- What is known of a number when the first `shift` bits have been read as `result`. -/
def decode (shift result : ℕ) : List ℕ → Option (ℕ × List ℕ)
  | [] => none
  | byte :: bytes =>
    if byte < 128 then some (result + byte * 2 ^ shift, bytes)
    else decode (shift + 7) (result + (byte - 128) * 2 ^ shift) bytes

/-- What has been read is not taken back, and reading takes a byte at least. -/
theorem of_decode {shift result n : ℕ} {bytes rest : List ℕ}
    (h : decode shift result bytes = some (n, rest)) :
    result ≤ n ∧ rest.length < bytes.length := by
  induction bytes generalizing shift result with
  | nil => cases h
  | cons byte bytes ih =>
    rw [decode] at h
    rw [List.length_cons]
    split_ifs at h
    · obtain ⟨rfl, rfl⟩ := Prod.mk.inj (Option.some.inj h)
      exact ⟨Nat.le_add_right _ _, Nat.lt_succ_self _⟩
    · obtain ⟨hle, hlt⟩ := ih h
      exact ⟨Nat.le_trans (Nat.le_add_right _ _) hle, Nat.lt_succ_of_lt hlt⟩

/-- A number is read back, and what follows is left. -/
theorem decode_encode (n shift result : ℕ) (rest : List ℕ) :
    decode shift result (encode n ++ rest) = some (result + n * 2 ^ shift, rest) := by
  induction n using Nat.strongRecOn generalizing shift result with
  | ind n ih =>
    by_cases h : n < 128
    · rw [encode_of_lt h, List.singleton_append, decode, if_pos h]
    · rw [encode_of_le (by omega), List.cons_append, decode, if_neg (by omega),
        ih (n / 128) (by omega)]
      have hdigits := Nat.div_add_mod n 128
      have hpow : 2 ^ (shift + 7) = 128 * 2 ^ shift := by rw [Nat.pow_add]; omega
      rw [hpow, Nat.add_sub_cancel, Nat.add_assoc, ← Nat.mul_assoc, ← Nat.add_mul,
        show n % 128 + n / 128 * 128 = n by omega]

/-- Seven bits make a byte. -/
theorem length_encode_le {n k : ℕ} (hn : n < 2 ^ (7 * (k + 1))) : (encode n).length ≤ k + 1 := by
  induction k generalizing n with
  | zero => simp [encode_of_lt hn]
  | succ k ih =>
    by_cases h : n < 128
    · rw [encode_of_lt h]; simp
    · rw [encode_of_le (by omega), List.length_cons, Nat.add_le_add_iff_right]
      apply ih
      rw [Nat.div_lt_iff_lt_mul (by decide)]
      rwa [show 7 * (k + 1 + 1) = 7 * (k + 1) + 7 by omega, Nat.pow_add] at hn

theorem lt_of_mem_encode {n byte : ℕ} (h : byte ∈ encode n) : byte < 256 := by
  induction n using Nat.strongRecOn with
  | ind n ih =>
    by_cases hn : n < 128
    · rw [encode_of_lt hn, List.mem_singleton] at h
      omega
    · rw [encode_of_le (by omega), List.mem_cons] at h
      rcases h with rfl | h
      · omega
      · exact ih (n / 128) (by omega) h

end Base128
