import Mathlib.Algebra.Group.Nat.Defs
import Elector.Bytes

/-!
# Numbers read back from their bytes

A number that fits its width reads back from its bytes (`leValue_leBytes`), and bytes are spelled
by the number that they spell (`leBytes_leValue`). So every two, four or eight bytes are those of
one word.
-/

namespace Elector

theorem leValue_leBytes (width n : Nat) (h : n < 256 ^ width) :
    leValue (leBytes width n) = n := by
  induction width generalizing n with
  | zero => simp [leBytes, leValue] at h ⊢; omega
  | succ width ih =>
    have hrest : n / 256 < 256 ^ width := by
      rw [Nat.pow_succ] at h
      exact Nat.div_lt_of_lt_mul (by rw [Nat.mul_comm]; exact h)
    have hlow : (UInt8.ofNat (n % 256)).toNat = n % 256 := by simp
    rw [leBytes, leValue, ih _ hrest, hlow]
    omega

theorem leValue_lt (bs : Bytes) : leValue bs < 256 ^ bs.length := by
  induction bs with
  | nil => simp [leValue]
  | cons b bs ih =>
    have hb : b.toNat < 256 := b.toNat_lt
    rw [leValue, List.length_cons, Nat.pow_succ]
    omega

theorem leBytes_leValue (bs : Bytes) : leBytes bs.length (leValue bs) = bs := by
  induction bs with
  | nil => rfl
  | cons b bs ih =>
    have hb : b.toNat < 256 := b.toNat_lt
    rw [List.length_cons, leBytes, leValue]
    rw [show (b.toNat + 256 * leValue bs) % 256 = b.toNat by omega,
      show (b.toNat + 256 * leValue bs) / 256 = leValue bs by omega, ih]
    simp

@[simp] theorem word16_bytes16 (w : UInt16) : word16 (bytes16 w) = w := by
  have h := w.toNat_lt
  rw [word16, bytes16, leValue_leBytes _ _ (by omega)]
  simp

@[simp] theorem word32_bytes32 (w : Int32) : word32 (bytes32 w) = w := by
  have h := w.toUInt32.toNat_lt
  rw [word32, bytes32, leValue_leBytes _ _ (by omega)]
  simp

@[simp] theorem word64_bytes64 (w : Int64) : word64 (bytes64 w) = w := by
  have h := w.toUInt64.toNat_lt
  rw [word64, bytes64, leValue_leBytes _ _ (by omega)]
  simp

theorem bytes16_word16 {bs : Bytes} (h : bs.length = 2) : bytes16 (word16 bs) = bs := by
  have hlt := leValue_lt bs
  rw [h] at hlt
  have hvalue : (word16 bs).toNat = leValue bs := UInt16.toNat_ofNat_of_lt' hlt
  rw [bytes16, hvalue, ← h, leBytes_leValue]

theorem bytes32_word32 {bs : Bytes} (h : bs.length = 4) : bytes32 (word32 bs) = bs := by
  have hlt := leValue_lt bs
  rw [h] at hlt
  have hvalue : (word32 bs).toUInt32.toNat = leValue bs := UInt32.toNat_ofNat_of_lt' hlt
  rw [bytes32, hvalue, ← h, leBytes_leValue]

theorem bytes64_word64 {bs : Bytes} (h : bs.length = 8) : bytes64 (word64 bs) = bs := by
  have hlt := leValue_lt bs
  rw [h] at hlt
  have hvalue : (word64 bs).toUInt64.toNat = leValue bs := UInt64.toNat_ofNat_of_lt' hlt
  rw [bytes64, hvalue, ← h, leBytes_leValue]

end Elector
