/-!
# Bytes

Fixed-width integers as little-endian bytes. Byte strings are lists, because lists are what the
recursions of this library take apart.
-/

namespace Elector

abbrev Bytes := List UInt8

/-- The low `width` bytes of `n`, least significant first. -/
def leBytes : Nat → Nat → Bytes
  | 0, _ => []
  | width + 1, n => UInt8.ofNat (n % 256) :: leBytes width (n / 256)

/-- The number that a little-endian byte string spells. -/
def leValue : Bytes → Nat
  | [] => 0
  | b :: bs => b.toNat + 256 * leValue bs

@[simp] theorem length_leBytes (width n : Nat) : (leBytes width n).length = width := by
  induction width generalizing n with
  | zero => rfl
  | succ width ih => simp [leBytes, ih]

/-! ## Words -/

def bytes16 (w : UInt16) : Bytes := leBytes 2 w.toNat

def word16 (bs : Bytes) : UInt16 := UInt16.ofNat (leValue bs)

def bytes32 (w : Int32) : Bytes := leBytes 4 w.toUInt32.toNat

def word32 (bs : Bytes) : Int32 := (UInt32.ofNat (leValue bs)).toInt32

def bytes64 (w : Int64) : Bytes := leBytes 8 w.toUInt64.toNat

def word64 (bs : Bytes) : Int64 := (UInt64.ofNat (leValue bs)).toInt64

@[simp] theorem length_bytes16 (w : UInt16) : (bytes16 w).length = 2 := length_leBytes ..

@[simp] theorem length_bytes32 (w : Int32) : (bytes32 w).length = 4 := length_leBytes ..

@[simp] theorem length_bytes64 (w : Int64) : (bytes64 w).length = 8 := length_leBytes ..

/-- The `width` bytes that start at `offset`. -/
def Bytes.slice (bs : Bytes) (offset width : Nat) : Bytes := (bs.drop offset).take width

end Elector
