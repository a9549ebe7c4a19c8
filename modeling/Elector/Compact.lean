import Elector.Bytes

/-!
# Compact numbers

The number format of the durable files. A number up to 250 is one byte; a larger one is a tag byte
that says how many bytes follow, least significant first. Signed numbers are folded onto the
unsigned ones, small magnitudes first. A reader returns what it read and the bytes behind it.
-/

namespace Elector

/-- The number types that the durable files hold. -/
inductive NumberType
  | int32
  | int64
  | int128
  | uint32
  | uint64
  | uint128
  | reserved
deriving DecidableEq, Repr

def NumberType.name : NumberType → String
  | int32 => "I32"
  | int64 => "I64"
  | int128 => "I128"
  | uint32 => "U32"
  | uint64 => "U64"
  | uint128 => "U128"
  | reserved => "Reserved"

/-- Why bytes do not spell the value that was asked for. -/
inductive CompactError
  | unexpectedEnd (missing : Nat)
  | wrongType (expected found : NumberType)
deriving DecidableEq, Repr

def CompactError.message : CompactError → String
  | unexpectedEnd missing => s!"UnexpectedEnd \x7b additional: {missing} \x7d"
  | wrongType expected found =>
    s!"InvalidIntegerType \x7b expected: {expected.name}, found: {found.name} \x7d"

namespace Compact

/-- Takes a value off the front of a byte string. -/
abbrev Reader (α : Type) := Bytes → Except CompactError (α × Bytes)

def take (n : Nat) : Reader Bytes := fun bs =>
  if n ≤ bs.length then .ok (bs.take n, bs.drop n) else .error (.unexpectedEnd (n - bs.length))

def fixed (n : Nat) : Reader Nat := fun bs =>
  match take n bs with
  | .error e => .error e
  | .ok (front, rest) => .ok (leValue front, rest)

/-- `n` in its shortest form. -/
def encodeNat (n : Nat) : Bytes :=
  if n ≤ 250 then [UInt8.ofNat n]
  else if n < 0x10000 then 251 :: leBytes 2 n
  else if n < 0x100000000 then 252 :: leBytes 4 n
  else 253 :: leBytes 8 n

/-- Reads a count; a longer form than needed is accepted. A wrong tag is held against the wide type
only where fewer bytes are left than its longest form takes. -/
def count : Reader Nat
  | [] => .error (.unexpectedEnd 1)
  | tag :: rest =>
    if tag ≤ 250 then .ok (tag.toNat, rest)
    else if tag = 251 then fixed 2 rest
    else if tag = 252 then fixed 4 rest
    else if tag = 253 then fixed 8 rest
    else .error (.wrongType (if rest.length < 8 then .uint64 else .uint32)
      (if tag = 254 then .uint128 else .reserved))

/-- Folds the integers onto the naturals: 0, -1, 1, -2, 2, … become 0, 1, 2, 3, 4, … -/
def fold (i : Int) : Nat := if 0 ≤ i then (2 * i).toNat else (-2 * i - 1).toNat

def unfold (n : Nat) : Int := if n % 2 = 0 then n / 2 else -(n / 2) - 1

theorem unfold_fold (i : Int) : unfold (fold i) = i := by
  rw [unfold, fold]
  split <;> split <;> omega

def encodeWord (w : Int32) : Bytes := encodeNat (fold w.toInt)

/-- Reads a signed word; a form of more than four bytes does not fit one. -/
def word : Reader Int32
  | [] => .error (.unexpectedEnd 1)
  | tag :: rest =>
    if tag ≤ 250 then .ok (Int32.ofInt (unfold tag.toNat), rest)
    else if tag = 251 then ofFold (fixed 2 rest)
    else if tag = 252 then ofFold (fixed 4 rest)
    else .error (.wrongType .int32
      (if tag = 253 then .int64 else if tag = 254 then .int128 else .reserved))
where
  ofFold : Except CompactError (Nat × Bytes) → Except CompactError (Int32 × Bytes)
    | .error e => .error e
    | .ok (n, rest) => .ok (Int32.ofInt (unfold n), rest)

def encodeBytes (bs : Bytes) : Bytes := encodeNat bs.length ++ bs

def bytes : Reader Bytes := fun bs =>
  match count bs with
  | .error e => .error e
  | .ok (n, rest) => take n rest

/-- `n` items, one behind the other. -/
def items {α : Type} (item : Reader α) : Nat → Reader (List α)
  | 0, bs => .ok ([], bs)
  | n + 1, bs =>
    match item bs with
    | .error e => .error e
    | .ok (x, rest) =>
      match items item n rest with
      | .error e => .error e
      | .ok (xs, rest) => .ok (x :: xs, rest)

def encodeList {α : Type} (encode : α → Bytes) (xs : List α) : Bytes :=
  encodeNat xs.length ++ xs.flatMap encode

def list {α : Type} (item : Reader α) : Reader (List α) := fun bs =>
  match count bs with
  | .error e => .error e
  | .ok (n, rest) => items item n rest

end Compact

end Elector
