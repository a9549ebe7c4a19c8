import Elector.Bytes
import Elector.Text.Blank
import Elector.Text.Cut
import Elector.Text.HexDigit
import Elector.Text.Quoted

/-!
# Hexadecimal text

Bytes as pairs of hexadecimal digits. Writing uses lower case; reading takes either case and skips
blanks anywhere, and names the first character that is neither. The pairs are cut out by their byte
offsets, and a cut that does not fall between characters would end the program. The checks in front
of the cuts see to it that all do (`isSome_read`), so reading always has an outcome, `decode`.
-/

namespace Elector

inductive HexError
  | badDigit (c : Char)
  | oddCount
  | badByte (index : Nat)
deriving DecidableEq, Repr

def HexError.message : HexError → String
  | badDigit c => s!"invalid hex digit {Text.quoted c}"
  | oddCount => "hex input has an odd number of digits"
  | badByte index => s!"invalid hex byte at offset {index}"

namespace Hex

def byteDigits (b : UInt8) : List Char :=
  [Text.hexDigit (b.toNat / 16), Text.hexDigit (b.toNat % 16)]

def encode (bs : Bytes) : String := String.ofList (bs.flatMap byteDigits)

/-! ## Numbers -/

def isDigit (c : Char) : Bool := (Text.hexValue? c).isSome

/-- A number without its plus sign, if it has one. -/
def unsigned : List Char → List Char
  | '+' :: number => number
  | number => number

/-- The byte that a number in base 16 stands for. The number has at least one digit and nothing but
digits, behind a plus sign or not, and is below 256. -/
def byteOf? (number : String) : Option UInt8 :=
  match (unsigned number.toList).mapM Text.hexValue? with
  | none | some [] => none
  | some values =>
    let n := values.foldl (16 * · + ·) 0
    if n < 256 then some (UInt8.ofNat n) else none

/-! ## Reading -/

/-- A reading may fail with an error; it has no outcome at all where a cut does not fall between
characters. -/
abbrev Reading := ExceptT HexError Option

/-- The text without its blanks. -/
def digits (text : String) : String :=
  String.ofList (text.toList.filter fun c => !Text.isBlank c)

/-- The byte that the two digits at a byte offset stand for. -/
def byteAt (digits : String) (offset : Nat) : Reading UInt8 := do
  let pair ← ExceptT.lift (Text.cut? digits offset (offset + 2))
  match byteOf? pair with
  | some b => return b
  | none => throw (.badByte (offset / 2))

/-- Every other byte offset below `size`. -/
def offsets (size : Nat) : List Nat := List.range' 0 ((size + 1) / 2) 2

def read (text : String) : Reading Bytes :=
  let digits := digits text
  match digits.toList.find? fun c => !isDigit c with
  | some c => throw (.badDigit c)
  | none =>
    if digits.utf8ByteSize % 2 ≠ 0 then throw .oddCount
    else (offsets digits.utf8ByteSize).mapM (byteAt digits)

/-! ## Outcomes -/

theorem utf8Size_of_isDigit {c : Char} (h : isDigit c) : c.utf8Size = 1 := by
  obtain ⟨v, hv⟩ := Option.isSome_iff_exists.1 h
  exact Char.utf8Size_eq_one_iff.2 (UInt32.le_trans (Text.le_of_hexValue? hv) (by decide))

theorem utf8ByteSize_of_isDigit {s : String} (h : ∀ c ∈ s.toList, isDigit c) :
    s.utf8ByteSize = s.toList.length := by
  rw [← Text.utf8ByteSize_ofList fun c hc => utf8Size_of_isDigit (h c hc), String.ofList_toList]

theorem byteAt_of_isDigit {s : String} {offset : Nat} (h : ∀ c ∈ s.toList, isDigit c)
    (hpair : offset + 2 ≤ s.toList.length) :
    byteAt s offset =
      match byteOf? (String.ofList ((s.toList.take (offset + 2)).drop offset)) with
      | some b => pure b
      | none => throw (.badByte (offset / 2)) := by
  have hcut := Text.cut?_ofList (fun c hc => utf8Size_of_isDigit (h c hc))
    (Nat.le_add_right offset 2) hpair
  rw [String.ofList_toList] at hcut
  rw [byteAt, hcut]
  rfl

theorem isSome_byteAt {s : String} {offset : Nat} (h : ∀ c ∈ s.toList, isDigit c)
    (hpair : offset + 2 ≤ s.toList.length) : (byteAt s offset).run.isSome := by
  rw [byteAt_of_isDigit h hpair]
  split <;> rfl

theorem isSome_mapM {α β : Type} {f : α → Reading β} {xs : List α}
    (h : ∀ x ∈ xs, (f x).run.isSome) : (xs.mapM f).run.isSome := by
  induction xs with
  | nil => rfl
  | cons x xs ih =>
    obtain ⟨first, hfirst⟩ := Option.isSome_iff_exists.1 (h x List.mem_cons_self)
    obtain ⟨rest, hrest⟩ :=
      Option.isSome_iff_exists.1 (ih fun y hy => h y (List.mem_cons_of_mem x hy))
    rw [List.mapM_cons, ExceptT.run_bind, hfirst]
    cases first with
    | error e => rfl
    | ok b =>
      simp only [Option.bind_eq_bind, Option.bind_some, ExceptT.run_bind, hrest]
      cases rest <;> rfl

theorem add_two_le_of_mem_offsets {size offset : Nat} (heven : size % 2 = 0)
    (h : offset ∈ offsets size) : offset + 2 ≤ size := by
  obtain ⟨i, hi, rfl⟩ := List.mem_range'.1 h
  omega

/-- No text brings its reading to a cut that does not fall between characters. -/
theorem isSome_read (text : String) : (read text).run.isSome := by
  rw [read]
  split
  next => rfl
  next hfind =>
    have hdigit : ∀ c ∈ (digits text).toList, isDigit c := by simpa using hfind
    split
    next => rfl
    next heven =>
      refine isSome_mapM fun offset h => isSome_byteAt hdigit ?_
      rw [← utf8ByteSize_of_isDigit hdigit]
      exact add_two_le_of_mem_offsets (by omega) h

/-- The outcome of reading a text. -/
def decode (text : String) : Except HexError Bytes := (read text).run.get (isSome_read text)

theorem run_read (text : String) : (read text).run = some (decode text) := (Option.some_get _).symm

end Hex

end Elector
