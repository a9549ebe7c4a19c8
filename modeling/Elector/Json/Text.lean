import Elector.Text.HexDigit

/-!
# JSON strings

The characters between the quotes of a JSON string, and the text that they stand for. Writing
escapes the quote, the backslash and the control characters below the space, and nothing else.
Reading knows every escape of the standard; escapes of surrogates stand for a character in pairs
only.
-/

namespace Elector.Json

open Text (hexValue? hexDigit)

def escapeChar (c : Char) : List Char :=
  if c = '"' then ['\\', '"']
  else if c = '\\' then ['\\', '\\']
  else if c = '\x08' then ['\\', 'b']
  else if c = '\x0c' then ['\\', 'f']
  else if c = '\n' then ['\\', 'n']
  else if c = '\r' then ['\\', 'r']
  else if c = '\t' then ['\\', 't']
  else if c < ' ' then
    ['\\', 'u', '0', '0', hexDigit (c.toNat / 16), hexDigit (c.toNat % 16)]
  else [c]

def escape (cs : List Char) : List Char := cs.flatMap escapeChar

/-! ## Reading -/

/-- A piece of a written string: a character, or a number given by an escape. -/
inductive Piece
  | char (c : Char)
  | unit (n : Nat)
deriving DecidableEq, Repr

def shortEscape? : Char → Option Char
  | '"' => some '"'
  | '\\' => some '\\'
  | '/' => some '/'
  | 'b' => some '\x08'
  | 'f' => some '\x0c'
  | 'n' => some '\n'
  | 'r' => some '\r'
  | 't' => some '\t'
  | _ => none

def pieces : List Char → Option (List Piece)
  | [] => some []
  | '\\' :: 'u' :: a :: b :: c :: d :: rest => do
    let a ← hexValue? a
    let b ← hexValue? b
    let c ← hexValue? c
    let d ← hexValue? d
    let ps ← pieces rest
    some (.unit (((a * 16 + b) * 16 + c) * 16 + d) :: ps)
  | '\\' :: e :: rest => do
    let c ← shortEscape? e
    let ps ← pieces rest
    some (.char c :: ps)
  | ['\\'] => none
  | c :: rest => do
    let ps ← pieces rest
    some (.char c :: ps)

def isHighSurrogate (n : Nat) : Bool := 0xD800 ≤ n && n < 0xDC00

def isLowSurrogate (n : Nat) : Bool := 0xDC00 ≤ n && n < 0xE000

/-- Puts pairs of surrogates together; one that stands alone has no meaning. -/
def joinPieces : List Piece → Option (List Char)
  | [] => some []
  | .char c :: rest => (joinPieces rest).map (c :: ·)
  | .unit n :: rest =>
    if isHighSurrogate n then
      match rest with
      | .unit m :: rest =>
        if isLowSurrogate m then
          (joinPieces rest).map (Char.ofNat (0x10000 + (n - 0xD800) * 0x400 + (m - 0xDC00)) :: ·)
        else none
      | _ => none
    else if isLowSurrogate n then none
    else (joinPieces rest).map (Char.ofNat n :: ·)

def unescape (raw : List Char) : Option (List Char) := (pieces raw).bind joinPieces

end Elector.Json
