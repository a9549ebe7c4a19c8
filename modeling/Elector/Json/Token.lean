import Elector.Json.Text

/-!
# JSON tokens

The scanner: it goes through a text one character at a time and collects tokens. Strings keep the
characters between their quotes as written; numbers keep their digits.
-/

namespace Elector.Json

open Text (hexValue?)

inductive Token
  | openArray
  | closeArray
  | openObject
  | closeObject
  | comma
  | colon
  | null
  | bool (b : Bool)
  | number (digits : List Char)
  | text (raw : List Char)
deriving DecidableEq, Repr

/-! ## Numbers -/

private def dropDigits (cs : List Char) : List Char := cs.dropWhile Char.isDigit

/-- Whether at least one digit comes first; gives what follows the digits. -/
private def digits1? : List Char → Option (List Char)
  | c :: rest => if c.isDigit then some (dropDigits rest) else none
  | [] => none

/-- What follows an integer without needless leading zeros. -/
private def integer? : List Char → Option (List Char)
  | '-' :: rest => natural? rest
  | cs => natural? cs
where
  natural? : List Char → Option (List Char)
    | '0' :: rest => some rest
    | cs => digits1? cs

private def fraction? : List Char → Option (List Char)
  | '.' :: rest => digits1? rest
  | cs => some cs

private def exponent? : List Char → Option (List Char)
  | c :: rest =>
    if c = 'e' ∨ c = 'E' then
      match rest with
      | '+' :: rest => digits1? rest
      | '-' :: rest => digits1? rest
      | rest => digits1? rest
    else some (c :: rest)
  | [] => some []

/-- Whether the characters are a number of the standard's grammar. -/
def isNumber (cs : List Char) : Bool :=
  ((integer? cs).bind fraction?).bind exponent? == some []

theorem isNumber_digits {cs : List Char} (hdigit : ∀ c ∈ cs, c.isDigit = true) (hne : cs ≠ [])
    (hzero : cs.head? = some '0' → cs = ['0']) :
    isNumber cs = true ∧ isNumber ('-' :: cs) = true := by
  have hnatural : integer?.natural? cs = some [] := by
    cases cs with
    | nil => exact absurd rfl hne
    | cons c cs =>
      rw [List.forall_mem_cons] at hdigit
      by_cases hc : c = '0'
      · rw [hzero (by rw [hc, List.head?_cons])]
        rfl
      · have hdrop : dropDigits cs = [] := by
          rw [dropDigits, ← List.append_nil cs, List.dropWhile_append_of_pos hdigit.2]
          rfl
        simp [integer?.natural?, digits1?, hc, hdigit.1, hdrop]
  have hinteger : integer? cs = integer?.natural? cs := by
    have hminus : ∀ rest, cs ≠ '-' :: rest := by
      rintro rest rfl
      exact absurd (hdigit '-' (by simp)) (by decide)
    cases cs with
    | nil => rfl
    | cons c cs =>
      rw [integer?]
      exact fun rest hrest => hminus rest hrest
  constructor
  · simp [isNumber, hinteger, hnatural, fraction?, exponent?]
  · simp [isNumber, integer?, hnatural, fraction?, exponent?]

/-- The token of a run of characters that are no punctuation. -/
def ofBare (cs : List Char) : Option Token :=
  if cs = ['n', 'u', 'l', 'l'] then some .null
  else if cs = ['t', 'r', 'u', 'e'] then some (.bool true)
  else if cs = ['f', 'a', 'l', 's', 'e'] then some (.bool false)
  else if isNumber cs then some (.number cs)
  else none

/-! ## The scanner -/

/-- Where the scanner is; characters of an unfinished token are kept last first. -/
inductive Mode
  | between
  | bare (seen : List Char)
  | text (seen : List Char)
  | escape (seen : List Char)
  /-- In the digits of an escaped number, `left` of them to come. -/
  | unit (left : Nat) (seen : List Char)
deriving DecidableEq, Repr

/-- A scanner with its tokens, last first. -/
structure Scanner where
  mode : Mode := .between
  tokens : List Token := []
deriving DecidableEq, Repr

namespace Scanner

def isBlank (c : Char) : Bool := c = ' ' || c = '\t' || c = '\n' || c = '\r'

def punctuation? : Char → Option Token
  | '[' => some .openArray
  | ']' => some .closeArray
  | '{' => some .openObject
  | '}' => some .closeObject
  | ',' => some .comma
  | ':' => some .colon
  | _ => none

/-- Looks at a character outside of strings, with no token under way. -/
def start (tokens : List Token) (c : Char) : Scanner :=
  if isBlank c then { tokens }
  else match punctuation? c with
    | some t => { tokens := t :: tokens }
    | none => if c = '"' then { mode := .text [], tokens } else { mode := .bare [c], tokens }

def endsBare (c : Char) : Bool := isBlank c || (punctuation? c).isSome || c = '"'

/-- Looks at one character; there is nothing to go on with after an error. -/
def step (s : Scanner) (c : Char) : Option Scanner :=
  match s.mode with
  | .between => some (start s.tokens c)
  | .bare seen =>
    if endsBare c then (ofBare seen.reverse).map fun t => start (t :: s.tokens) c
    else some { s with mode := .bare (c :: seen) }
  | .text seen =>
    if c = '"' then some { tokens := .text seen.reverse :: s.tokens }
    else if c = '\\' then some { s with mode := .escape (c :: seen) }
    else if c < ' ' then none
    else some { s with mode := .text (c :: seen) }
  | .escape seen =>
    if c = 'u' then some { s with mode := .unit 3 (c :: seen) }
    else (shortEscape? c).map fun _ => { s with mode := .text (c :: seen) }
  | .unit left seen =>
    (hexValue? c).map fun _ => { s with mode := match left with
      | 0 => .text (c :: seen)
      | left + 1 => .unit left (c :: seen) }

def finish (s : Scanner) : Option (List Token) :=
  match s.mode with
  | .between => some s.tokens.reverse
  | .bare seen => (ofBare seen.reverse).map fun t => (t :: s.tokens).reverse
  | _ => none

end Scanner

def scan (cs : List Char) : Option (List Token) :=
  (cs.foldlM Scanner.step {}).bind Scanner.finish

end Elector.Json
