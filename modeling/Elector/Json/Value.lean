import Elector.Json.Token

/-!
# JSON values

The builder puts tokens together to values with a stack of what is open, so nesting may be as deep
as it likes. The printers write a value on one line, or spread out with two spaces a level.
-/

namespace Elector.Json

/-- A value. Strings and keys are kept as written, numbers by their digits. -/
inductive Value
  | null
  | bool (b : Bool)
  | number (digits : List Char)
  | text (raw : List Char)
  | array (elements : List Value)
  | object (members : List (List Char × Value))
deriving Repr, Inhabited

/-! ## Building -/

/-- An array or object under way; what it holds so far is kept last first. -/
inductive Open
  | array (done : List Value)
  /-- An object whose member `key` is still without its value. -/
  | object (done : List (List Char × Value)) (key : List Char)

/-- What the builder has to see next, inside of what is open. -/
inductive Builder
  | value (stack : List Open)
  /-- The first element of an array, or its end. -/
  | element (stack : List Open)
  /-- The first key of an object, or its end. -/
  | member (stack : List Open)
  | key (done : List (List Char × Value)) (stack : List Open)
  | colon (done : List (List Char × Value)) (key : List Char) (stack : List Open)
  /-- What may follow a complete value. -/
  | after (v : Value) (stack : List Open)

namespace Builder

def beginValue (stack : List Open) : Token → Option Builder
  | .null => some (.after .null stack)
  | .bool b => some (.after (.bool b) stack)
  | .number digits => some (.after (.number digits) stack)
  | .text raw => some (.after (.text raw) stack)
  | .openArray => some (.element stack)
  | .openObject => some (.member stack)
  | _ => none

/-- Looks at one token; there is nothing to go on with after an error. -/
def step : Builder → Token → Option Builder
  | .value stack, t => beginValue stack t
  | .element stack, .closeArray => some (.after (.array []) stack)
  | .element stack, t => beginValue (.array [] :: stack) t
  | .member stack, .closeObject => some (.after (.object []) stack)
  | .member stack, .text raw => some (.colon [] raw stack)
  | .key done stack, .text raw => some (.colon done raw stack)
  | .colon done k stack, .colon => some (.value (.object done k :: stack))
  | .after v (.array done :: stack), .comma => some (.value (.array (v :: done) :: stack))
  | .after v (.array done :: stack), .closeArray =>
    some (.after (.array (v :: done).reverse) stack)
  | .after v (.object done k :: stack), .comma => some (.key ((k, v) :: done) stack)
  | .after v (.object done k :: stack), .closeObject =>
    some (.after (.object ((k, v) :: done).reverse) stack)
  | _, _ => none

end Builder

def Value.ofTokens (ts : List Token) : Option Value :=
  match ts.foldlM Builder.step (.value []) with
  | some (.after v []) => some v
  | _ => none

def Value.parse (text : String) : Option Value := (scan text.toList).bind Value.ofTokens

/-! ## Printing -/

def quote (raw : List Char) : List Char := '"' :: raw ++ ['"']

def newline (level : Nat) : List Char := '\n' :: List.replicate (2 * level) ' '

namespace Value

mutual

def compact : Value → List Char
  | .null => ['n', 'u', 'l', 'l']
  | .bool true => ['t', 'r', 'u', 'e']
  | .bool false => ['f', 'a', 'l', 's', 'e']
  | .number digits => digits
  | .text raw => quote raw
  | .array elements => '[' :: compactElements elements ++ [']']
  | .object members => '{' :: compactMembers members ++ ['}']

def compactElements : List Value → List Char
  | [] => []
  | [v] => v.compact
  | v :: vs => v.compact ++ ',' :: compactElements vs

def compactMembers : List (List Char × Value) → List Char
  | [] => []
  | [(k, v)] => quote k ++ ':' :: v.compact
  | (k, v) :: ms => quote k ++ ':' :: v.compact ++ ',' :: compactMembers ms

end

mutual

/-- The value spread over lines, with everything inside of it indented by `level`. -/
def pretty (level : Nat) : Value → List Char
  | .null => ['n', 'u', 'l', 'l']
  | .bool true => ['t', 'r', 'u', 'e']
  | .bool false => ['f', 'a', 'l', 's', 'e']
  | .number digits => digits
  | .text raw => quote raw
  | .array [] => ['[', ']']
  | .array elements => '[' :: prettyElements (level + 1) elements ++ newline level ++ [']']
  | .object [] => ['{', '}']
  | .object members => '{' :: prettyMembers (level + 1) members ++ newline level ++ ['}']

def prettyElements (level : Nat) : List Value → List Char
  | [] => []
  | [v] => newline level ++ v.pretty level
  | v :: vs => newline level ++ v.pretty level ++ ',' :: prettyElements level vs

def prettyMembers (level : Nat) : List (List Char × Value) → List Char
  | [] => []
  | [(k, v)] => newline level ++ quote k ++ [':', ' '] ++ v.pretty level
  | (k, v) :: ms =>
    newline level ++ quote k ++ [':', ' '] ++ v.pretty level ++ ',' :: prettyMembers level ms

end

/-! ## Values of the library's types -/

def ofString (s : String) : Value := .text (escape s.toList)

def ofInt : Int → Value
  | .ofNat n => .number (Nat.toDigits 10 n)
  | .negSucc n => .number ('-' :: Nat.toDigits 10 (n + 1))

def ofOption {α : Type} (f : α → Value) : Option α → Value
  | some a => f a
  | none => .null

def record (fields : List (String × Value)) : Value :=
  .object (fields.map fun f => (escape f.1.toList, f.2))

/-- The text of a string value, if it is one and stands for a text. -/
def string? : Value → Option String
  | .text raw => (unescape raw).map String.ofList
  | _ => none

end Value

def naturalOf (digits : List Char) : Nat :=
  digits.foldl (fun n c => 10 * n + (c.toNat - '0'.toNat)) 0

/-- The integer that is written without fraction, exponent, needless zeros or a negative zero. -/
def integerOf? : List Char → Option Int
  | '-' :: rest => (natural? rest).bind fun n => if n = 0 then none else some (-n)
  | cs => (natural? cs).map (·)
where
  natural? : List Char → Option Nat
    | [] => none
    | ['0'] => some 0
    | '0' :: _ => none
    | cs => if cs.all Char.isDigit then some (naturalOf cs) else none

namespace Value

def integer? (least most : Int) : Value → Option Int
  | .number digits =>
    (integerOf? digits).bind fun i => if least ≤ i ∧ i ≤ most then some i else none
  | _ => none

def int32? (v : Value) : Option Int32 :=
  (v.integer? Int32.minValue.toInt Int32.maxValue.toInt).map Int32.ofInt

def uint64? (v : Value) : Option UInt64 :=
  (v.integer? 0 0xFFFFFFFFFFFFFFFF).map fun i => UInt64.ofNat i.toNat

def elements? : Value → Option (List Value)
  | .array vs => some vs
  | _ => none

/-! ## Records -/

/-- The value of a key that may occur once at most: nothing, or a value that may be missing. -/
def only? (members : List (String × Value)) (key : String) : Option (Option Value) :=
  match members.filter (·.1 = key) with
  | [] => some none
  | [m] => some (some m.2)
  | _ => none

/-- The fields of a record in the order of `names`. A record is an object, in which other keys are
ignored, or an array of its fields, which may end early. -/
def fields? (names : List String) : Value → Option (List (Option Value))
  | .object members => do
    let members ← members.mapM fun m => (unescape m.1).map fun key => (String.ofList key, m.2)
    names.mapM (only? members)
  | .array vs =>
    if vs.length ≤ names.length then
      some (vs.map some ++ List.replicate (names.length - vs.length) none)
    else none
  | _ => none

end Value

end Elector.Json
