/-!
# Arguments

Reading a command line by a grammar of subcommands, options and words. Long options take their
value behind `=` or as the next argument, short ones also without anything in between; a value that
is an argument of its own does not start with a dash, unless it is a dash. Behind `--` there are
only words. Arguments are read from left to right, and the first one that ends the reading decides
how.
-/

namespace Elector.Command

/-! ## Numbers -/

private def digits? (cs : List Char) : Option Nat :=
  if cs = [] ∨ cs.any (fun c => !c.isDigit) then none
  else some (cs.foldl (fun n c => 10 * n + (c.toNat - '0'.toNat)) 0)

def signed? (text : String) : Option Int :=
  match text.toList with
  | '-' :: cs => (digits? cs).map fun n => -n
  | '+' :: cs => (digits? cs).map (·)
  | cs => (digits? cs).map (·)

private def between? (least most : Int) (i : Option Int) : Option Int :=
  i.bind fun i => if least ≤ i ∧ i ≤ most then some i else none

def int32? (text : String) : Option Int32 :=
  (between? Int32.minValue.toInt Int32.maxValue.toInt (signed? text)).map Int32.ofInt

def int64? (text : String) : Option Int64 :=
  (between? Int64.minValue.toInt Int64.maxValue.toInt (signed? text)).map Int64.ofInt

def uint32? (text : String) : Option UInt32 :=
  (between? 0 0xFFFFFFFF (signed? text)).map fun i => UInt32.ofNat i.toNat

/-- The widest numbers take no minus sign, not even in front of a zero. -/
def uint64? (text : String) : Option UInt64 :=
  if text.toList.head? = some '-' then none
  else (between? 0 0xFFFFFFFFFFFFFFFF (signed? text)).map fun i => UInt64.ofNat i.toNat

/-! ## Grammars -/

structure Opt where
  name : String
  letter : Option Char := none
  takesValue : Bool := true
  accepts : String → Bool := fun _ => true

structure Grammar where
  options : List Opt := []
  words : Nat := 0
  /-- The subcommands, of which one has to come if there are any. -/
  commands : List (String × Grammar) := []

/-- What a command line says. A flag that is given is an option with an empty value. -/
structure Invocation where
  path : List String := []
  options : List (String × String) := []
  words : List String := []
deriving DecidableEq, Repr

/-- How reading ends without a command. -/
inductive Refusal
  | usage
  | help
deriving DecidableEq, Repr

/-! ## Reading -/

structure Reading where
  options : List (String × String) := []
  words : List String := []
  /-- The option that came last, if its value was not part of the same argument. -/
  pending : Option (Opt × Option String) := none
  literal : Bool := false

namespace Reading

private def add (r : Reading) (o : Opt) (value : String) : Except Refusal Reading :=
  if o.takesValue && !o.accepts value then .error .usage
  else if r.options.any (·.1 = o.name) then .error .usage
  else .ok { r with options := r.options ++ [(o.name, value)] }

/-- Takes in the option that came last, which must have got its value. -/
def resolve (r : Reading) : Except Refusal Reading :=
  match r.pending with
  | none => .ok r
  | some (_, none) => .error .usage
  | some (o, some value) => { r with pending := none }.add o value

def addOption (r : Reading) (o : Opt) (value : String) : Except Refusal Reading :=
  match r.resolve with
  | .error e => .error e
  | .ok r => r.add o value

/-- Remembers an option whose value is the next argument. -/
def await (r : Reading) (o : Opt) : Except Refusal Reading :=
  match r.resolve with
  | .error e => .error e
  | .ok r => .ok { r with pending := some (o, none) }

def awaits (r : Reading) : Bool :=
  match r.pending with
  | some (_, none) => true
  | _ => false

def askHelp (r : Reading) : Except Refusal Reading :=
  match r.resolve with
  | .error e => .error e
  | .ok _ => .error .help

end Reading

inductive Shape
  | terminator
  | long (name : String) (value : Option String)
  | short (letters : List Char)
  | word

def shapeOf (argument : String) : Shape :=
  match argument.toList with
  | ['-', '-'] => .terminator
  | '-' :: '-' :: rest =>
    .long (String.ofList (rest.takeWhile (· ≠ '=')))
      (match rest.dropWhile (· ≠ '=') with
        | _ :: value => some (String.ofList value)
        | [] => none)
  | '-' :: c :: rest => .short (c :: rest)
  | _ => .word

namespace Grammar

def readLong (g : Grammar) (r : Reading) (name : String) (value : Option String) :
    Except Refusal Reading :=
  if name = "help" then
    match value with
    | none => r.askHelp
    | some _ => .error .usage
  else match g.options.find? (·.name = name) with
    | none => .error .usage
    | some o =>
      match o.takesValue, value with
      | true, some value => r.addOption o value
      | true, none => r.await o
      | false, some _ => .error .usage
      | false, none => r.addOption o ""

def readShort (g : Grammar) : Reading → List Char → Except Refusal Reading
  | r, [] => .ok r
  | r, c :: rest =>
    if c = 'h' then r.askHelp
    else match g.options.find? (·.letter = some c) with
      | none => .error .usage
      | some o =>
        if o.takesValue then
          match rest with
          | [] => r.await o
          | '=' :: value => r.addOption o (String.ofList value)
          | value => r.addOption o (String.ofList value)
        else
          match r.addOption o "" with
          | .error e => .error e
          | .ok r => g.readShort r rest

def readWord (g : Grammar) (r : Reading) (word : String) : Except Refusal Reading :=
  if r.words.length < g.words then
    match r.resolve with
    | .error e => .error e
    | .ok r => .ok { r with words := r.words ++ [word] }
  else .error .usage

/-- Reads an argument that names no subcommand. -/
def readArgument (g : Grammar) (r : Reading) (argument : String) : Except Refusal Reading :=
  if r.literal then g.readWord r argument
  else match shapeOf argument with
    | .terminator => .ok { r with literal := true }
    | .long name value => g.readLong r name value
    | .short letters => g.readShort r letters
    | .word =>
      match r.pending with
      | some (o, none) => .ok { r with pending := some (o, some argument) }
      | _ => g.readWord r argument

/-- The subcommand of a name. Where there are subcommands, `help` is one. -/
def find? (g : Grammar) (name : String) : Option Grammar :=
  match g.commands.lookup name with
  | some sub => some sub
  | none => if name = "help" ∧ g.commands.length ≠ 0 then some {} else none

/-- Help for the subcommand at the end of a path. -/
def helpFor : Grammar → List String → Refusal
  | _, [] => .help
  | g, name :: rest =>
    match g.find? name with
    | some sub => sub.helpFor rest
    | none => .usage

def readFrom (g : Grammar) (r : Reading) : List String → Except Refusal Invocation
  | [] =>
    match r.resolve with
    | .error e => .error e
    | .ok r =>
      if g.commands.length ≠ 0 then .error .usage
      else .ok { options := r.options, words := r.words }
  | argument :: rest =>
    match if r.literal || r.awaits then none else g.find? argument with
    | some sub =>
      match g.commands.lookup argument with
      | none => .error (g.helpFor rest)
      | some _ =>
        match sub.readFrom {} rest with
        | .error e => .error e
        | .ok inner =>
          match r.resolve with
          | .error e => .error e
          | .ok r => .ok {
              path := argument :: inner.path
              options := r.options ++ inner.options
              words := r.words ++ inner.words }
    | none =>
      match g.readArgument r argument with
      | .error e => .error e
      | .ok r => g.readFrom r rest

def read (g : Grammar) (arguments : List String) : Except Refusal Invocation :=
  g.readFrom {} arguments

end Grammar

end Elector.Command
