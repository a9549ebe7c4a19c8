import Elector.Text.Hidden

/-!
# Quoted characters

A character between single quotes, so that it can be told apart in a message: characters that do
not show as themselves are written by number.
-/

namespace Elector.Text

/-- The written form of a character between single quotes. -/
def escaped (c : Char) : List Char :=
  if c = '\x00' then ['\\', '0']
  else if c = '\t' then ['\\', 't']
  else if c = '\n' then ['\\', 'n']
  else if c = '\r' then ['\\', 'r']
  else if c = '\'' then ['\\', '\'']
  else if c = '\\' then ['\\', '\\']
  else if isHidden c then ['\\', 'u', '{'] ++ Nat.toDigits 16 c.toNat ++ ['}']
  else [c]

def quoted (c : Char) : String := String.ofList ('\'' :: escaped c ++ ['\''])

end Elector.Text
