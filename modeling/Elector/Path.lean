/-!
# Paths

Paths as they are written: names with `/` between them.
-/

namespace Elector

/-- The longest name that can stand under a path, in bytes. -/
def longestName : Nat := 255

/-- The longest path that can be followed, in bytes. -/
def longestPath : Nat := 4095

/-- Whether a path can be followed at all. -/
def isPath (path : String) : Bool :=
  path.utf8ByteSize ≤ longestPath && !path.toList.contains '\x00'

def joinPath (base name : String) : String :=
  if base = "" ∨ base.toList.getLast? = some '/' then base ++ name else base ++ "/" ++ name

end Elector
