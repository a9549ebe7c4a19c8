import Elector.Command.Run
import Elector.FileTree

/-!
# Sessions

Runs of the program in a file tree. What one run leaves behind is what the next one finds.
-/

namespace Elector.FileTree

def surroundings (t : FileTree) : Surroundings where
  content? := t.content?
  disk := t.disk

def execute (t : FileTree) (arguments : List String) (draws : Nat → Nat → Nat) :
    FileTree × Command.Exit :=
  let exit := Command.execute arguments draws t.surroundings
  (exit.disks.foldl (fun t d => t.putDisk d.1 d.2) t, exit)

end Elector.FileTree
