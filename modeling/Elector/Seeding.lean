import Elector.Storage

/-!
# Seeding a journal

Looking at a node's journal and filling it with empty entries, as a tool does that prepares a
cluster. Terms never go back along a journal that was filled this way.
-/

namespace Elector

inductive LogAction
  /-- Look at the last position. -/
  | inspect
  /-- Append `count` empty entries of `term`. -/
  | append (term : Term) (count : UInt32)
deriving DecidableEq, Repr

inductive SeedError
  | opening
  | behind (term last : Term)
  | writing (cause : JournalError)
deriving DecidableEq, Repr

def SeedError.message (directory : String) : SeedError → String
  | opening => s!"opening log in {directory}"
  | behind term last => s!"term {term} is behind the last logged term {last}"
  | writing cause => cause.message

namespace Journal

/-- Appends empty entries one at a time, up to the first that is not written. -/
def appendEmpty (j : Journal) (term : Term) (d : Disk) : Nat →
    Journal × Disk × Except JournalError Unit
  | 0 => (j, d, .ok ())
  | count + 1 =>
    match j.append { term, command := [] } d none with
    | (j, d, .error e) => (j, d, .error e)
    | (j, d, .ok _) => j.appendEmpty term d count

end Journal

/-- Carries out an action on the journal of a disk and gives the last position. -/
def LogAction.run (action : LogAction) (d : Disk) : Disk × Except SeedError Position :=
  match Journal.load d with
  | .error _ => (d, .error .opening)
  | .ok (j, d) =>
    match action with
    | .inspect => (d, .ok j.position)
    | .append term count =>
      if term < j.position.term then (d, .error (.behind term j.position.term))
      else match j.appendEmpty term d count.toNat with
        | (_, d, .error e) => (d, .error (.writing e))
        | (j, d, .ok ()) => (d, .ok j.position)

end Elector
