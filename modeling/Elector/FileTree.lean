import Elector.Disk

/-!
# File trees

Files and folders under written paths. A path is followed name by name, so a name in front of `..`
has to be a folder as well. Making a folder makes what leads to it, up to the first name that is in
the way.
-/

namespace Elector

/-- The names that lead to a place, from the top. -/
abbrev Place := List String

/-- A tree of files and folders. Whatever leads to an item is a folder. -/
structure FileTree where
  items : List (Place × Item) := []
  /-- The folder where paths start that do not start at the top. Names are not empty in written
  paths, so these come to this folder from nowhere else. -/
  home : Place := ["", ""]
deriving DecidableEq, Repr

namespace FileTree

def item? (t : FileTree) (place : Place) : Option Item :=
  if place.isPrefixOf t.home then some .folder else t.items.lookup place

def set (t : FileTree) (place : Place) (item : Option Item) : FileTree :=
  let others := t.items.filter (·.1 ≠ place)
  { t with items := match item with
    | some item => (place, item) :: others
    | none => others }

/-! ## Written paths -/

def origin (t : FileTree) (path : String) : Place :=
  if path.toList.head? = some '/' then [] else t.home

/-- The names of a written path that lead anywhere. -/
def steps (path : List String) : List String := path.filter fun name => name ≠ "" ∧ name ≠ "."

def enter (t : FileTree) (place : Place) (name : String) : Option Place :=
  if name = ".." then some place.dropLast
  else match t.item? (place ++ [name]) with
    | some .folder => some (place ++ [name])
    | _ => none

/-- The place of the file that a path names, whether or not it is there: what leads to it has to be
there, and the last name has to be one that a file can have. -/
def filePlace? (t : FileTree) (path : String) : Option Place :=
  let names := path.splitOn "/"
  match names.getLast? with
  | some last =>
    if last = "" ∨ last = "." ∨ last = ".." ∨ !isPath path then none
    else ((steps names.dropLast).foldlM t.enter (t.origin path)).map (· ++ [last])
  | none => none

def content? (t : FileTree) (path : String) : Option Bytes :=
  match (t.filePlace? path).bind t.item? with
  | some (.file content) => some content
  | _ => none

/-- Makes the folders that are missing along `names`; without a place, one was in the way. -/
def makeFolders (t : FileTree) (place : Place) : List String → FileTree × Option Place
  | [] => (t, some place)
  | name :: rest =>
    if name = ".." then t.makeFolders place.dropLast rest
    else
      let next := place ++ [name]
      match t.item? next with
      | some .folder => t.makeFolders next rest
      | some (.file _) => (t, none)
      | none =>
      if name.utf8ByteSize ≤ longestName then (t.set next (some .folder)).makeFolders next rest
      else (t, none)

/-- Puts a file at a path, in folders that are made if they are missing. -/
def putFile (t : FileTree) (path : String) (content : Bytes) : FileTree :=
  match t.makeFolders (t.origin path) (steps (path.splitOn "/").dropLast) with
  | (t, some _) =>
    match t.filePlace? path with
    | some place => t.set place (some (.file content))
    | none => t
  | (t, none) => t

/-! ## Data folders -/

/-- Makes the folder of the durable files of the node that keeps its data in `dataDir`. -/
def makeShelf (t : FileTree) (dataDir : String) : FileTree × Option Place :=
  let path := shelfPath dataDir
  if isPath path then t.makeFolders (t.origin path) (steps (path.splitOn "/")) else (t, none)

/-- The durable side of the node that keeps its data in `dataDir`. -/
def disk (t : FileTree) (dataDir : String) : Disk :=
  match t.makeShelf dataDir with
  | (t, some place) =>
    let tooFar := FileName.tooFar dataDir
    let item (f : FileName) := if f ∈ tooFar then none else t.item? (place ++ [f.name])
    .shelf { votes := item .votes, draft := item .draft, journal := item .journal, tooFar }
  | (_, none) => .blocked

/-- Puts the files of a shelf at a place, which holds their folders already. -/
def putShelf (t : FileTree) (place : Place) (s : Shelf) : FileTree :=
  let inReach := FileName.all.filter (· ∉ s.tooFar)
  inReach.foldl (fun t f => t.set (place ++ [f.name]) (s.get f)) t

/-- Lets the durable side of the node that keeps its data in `dataDir` be `d`. -/
def putDisk (t : FileTree) (dataDir : String) (d : Disk) : FileTree :=
  match t.makeShelf dataDir, d with
  | (t, some place), .shelf s => t.putShelf place s
  | (t, _), _ => t

end FileTree

end Elector
