import FlowListing.Fault

/-!
# Files and paths

A file tree holds the files and directories that a command can see. A path is followed name by name; every name but the last has to
be that of a directory. Names and paths have a greatest length, counted in bytes. A path is shown without the parts that change
nothing: empty names and single points.
-/

namespace FlowListing.Command

/-- A place in a file tree: the names on the way to it from the working directory. A way out of the working directory starts with
two points, and one from the root starts with a slash. -/
abbrev Place := List String

/-- Why a path leads to no file. -/
inductive PathFault where
  | missing
  | notDirectory
  | isDirectory
  | tooLong
  deriving DecidableEq, Repr

/-- The failed access that a path fault is reported as. -/
def PathFault.access (fault : PathFault) (path : String) : AccessFault :=
  match fault with
  | .missing => ⟨2, "No such file or directory", path⟩
  | .notDirectory => ⟨20, "Not a directory", path⟩
  | .isDirectory => ⟨21, "Is a directory", path⟩
  | .tooLong => ⟨36, "File name too long", path⟩

/-- The parts of a path between slashes. -/
def splitPath : List Char → List (List Char)
  | [] => [[]]
  | c :: rest =>
    if c = '/' then [] :: splitPath rest
    else
      match splitPath rest with
      | [] => [[c]]
      | part :: parts => (c :: part) :: parts

/-- The names in a path, empty ones included. -/
def pathNames (path : String) : List String :=
  (splitPath path.toList).map String.ofList

/-- The path starts at the root. -/
def isAbsolute (path : String) : Bool :=
  path.toList.head? == some '/'

/-- A path without the parts that change nothing. -/
def normalPath (path : String) : String :=
  let names := (pathNames path).filter fun name => name ≠ "" ∧ name ≠ "."
  let body := "/".intercalate names
  if isAbsolute path then "/" ++ body
  else if names.isEmpty then "."
  else body

/-- No name has more bytes than this. -/
def longestName : Nat := 255

/-- No path has more bytes than this. -/
def longestPath : Nat := 4095

/-- The place where a path starts. -/
def startOf (path : String) : Place :=
  if isAbsolute path then ["/"] else []

/-- The place that a name leads to. -/
def Place.step (here : Place) (name : String) : Place :=
  if name = "" ∨ name = "." then here
  else if name ≠ ".." then here ++ [name]
  else if here = ["/"] then here
  else if here.getLast? = none ∨ here.getLast? = some ".." then here ++ [".."]
  else here.dropLast

/-- The place that a path leads to if all its names are those of directories. -/
def placeOf (path : String) : Place :=
  (pathNames path).foldl Place.step (startOf path)

/-- The places that are passed on the way along a path, from its start to its end. -/
def placesAlong (path : String) : List Place :=
  (List.range ((pathNames path).length + 1)).map fun n => ((pathNames path).take n).foldl Place.step (startOf path)

/-- A place as a path. -/
def Place.path (place : Place) : String :=
  match place with
  | [] => "."
  | "/" :: rest => "/" ++ "/".intercalate rest
  | names => "/".intercalate names

/-- The place is in the working directory or below it. -/
def Place.isInside (place : Place) : Bool :=
  match place.head? with
  | some name => name ≠ ".." ∧ name ≠ "/"
  | none => true

/-- What stands at a place. -/
inductive Node where
  | file (bytes : List UInt8)
  | directory
  deriving DecidableEq, Repr

/-- Files with their contents, and directories. What contains a file is a directory without being listed. -/
structure FileTree where
  files : List (Place × List UInt8) := []
  directories : List Place := []
  deriving DecidableEq, Repr

namespace FileTree

/-- What stands at a place, if anything does. -/
def node? (tree : FileTree) (place : Place) : Option Node :=
  if place.all (· == "..") || place == ["/"] then some .directory
  else
    match List.lookup place tree.files with
    | some bytes => some (.file bytes)
    | none =>
      if tree.directories.any place.isPrefixOf || tree.files.any (fun (file, _) => place.isPrefixOf file) then
        some .directory
      else none

/-- The place that names lead to from a place. All that is passed has to be a directory. -/
def follow (tree : FileTree) : Place → List String → Except PathFault Place
  | here, [] => .ok here
  | here, name :: rest =>
    match tree.node? here with
    | some .directory =>
      if longestName < name.utf8ByteSize then .error .tooLong else tree.follow (here.step name) rest
    | some (.file _) => .error .notDirectory
    | none => .error .missing

/-- The place that a path leads to. -/
def locate (tree : FileTree) (path : String) : Except PathFault Place :=
  if longestPath < path.utf8ByteSize then .error .tooLong else tree.follow (startOf path) (pathNames path)

/-- What a path leads to. The empty path leads nowhere. -/
def find (tree : FileTree) (path : String) : Except PathFault Node :=
  if path = "" then .error .missing
  else
    match tree.locate path with
    | .error fault => .error fault
    | .ok place =>
      match tree.node? place with
      | some node => .ok node
      | none => .error .missing

/-- The place of the file that is written under a path. -/
def target (tree : FileTree) (path : String) : Except PathFault Place :=
  match tree.locate path with
  | .error fault => .error fault
  | .ok place =>
    match tree.node? place with
    | some .directory => .error .isDirectory
    | _ => .ok place

/-- The tree with a file written. -/
def write (tree : FileTree) (place : Place) (bytes : List UInt8) : FileTree :=
  { tree with files := (place, bytes) :: tree.files.filter fun (file, _) => file ≠ place }

/-- The files that are new or have other contents than in the old tree. -/
def changes (tree old : FileTree) : List (Place × List UInt8) :=
  tree.files.filter fun (file, bytes) => List.lookup file old.files ≠ some bytes

end FileTree

end FlowListing.Command
