/-!
# File trees

The files of a system, and the directory in which a program works. A path is a list of names; it is
followed from a place by its text alone, or from the root if it begins with a slash. The name `..`
takes a name off, and at the root it leads nowhere else.
-/

namespace EdgeCaller

/-- What stands at a place. -/
inductive Node where
  | file (text : String)
  | directory
  deriving DecidableEq, Repr

/-- The nodes of a system, each with the names that lead to it from the root. -/
structure FileTree where
  nodes : List (List String × Node) := []
  /-- The working directory. -/
  directory : List String := []
  deriving DecidableEq, Repr

namespace FileTree

/-- Follows one name from a place. -/
def follow (place : List String) (name : String) : List String :=
  if name = "" ∨ name = "." then place
  else if name = ".." then place.dropLast
  else place ++ [name]

/-- The place that a path leads to from another place. -/
def resolve (place : List String) (path : String) : List String :=
  let start := if path.toList.head? = some '/' then [] else place
  ((path.toList.splitOn '/').map String.ofList).foldl follow start

/-- What stands at a place. The working directory is there, and so is all that it lies in. -/
def node? (tree : FileTree) (place : List String) : Option Node :=
  if place.isPrefixOf tree.directory then some .directory
  else (tree.nodes.find? (·.1 = place)).map (·.2)

/-- The text of the file at a place, if there is one. -/
def text? (tree : FileTree) (place : List String) : Option String :=
  match tree.node? place with
  | some (.file s) => some s
  | _ => none

/-- Takes away what stands at a place and below it. -/
def remove (tree : FileTree) (place : List String) : FileTree :=
  { tree with nodes := tree.nodes.filter fun (names, _) => !place.isPrefixOf names }

/-- Adds a directory where nothing stands. -/
def addDirectory (tree : FileTree) (place : List String) : FileTree :=
  if (tree.node? place).isSome then tree
  else { tree with nodes := (place, .directory) :: tree.nodes }

/-- Puts a node at a place, in the directories that lead there. -/
def put (tree : FileTree) (place : List String) (node : Node) : FileTree :=
  let parents := (List.range place.length).map fun n => place.take n
  let others := { tree with nodes := tree.nodes.filter (·.1 ≠ place) }
  let housed := parents.foldl addDirectory others
  { housed with nodes := (place, node) :: housed.nodes }

/-- Puts a node at the place that a path leads to from the working directory. -/
def write (tree : FileTree) (path : String) (node : Node) : FileTree :=
  tree.put (resolve tree.directory path) node

/-- Takes away what stands at the place that a path leads to from the working directory. -/
def delete (tree : FileTree) (path : String) : FileTree :=
  tree.remove (resolve tree.directory path)

/-- The tree of these files, their paths followed from a working directory. -/
def ofList (directory : List String) (files : List (String × Node)) : FileTree :=
  files.foldl (fun tree (path, node) => tree.write path node) { directory }

end FileTree

end EdgeCaller
