/-
# A tree of files in memory

The tree maps locations, which are lists of names from the root, to files and
directories.  A path is looked up from the root or from the working directory,
one part at a time: every part but the last has to lead to a directory, and
`..` leads to the directory above.  There are no links, so every place has one
location.
-/

import ErrorAccessors.Files
import ErrorAccessors.Path
import ErrorAccessors.Text.Offset

namespace ErrorAccessors

/-- What is at a location.  A file that holds no text is kept apart. -/
inductive FileNode where
  | directory
  | text (content : String)
  | binary
deriving DecidableEq, Repr, Inhabited

/-- Files and directories by location. -/
structure FileTree where
  nodes : List (List String × FileNode)
  workingDirectory : List String
deriving DecidableEq, Repr, Inhabited

namespace FileTree

/-- The tree that holds a working directory and nothing else. -/
def fresh (workingDirectory : List String) : FileTree where
  nodes := (List.range workingDirectory.length).map fun length =>
    (workingDirectory.take (length + 1), .directory)
  workingDirectory := workingDirectory

/-- What is at a location. -/
def node? (tree : FileTree) (location : List String) : Option FileNode :=
  if location = [] then some .directory
  else (tree.nodes.find? fun node => node.1 == location).map (·.2)

/-- Put something at a location. -/
def put (tree : FileTree) (location : List String) (node : FileNode) : FileTree :=
  if (tree.node? location).isSome then
    { tree with
      nodes := tree.nodes.map fun held => if held.1 = location then (location, node) else held }
  else { tree with nodes := tree.nodes ++ [(location, node)] }

/-- Take away what is at a location. -/
def erase (tree : FileTree) (location : List String) : FileTree :=
  { tree with nodes := tree.nodes.filter fun node => node.1 ≠ location }

/-- The names of the entries of a directory. -/
def entries (tree : FileTree) (location : List String) : List String :=
  tree.nodes.filterMap fun node =>
    if node.1.dropLast = location then node.1.getLast? else none

/-- The greatest number of bytes of a path. -/
def maximalPath : Nat := 4095

/-- The greatest number of bytes of one name. -/
def maximalName : Nat := 255

/-- Go on from a directory by the parts of a path.  The place reached need not
exist, but all places on the way have to be directories. -/
def walk (tree : FileTree) (location : List String) :
    List (List Char) → Except FileError (List String)
  | [] => .ok location
  | part :: parts =>
    match tree.node? location with
    | none => .error .notFound
    | some (.text _) | some .binary => .error .notDirectory
    | some .directory =>
      if part = [] ∨ part = ['.'] then walk tree location parts
      else if part = ['.', '.'] then walk tree location.dropLast parts
      else if Text.byteLength part ≤ maximalName then
        walk tree (location ++ [String.ofList part]) parts
      else .error .nameTooLong

/-- The location that a path leads to, whether or not something is there. -/
def locate (tree : FileTree) (path : String) : Except FileError (List String) :=
  if path = "" then .error .notFound
  else if path.toList.contains '\x00' then .error .badName
  else if maximalPath < path.utf8ByteSize then .error .nameTooLong
  else
    tree.walk (if Path.isAbsolute path then [] else tree.workingDirectory) (Path.parts path)

/-- What a path leads to. -/
def lookup (tree : FileTree) (path : String) : Except FileError FileNode := do
  match tree.node? (← tree.locate path) with
  | some node => .ok node
  | none => .error .notFound

/-- Whether a path leads to a file. -/
def isFile (tree : FileTree) (path : String) : Bool :=
  match tree.lookup path with
  | .ok (.text _) | .ok .binary => true
  | _ => false

/-- Whether a path leads to a directory. -/
def isDirectory (tree : FileTree) (path : String) : Bool :=
  match tree.lookup path with
  | .ok .directory => true
  | _ => false

/-- The text of the file that a path leads to. -/
def read (tree : FileTree) (path : String) : Except FileError String := do
  match ← tree.lookup path with
  | .text content => .ok content
  | .binary => .error .notText
  | .directory => .error .isDirectory

/-- The tree with something written to the file that a path leads to. -/
def writeNode (tree : FileTree) (path : String) (node : FileNode) : Except FileError FileTree := do
  let location ← tree.locate path
  match tree.node? location with
  | some .directory => .error .isDirectory
  | _ => .ok (tree.put location node)

/-- The tree with a text written to the file that a path leads to. -/
def write (tree : FileTree) (path text : String) : Except FileError FileTree :=
  tree.writeNode path (.text text)

/-- The names of the entries of the directory that a path leads to. -/
def list (tree : FileTree) (path : String) : Except FileError (List String) := do
  let location ← tree.locate path
  match tree.node? location with
  | some .directory => .ok (tree.entries location)
  | some _ => .error .notDirectory
  | none => .error .notFound

/-- The tree without the file that a path leads to. -/
def remove (tree : FileTree) (path : String) : Except FileError FileTree := do
  let location ← tree.locate path
  match tree.node? location with
  | some .directory => .error .isDirectory
  | some _ => .ok (tree.erase location)
  | none => .error .notFound

/-- A path without slashes at its end. -/
def withoutTrailingSlashes (path : String) : String :=
  let kept := (path.toList.reverse.dropWhile (· = '/')).reverse
  if kept = [] then path else String.ofList kept

/-- The tree with one new directory. -/
def createDirectory (tree : FileTree) (path : String) : Except FileError FileTree := do
  let location ← tree.locate (withoutTrailingSlashes path)
  match tree.node? location with
  | some _ => .error .alreadyExists
  | none => .ok (tree.put location .directory)

/-- The outcome of making a directory, which is fine if it was there. -/
def settle (tree : FileTree) (path : String) :
    Except FileError FileTree → Except FileError Unit × FileTree
  | .ok later => (.ok (), later)
  | .error error => (if tree.isDirectory path then .ok () else .error error, tree)

/-- Make the first of some directories, where each of the others is the parent
of the one before it.  Parents are made only where one is missing, and they
stay even if the directory itself cannot be made. -/
def createChain (tree : FileTree) : List String → Except FileError Unit × FileTree
  | [] => (.error (.other "failed to create whole tree"), tree)
  | path :: parents =>
    if path = "" then (.ok (), tree)
    else
      match tree.createDirectory path with
      | .error .notFound =>
        match tree.createChain parents with
        | (.ok (), above) => above.settle path (above.createDirectory path)
        | failed => failed
      | result => tree.settle path result

/-- Make a directory and all missing directories above it. -/
def createDirectories (path : String) : StateM FileTree (Except FileError Unit) := fun tree =>
  tree.createChain (Path.ancestors path)

/-- The location of a path as a text, if something is there. -/
def location? (tree : FileTree) (path : String) : Option String :=
  match tree.locate path with
  | .ok location => if (tree.node? location).isSome then some ("/".intercalate location) else none
  | .error _ => none

/-- Replace the tree by the outcome of an operation, unless it failed. -/
def change (operation : FileTree → Except FileError FileTree) :
    StateM FileTree (Except FileError Unit) := fun tree =>
  match operation tree with
  | .ok later => (.ok (), later)
  | .error error => (.error error, tree)

instance : Files (StateM FileTree) where
  isFile path := fun tree => (tree.isFile path, tree)
  isDirectory path := fun tree => (tree.isDirectory path, tree)
  read path := fun tree => (tree.read path, tree)
  write path text := change fun tree => tree.write path text
  list path := fun tree => (tree.list path, tree)
  createDirectories path := createDirectories path
  remove path := change fun tree => tree.remove path
  location? path := fun tree => (tree.location? path, tree)

/-- Put something at a path, together with the missing directories above it.
Where that is not possible the tree keeps what it holds. -/
def place (tree : FileTree) (path : String) (node : FileNode) : FileTree :=
  if node = .directory then (createDirectories path tree).2
  else
    let above :=
      match Path.parent? path with
      | none | some "" => tree
      | some parent => (createDirectories parent tree).2
    (above.writeNode path node).toOption.getD above

/-- The files below the working directory, by their paths from there. -/
def files (tree : FileTree) : List (String × FileNode) :=
  (tree.nodes.filter fun (location, node) =>
    node != .directory && tree.workingDirectory.isPrefixOf location).map fun (location, node) =>
      ("/".intercalate (location.drop tree.workingDirectory.length), node)

/-- The files below the working directory that have become different, and
those that are gone, with nothing behind their paths. -/
def changes (before after : FileTree) : List (String × Option FileNode) :=
  let different := after.files.filter fun file => !before.files.contains file
  let gone := before.files.filter fun file => !after.files.any fun kept => kept.1 == file.1
  different.map (fun (path, node) => (path, some node)) ++ gone.map fun (path, _) => (path, none)

end FileTree

end ErrorAccessors
