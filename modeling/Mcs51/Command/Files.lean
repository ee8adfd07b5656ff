import Mcs51.Text.Basic

/-!
# Files

What the command needs of a file system: reading and writing whole files. A tree of files in memory
is one; a path leads through its directories, and may lead out of it.
-/

namespace Mcs51.Command

/-- Why an operation on a file fails. -/
inductive FileCause where
  | missing
  | notDirectory
  | isDirectory
  | nameTooLong
  | badName
  | other (reason : Text)
  deriving Repr, DecidableEq

def FileCause.message : FileCause → Text
  | .missing => "no such file or directory"
  | .notDirectory => "not a directory"
  | .isDirectory => "is a directory"
  | .nameTooLong => "file name too long"
  | .badName => "invalid argument"
  | .other reason => reason

/-- A failed operation on a file: it could not be opened, or not be read once it was open. -/
structure FileError where
  opened : Bool
  path : Text
  cause : FileCause
  deriving Repr, DecidableEq

def FileError.message (e : FileError) : Text :=
  (if e.opened then Text.ofString "read " else Text.ofString "open ") ++ e.path
    ++ Text.ofString ": " ++ e.cause.message

/-- Reading and writing of files. -/
structure Files (m : Type → Type) where
  read : Text → m (Except FileError Text)
  write : Text → Text → m (Except FileError Unit)

/-! ## Files in memory -/

/-- Files by the parts of their paths from the working directory. -/
structure FileTree where
  files : List (List Text × Text) := []
  deriving Repr, DecidableEq

namespace FileTree

/-- What a path leads to. -/
inductive Node where
  | file (contents : Text)
  | directory
  | nothing
  /-- A file that is always empty, whatever is written to it. -/
  | sink
  deriving Repr, DecidableEq

/-- A place that a path leads to. Only the places below the working directory are in the tree. -/
inductive Place where
  | below (parts : List Text)
  /-- A directory that the working directory is in. -/
  | above
  /-- A place by its parts from the root of all directories. -/
  | absolute (parts : List Text)
  /-- A place outside that nobody knows of. -/
  | unknown
  deriving Repr, DecidableEq

def slash : UInt8 := 0x2f
def here : Text := "."
def parent : Text := ".."

/-- The longest name of a file. -/
def nameLimit : Nat := 255

/-- The longest path. -/
def pathLimit : Nat := 4095

/-- The directories that every system has at its root. -/
def rootDirectories : List Text :=
  ["bin", "dev", "etc", "home", "lib", "media", "mnt", "opt", "proc", "root", "run", "sbin", "srv",
    "sys", "tmp", "usr", "var"]

/-- What stands at a place. A directory of the tree is there as long as a file is in it; of what is
outside, only the directories at the root and the null device are known. -/
def node (t : FileTree) : Place → Node
  | .below parts => match t.files.lookup parts with
    | some contents => .file contents
    | none =>
      if parts.isEmpty || t.files.any fun entry => parts.isPrefixOf entry.1 then .directory
      else .nothing
  | .above => .directory
  | .absolute [] => .directory
  | .absolute [part] => if rootDirectories.contains part then .directory else .nothing
  | .absolute [dev, null] =>
    if dev == Text.ofString "dev" && null == Text.ofString "null" then .sink else .nothing
  | .absolute _ => .nothing
  | .unknown => .nothing

/-- The parts of a path, and whether it must lead to a directory because a slash ends it. -/
def partsOf (path : Text) : List Text × Bool :=
  ((Text.splitOn slash path).filter fun part => !part.isEmpty, path.getLast? == some slash)

/-- The place with the given name in a directory. -/
def Place.child (name : Text) : Place → Place
  | .below parts => .below (parts ++ [name])
  | .absolute parts => .absolute (parts ++ [name])
  | .above | .unknown => .unknown

/-- The directory that a directory is in; the root is in itself. -/
def Place.parent : Place → Place
  | .below [] => .above
  | .below parts => .below parts.dropLast
  | .absolute parts => .absolute parts.dropLast
  | .above => .above
  | .unknown => .unknown

/-- Follows parts from a directory up to the last one, which need not be there. With `isDirectory`
set, even the last one is not looked up. -/
def follow (t : FileTree) (isDirectory : Bool) : Place → List Text → Except FileCause Place
  | place, [] => .ok place
  | place, part :: rest =>
    if part == here then follow t isDirectory place rest
    else if part == parent then follow t isDirectory place.parent rest
    else if nameLimit < part.length && !(isDirectory && rest.isEmpty) then .error .nameTooLong
    else
      let next := place.child part
      match t.node next, rest with
      | _, [] => .ok next
      | .directory, _ => follow t isDirectory next rest
      | .file _, _ | .sink, _ => .error .notDirectory
      | .nothing, _ => .error .missing

/-- The place that a path leads to. -/
def resolve (t : FileTree) (path : Text) (isDirectory : Bool) : Except FileCause Place :=
  if path.contains 0 then .error .badName
  else if path.isEmpty then .error .missing
  else if pathLimit < path.length then .error .nameTooLong
  else
    let start := if path.head? == some slash then .absolute [] else .below []
    t.follow isDirectory start (partsOf path).1

/-- Reads a file. A directory can be opened but not read. -/
def read (t : FileTree) (path : Text) : Except FileError Text :=
  match t.resolve path false with
  | .error cause => .error ⟨false, path, cause⟩
  | .ok place =>
    let opened (contents : Text) : Except FileError Text :=
      if (partsOf path).2 then .error ⟨false, path, .notDirectory⟩ else .ok contents
    match t.node place with
    | .directory => .error ⟨true, path, .isDirectory⟩
    | .nothing => .error ⟨false, path, .missing⟩
    | .file contents => opened contents
    | .sink => opened []

/-- Puts a file at a place. What is put outside the tree leaves no trace in it. -/
def put (t : FileTree) (contents : Text) : Place → FileTree
  | .below parts => ⟨(parts, contents) :: t.files.filter fun entry => entry.1 != parts⟩
  | _ => t

/-- Writes a file, in place of the one that was there. A path that ends in a slash is refused
whether or not something is there. -/
def write (t : FileTree) (path contents : Text) : Except FileError FileTree :=
  match t.resolve path (partsOf path).2 with
  | .error cause => .error ⟨false, path, cause⟩
  | .ok place =>
    if (partsOf path).2 || t.node place == .directory then .error ⟨false, path, .isDirectory⟩
    else .ok (t.put contents place)

/-- A tree of files given by their paths. -/
def ofList (files : List (Text × Text)) : FileTree :=
  ⟨files.map fun (path, contents) => ((partsOf path).1.filter (· != here), contents)⟩

/-- The files by their paths. -/
def toList (t : FileTree) : List (Text × Text) :=
  t.files.map fun (parts, contents) => (Text.joinWith [slash] parts, contents)

/-- The tree that an action leaves behind is its state. -/
def access : Files (StateM FileTree) where
  read path := do return (← get).read path
  write path contents := do
    match (← get).write path contents with
    | .error e => return .error e
    | .ok t => do
      set t
      return .ok ()

end FileTree
end Mcs51.Command
