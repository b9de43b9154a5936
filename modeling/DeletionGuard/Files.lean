import DeletionGuard.Text.Utf8

/-!
# Files

What stands at a path, and a store of files that paths are looked up in. A path is a list of names
between slashes; all but the last must name directories, and so must the last if a slash follows
it.
-/

namespace DeletionGuard

/-- Why nothing can be read at a path. -/
inductive PathFault where
  | notFound
  | notDirectory
  | isDirectory
  | nameTooLong
  | nulInPath
  | permissionDenied
  | inputOutput
  deriving DecidableEq, Repr

def PathFault.message : PathFault → String
  | notFound => "No such file or directory (os error 2)"
  | notDirectory => "Not a directory (os error 20)"
  | isDirectory => "Is a directory (os error 21)"
  | nameTooLong => "File name too long (os error 36)"
  | nulInPath => "file name contained an unexpected NUL byte"
  | permissionDenied => "Permission denied (os error 13)"
  | inputOutput => "Input/output error (os error 5)"

/-- What stands at a path. A device can be read but is no regular file, and there are regular files
that cannot be read. -/
inductive Lookup where
  | regular (bytes : List UInt8)
  | unreadable (fault : PathFault)
  | device (bytes : List UInt8)
  | directory
  | missing (fault : PathFault)
  deriving DecidableEq, Repr

/-- What is read at a path. -/
def Lookup.read : Lookup → Except PathFault (List UInt8)
  | regular bytes => .ok bytes
  | unreadable fault => .error fault
  | device bytes => .ok bytes
  | directory => .error .isDirectory
  | missing fault => .error fault

/-- Where a walk along a path starts. -/
inductive Anchor where
  | working
  | root
  | outside
  deriving DecidableEq, Repr

/-- A place in the tree of files, named from an anchor. -/
structure Location where
  anchor : Anchor
  names : List String
  deriving DecidableEq, Repr

namespace Location

/-- The directory that holds a place; what holds the working directory is not part of a store. -/
def parent (l : Location) : Location :=
  match l.names, l.anchor with
  | [], .root => l
  | [], _ => ⟨.outside, []⟩
  | names, anchor => ⟨anchor, names.dropLast⟩

def child (l : Location) (name : String) : Location :=
  ⟨l.anchor, l.names ++ [name]⟩

/-- The place one name further along a path. -/
def step (l : Location) (name : String) : Location :=
  if name = "" ∨ name = "." then l
  else if name = ".." then l.parent
  else l.child name

/-- The names along a path, which may be empty. -/
def namesIn (path : String) : List String :=
  path.splitOn "/"

def anchorOf (path : String) : Anchor :=
  if path.startsWith "/" then .root else .working

/-- The place that a path names if everything on the way is there. -/
def ofPath (path : String) : Location :=
  (namesIn path).foldl step ⟨anchorOf path, []⟩

end Location

/-- What a store holds at a place. -/
inductive Entry where
  | file (bytes : List UInt8)
  | device (bytes : List UInt8)
  | directory
  deriving DecidableEq, Repr

/-- The entries of a tree of files, later ones hiding earlier ones of the same place. -/
structure FileStore where
  entries : List (Location × Entry)

namespace FileStore

/-- An empty working directory; besides it there is only the device that is always empty. -/
def empty : FileStore where
  entries := [(⟨.root, ["dev"]⟩, .directory), (⟨.root, ["dev", "null"]⟩, .device [])]

/-- The greatest length of a name, and the least length that is too long for a path. -/
def maxName : Nat := 255
def pathLimit : Nat := 4096

def entry? (fs : FileStore) (l : Location) : Option Entry :=
  if l.names.isEmpty then some .directory else fs.entries.lookup l

def put (fs : FileStore) (l : Location) (e : Entry) : FileStore :=
  ⟨(l, e) :: fs.entries⟩

/-- Makes the directories at the first `n` names of a place, as far as they are missing. -/
def makeDirectories (fs : FileStore) (l : Location) (n : Nat) : FileStore :=
  (List.range (n + 1)).foldl (fun fs k =>
    let place : Location := ⟨l.anchor, l.names.take k⟩
    if (fs.entry? place).isSome then fs else fs.put place .directory) fs

/-- Makes a directory and those around it. -/
def makeDirectory (fs : FileStore) (path : String) : FileStore :=
  let l := Location.ofPath path
  fs.makeDirectories l l.names.length

/-- Writes a file, and makes the directories around it. -/
def write (fs : FileStore) (path : String) (bytes : List UInt8) : FileStore :=
  let l := Location.ofPath path
  (fs.makeDirectories l (l.names.length - 1)).put l (.file bytes)

def remove (fs : FileStore) (path : String) : FileStore :=
  let l := Location.ofPath path
  ⟨fs.entries.filter (·.1 != l)⟩

/-- Walks along names from a place. -/
def walk (fs : FileStore) : List String → Location → Lookup
  | [], l =>
    match fs.entry? l with
    | some (.file bytes) => .regular bytes
    | some (.device bytes) => .device bytes
    | some .directory => .directory
    | none => .missing .notFound
  | name :: names, l =>
    match fs.entry? l with
    | none => .missing .notFound
    | some .directory =>
      if maxName < name.utf8ByteSize then .missing .nameTooLong else fs.walk names (l.step name)
    | some _ => .missing .notDirectory

/-- What stands at a path. -/
def lookup (fs : FileStore) (path : String) : Lookup :=
  if path.contains (Char.ofNat 0) then .missing .nulInPath
  else if path = "" then .missing .notFound
  else if pathLimit ≤ path.utf8ByteSize then .missing .nameTooLong
  else fs.walk (Location.namesIn path) ⟨Location.anchorOf path, []⟩

end FileStore

end DeletionGuard
