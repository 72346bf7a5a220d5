/-!
# Reading files

`ReadError` is why a file cannot be read. A `FileTree` is a tree of files held in memory, in which
paths are followed as a file system does.
-/

namespace DocIndex

/-- Why a file cannot be read. -/
inductive ReadError where
  /-- There is nothing at the path. -/
  | notFound
  /-- The path is that of a directory. -/
  | isDirectory
  /-- A part of the path that has to be a directory is a file. -/
  | notDirectory
  /-- The path, or a name in it, is longer than a file system takes. -/
  | nameTooLong
  /-- The path has a null character in it, which no file name has. -/
  | nullInName
  /-- The file was to be text and is not UTF-8. -/
  | notText
  /-- The system gave another reason. -/
  | other (reason : String)
  deriving DecidableEq, Repr

/-- The words for an error. -/
def ReadError.message : ReadError → String
  | notFound => "No such file or directory (os error 2)"
  | isDirectory => "Is a directory (os error 21)"
  | notDirectory => "Not a directory (os error 20)"
  | nameTooLong => "File name too long (os error 36)"
  | nullInName => "file name contained an unexpected NUL byte"
  | notText => "stream did not contain valid UTF-8"
  | other reason => reason

/-- The parts of a path between its slashes. -/
def pathParts (path : String) : List String :=
  (path.toList.splitOn '/').map String.ofList

/-- The extension of a path: what stands behind the last dot of its last part, unless that part has
no dot or only one at its start. -/
def extension? (path : String) : Option String :=
  match ((pathParts path).filter fun part => part ≠ "" && part ≠ ".").getLast? with
  | none => none
  | some part =>
    let behind := part.toList.reverse.takeWhile (· != '.')
    match part.toList.reverse.dropWhile (· != '.') with
    | [] | ['.'] => none
    | _ :: _ => if part = ".." then none else some (String.ofList behind.reverse)

/-- Files by their paths, each path being its parts. Directories are what paths lead through. -/
structure FileTree where
  files : List (List String × List UInt8)

namespace FileTree

/-- The tree with the given files, whose paths are relative. -/
def ofList (files : List (String × List UInt8)) : FileTree :=
  ⟨files.map fun (path, bytes) => ((pathParts path).filter fun part => part ≠ "" && part ≠ ".",
    bytes)⟩

/-- A place that a path can lead to. -/
inductive Place where
  /-- A place in the tree, given by its parts from the tree's own directory down. -/
  | inside (parts : List String)
  /-- A directory around the tree. -/
  | outside
  deriving DecidableEq, Repr

/-- The directory that a place is in. -/
def Place.parent : Place → Place
  | inside [] | outside => outside
  | inside (part :: parts) => inside (part :: parts).dropLast

/-- The place of a name in a directory, if the name can stand for one: around the tree nothing is
known by its name. -/
def Place.child? (name : String) : Place → Option Place
  | inside parts => some (inside (parts ++ [name]))
  | outside => none

/-- What stands at a place: a file or a directory. -/
inductive Node where
  | file (bytes : List UInt8)
  | directory

/-- What stands at a place. The tree's own directory and those around it are always there. -/
def node? (t : FileTree) : Place → Option Node
  | .outside => some .directory
  | .inside parts =>
    match t.files.lookup parts with
    | some bytes => some (.file bytes)
    | none =>
      if parts.isEmpty || t.files.any fun (path, _) => parts.isPrefixOf path then some .directory
      else none

/-- The longest name of a file, in bytes. -/
def longestName : Nat := 255

/-- The longest path, in bytes. -/
def longestPath : Nat := 4095

/-- Follows the parts of a path from a place. A name is looked up only where there is a directory to
look in, so what is wrong there comes before what is wrong with the name. -/
def walk (t : FileTree) (place : Place) : List String → Except ReadError Place
  | [] => .ok place
  | part :: rest =>
    match t.node? place with
    | none => .error .notFound
    | some (.file _) => .error .notDirectory
    | some .directory =>
      if part = "" ∨ part = "." then t.walk place rest
      else if part = ".." then t.walk place.parent rest
      else if longestName < part.utf8ByteSize then .error .nameTooLong
      else
        match place.child? part with
        | none => .error .notFound
        | some child => t.walk child rest

/-- The bytes of the file at a path, which starts at the tree's own directory unless it starts with
a slash. The empty path is that of this directory. -/
def read (t : FileTree) (path : String) : Except ReadError (List UInt8) := do
  if path.toList.contains (Char.ofNat 0) then throw .nullInName
  if longestPath < path.utf8ByteSize then throw .nameTooLong
  let start := if path.toList.head? = some '/' then Place.outside else .inside []
  match t.node? (← t.walk start (pathParts path)) with
  | none => throw .notFound
  | some .directory => throw .isDirectory
  | some (.file bytes) => return bytes

end FileTree

end DocIndex
