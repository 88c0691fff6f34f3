/-!
A tree of directories and files. Names lead to directories and to files; the bytes of a file stay in reach
of those who have it open when its name is removed.
-/

namespace GraphBench

/-- The text of a path, with names separated by `/`. -/
abbrev Path := String

namespace Path

def isAbsolute (path : Path) : Bool :=
  path.startsWith "/"

def names (path : Path) : List String :=
  namesFrom [] path.toList
where
  namesFrom (begun : List Char) : List Char → List String
    | [] => [String.ofList begun.reverse]
    | c :: cs =>
      if c = '/' then String.ofList begun.reverse :: namesFrom [] cs else namesFrom (c :: begun) cs

def join (directory : Path) (name : String) : Path :=
  if isAbsolute name ∨ directory = "" then name
  else if directory.endsWith "/" then directory ++ name
  else directory ++ "/" ++ name

end Path

/-- The names that lead from the root of the tree to a place in it. -/
abbrev Location := List String

inductive Entry where
  | directory
  | file (number : Nat)
  deriving DecidableEq

/-- The named directories and files, the bytes of every file ever made, and the place where relative paths
begin. -/
structure Disk where
  entries : List (Location × Entry)
  contents : Array ByteArray
  working : Location

namespace Disk

/-- A tree whose only entries are the directories on the way to the working directory. -/
def rootedAt (working : Location) : Disk :=
  ⟨(List.range (working.length + 1)).map fun n => (working.take n, .directory), #[], working⟩

def entryAt? (disk : Disk) (location : Location) : Option Entry :=
  disk.entries.lookup location

/-- Follows names from a place on. All places on the way, except for the last one, must be directories. -/
def follow? (disk : Disk) (location : Location) : List String → Option Location
  | [] => some location
  | name :: names =>
    if disk.entryAt? location = some .directory then
      if name = "" ∨ name = "." then disk.follow? location names
      else if name = ".." then disk.follow? location.dropLast names
      else disk.follow? (location ++ [name]) names
    else none

def origin (disk : Disk) (path : Path) : Location :=
  if path.isAbsolute then [] else disk.working

/-- The place that a path leads to, whether or not there is an entry. -/
def locate? (disk : Disk) (path : Path) : Option Location :=
  if path = "" then none else disk.follow? (disk.origin path) path.names

def entry? (disk : Disk) (path : Path) : Option Entry :=
  (disk.locate? path).bind disk.entryAt?

def exists? (disk : Disk) (path : Path) : Bool :=
  (disk.entry? path).isSome

def isDirectory (disk : Disk) (path : Path) : Bool :=
  disk.entry? path = some .directory

def bytes (disk : Disk) (number : Nat) : ByteArray :=
  disk.contents.getD number .empty

def read? (disk : Disk) (path : Path) : Option ByteArray :=
  match disk.entry? path with
  | some (.file number) => some (disk.bytes number)
  | _ => none

/-- The text of the file at a path, if its bytes are valid UTF-8. -/
def readText? (disk : Disk) (path : Path) : Option String :=
  (disk.read? path).bind String.fromUTF8?

/-- Makes the missing directories on the way along some names, as far as no file is in the way. The first part of the
result is whether all of them are there. -/
def makeDirectoriesFrom (disk : Disk) (location : Location) : List String → Bool × Disk
  | [] => (true, disk)
  | name :: names =>
    if name = "" ∨ name = "." then disk.makeDirectoriesFrom location names
    else if name = ".." then disk.makeDirectoriesFrom location.dropLast names
    else
      match disk.entryAt? (location ++ [name]) with
      | some .directory => disk.makeDirectoriesFrom (location ++ [name]) names
      | some (.file _) => (false, disk)
      | none =>
        makeDirectoriesFrom { disk with entries := (location ++ [name], .directory) :: disk.entries }
          (location ++ [name]) names

/-- Makes a directory with all its parents. Parents that have been made stay when a file is in the way. -/
def makeDirectories (disk : Disk) (path : Path) : Bool × Disk :=
  disk.makeDirectoriesFrom (disk.origin path) path.names

/-- Makes a file at a path where there is nothing yet. -/
def create? (disk : Disk) (path : Path) : Option (Nat × Disk) :=
  match disk.locate? path with
  | none => none
  | some location =>
    match disk.entryAt? location with
    | some _ => none
    | none =>
      some (disk.contents.size, { disk with
        entries := (location, .file disk.contents.size) :: disk.entries
        contents := disk.contents.push .empty })

def setBytes (disk : Disk) (number : Nat) (content : ByteArray) : Disk :=
  { disk with contents := disk.contents.setIfInBounds number content }

/-- Replaces the bytes of the file at a path, which is made if there is nothing. -/
def write? (disk : Disk) (path : Path) (content : ByteArray) : Option Disk :=
  match disk.entry? path with
  | some (.file number) => some (disk.setBytes number content)
  | some .directory => none
  | none => (disk.create? path).map fun (number, disk) => disk.setBytes number content

def append (disk : Disk) (number : Nat) (added : ByteArray) : Disk :=
  { disk with contents := disk.contents.modify number (· ++ added) }

def removeFile? (disk : Disk) (path : Path) : Option Disk :=
  match disk.locate? path with
  | none => none
  | some location =>
    match disk.entryAt? location with
    | some (.file _) => some { disk with entries := disk.entries.filter fun entry => entry.1 ≠ location }
    | _ => none

def list (disk : Disk) (path : Path) : List String :=
  match disk.locate? path with
  | none => []
  | some location =>
    disk.entries.filterMap fun entry =>
      if entry.1 ≠ [] ∧ entry.1.dropLast = location then entry.1.getLast? else none

end Disk

end GraphBench
