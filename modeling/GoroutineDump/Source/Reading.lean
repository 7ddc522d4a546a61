set_option autoImplicit false
set_option relaxedAutoImplicit false

namespace GoroutineDump.Source

inductive ReadFault
  /-- a collection of sources holds none under this path -/
  | unknownSource (path : String)
  /-- no file has this path -/
  | missing
  /-- a file stands where the path needs a directory -/
  | notADirectory
  /-- the path leads to a directory -/
  | isADirectory
  /-- no path can hold the character NUL -/
  | nulInPath
  /-- the system gives a reason of its own -/
  | system (reason : String)
  deriving DecidableEq, Repr

def ReadFault.message : ReadFault → String
  | .unknownSource path => "no such source: " ++ path
  | .missing => "No such file or directory (os error 2)"
  | .notADirectory => "Not a directory (os error 20)"
  | .isADirectory => "Is a directory (os error 21)"
  | .nulInPath => "file name contained an unexpected NUL byte"
  | .system reason => reason

abbrev ReadAnswer := Except ReadFault (List UInt8)

/-- Sources under their paths; no path has two of them. -/
structure Collection where
  entries : List (String × List UInt8) := []
  deriving DecidableEq, Repr

namespace Collection

def find? (c : Collection) (path : String) : Option (List UInt8) := c.entries.lookup path

def erase (c : Collection) (path : String) : Collection :=
  ⟨c.entries.filter fun entry => entry.1 != path⟩

/-- The collection with a source under a path, in place of the one before. -/
def insert (c : Collection) (path : String) (bytes : List UInt8) : Collection :=
  ⟨(path, bytes) :: (c.erase path).entries⟩

def read (c : Collection) (path : String) : ReadAnswer :=
  match c.find? path with
  | some bytes => .ok bytes
  | none => .error (.unknownSource path)

end Collection

end GoroutineDump.Source

namespace GoroutineDump.Files

open Source (ReadFault ReadAnswer)

/-- A place in a tree: the names that lead to it from the top, the innermost name first. -/
abbrev Place := List (List Char)

/-- A tree as the files and the directories in it; the top is a directory in any case. -/
structure Tree where
  files : List (Place × List UInt8) := []
  directories : List Place := []
  deriving DecidableEq, Repr

namespace Tree

def isDirectory (t : Tree) (place : Place) : Bool := place = [] || t.directories.contains place

def file? (t : Tree) (place : Place) : Option (List UInt8) := t.files.lookup place

def enter (place : Place) (name : List Char) : Place :=
  if name = [] ∨ name = ['.'] then place
  else if name = ['.', '.'] then place.tail
  else name :: place

/-- The place that names lead to; only the last one need not be a directory. -/
def walk (t : Tree) (place : Place) : List (List Char) → Except ReadFault Place
  | [] => .ok place
  | name :: names =>
    if t.isDirectory place then walk t (enter place name) names
    else if (t.file? place).isSome then .error .notADirectory
    else .error .missing

def names (path : String) : List (List Char) := path.toList.splitOnP (· == '/')

def isAbsolute (path : String) : Bool := path.toList.head? = some '/'

def locate (t : Tree) (here : Place) (path : String) : Except ReadFault Place :=
  if path.isEmpty then .error .missing
  else if path.toList.contains '\x00' then .error .nulInPath
  else walk t (if isAbsolute path then [] else here) (names path)

def read (t : Tree) (here : Place) (path : String) : ReadAnswer := do
  let place ← t.locate here path
  match t.file? place with
  | some bytes => .ok bytes
  | none => .error (if t.isDirectory place then .isADirectory else .missing)

/-- The tree with a directory at a place and at every place on the way to it. -/
def addDirectory (t : Tree) : Place → Tree
  | [] => t
  | name :: above =>
    let t := t.addDirectory above
    if t.isDirectory (name :: above) then t
    else { t with directories := (name :: above) :: t.directories }

/-- Walks along names and makes the directories that are missing on the way. -/
def walkMaking (t : Tree) (place : Place) : List (List Char) → Option (Tree × Place)
  | [] => some (t, place)
  | name :: names =>
    if (t.file? place).isSome then none else walkMaking (t.addDirectory place) (enter place name) names

/-- The tree with a file at a path; the directories that it needs are made. Nothing can be written
where a directory is or where the way leads through a file. -/
def write? (t : Tree) (here : Place) (path : String) (bytes : List UInt8) : Option Tree := do
  let (t, place) ← t.walkMaking (if isAbsolute path then [] else here) (names path)
  if t.isDirectory place then none
  else some { t with files := (place, bytes) :: t.files.filter fun entry => entry.1 != place }

def remove? (t : Tree) (here : Place) (path : String) : Option Tree :=
  match t.locate here path with
  | .error _ => none
  | .ok place =>
    if (t.file? place).isSome then
      some { t with files := t.files.filter fun entry => entry.1 != place }
    else none

end Tree

end GoroutineDump.Files
