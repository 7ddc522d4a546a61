import GoroutineDump.Text

set_option autoImplicit false
set_option relaxedAutoImplicit false

namespace GoroutineDump.Path

def isSeparator (c : Char) : Bool := c == '/' || c == '\\'

def components (cs : List Char) : List (List Char) := cs.splitOnP isSeparator

def parent : List Char := ['.', '.']

/-- A directory: whether it hangs from the root, and the names that lead to it. -/
structure Directory where
  absolute : Bool
  names : List (List Char)
  deriving DecidableEq, Repr

namespace Directory

/-- One more component on top of a stack of names, the innermost name first. Going up from the root
stays at the root; going up from an empty relative path, or from one that already leads up, is kept. -/
def enter (absolute : Bool) (stack : List (List Char)) (component : List Char) :
    List (List Char) :=
  if component = [] ∨ component = ['.'] then stack
  else if component = parent then
    match stack with
    | [] => if absolute then [] else [parent]
    | top :: below =>
      if top = parent then if absolute then stack else parent :: stack else below
  else component :: stack

def ofPath (cs : List Char) : Directory :=
  let absolute := cs.head?.any isSeparator
  ⟨absolute, ((components cs).foldl (enter absolute) []).reverse⟩

/-- The directory as text: each name is followed by a slash, and a directory without names is the
root or the current one. -/
def text (d : Directory) : List Char :=
  (if d.absolute then ['/'] else if d.names = [] then ['.', '/'] else []) ++
    d.names.flatMap (· ++ ['/'])

end Directory

/-- The canonical form of a directory path. The empty path names no directory and stays empty. -/
def normalize (path : String) : String :=
  if path.isEmpty then "" else String.ofList (Directory.ofPath path.toList).text

/-- The name a path ends in: its last component that is neither empty nor `.`, unless it is `..`. -/
def fileName? (cs : List Char) : Option (List Char) :=
  match (cs.splitOnP (· == '/')).reverse.find? fun name => name ≠ [] ∧ name ≠ ['.'] with
  | some name => if name = ['.', '.'] then none else some name
  | none => none

private def afterDot : List Char → Option (List Char)
  | '.' :: rest => some rest
  | _ => none

/-- What follows the last dot of the file's name, where something precedes that dot. -/
def extension? (cs : List Char) : Option (List Char) := do
  let name ← fileName? cs
  let (stem, rest) ← Text.lastCut afterDot name
  if stem = [] then none else some rest

end GoroutineDump.Path
