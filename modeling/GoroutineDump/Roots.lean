import GoroutineDump.Path

/-!
A dump names source files by absolute paths of the machine that printed it. `Roots.classify`
replaces a path by its tree and its path below the root of the tree, and `Roots.resolve` goes back,
under the same roots or under others.
-/

set_option autoImplicit false
set_option relaxedAutoImplicit false

namespace GoroutineDump

inductive SourceTree
  /-- the inspected program -/
  | project
  /-- the language's own library and runtime -/
  | runtime
  /-- downloaded dependencies -/
  | library
  /-- glue code that the compiler generated; no root holds it -/
  | generated
  deriving DecidableEq, Repr

namespace SourceTree

def name : SourceTree → String
  | .project => "PROJECT"
  | .runtime => "GOROOT"
  | .library => "GOPATH"
  | .generated => "CGO"

def all : List SourceTree := [.project, .runtime, .library, .generated]

def ofName? (s : String) : Option SourceTree := all.find? (·.name == s)

def rank : SourceTree → Nat
  | .project => 0
  | .runtime => 1
  | .library => 2
  | .generated => 3

end SourceTree

/-- The roots of the three configurable trees as path prefixes; an empty one is not configured. -/
structure Roots where
  project : String := ""
  runtime : String := ""
  library : String := ""
  deriving DecidableEq, Repr

namespace Roots

def normalized (r : Roots) : Roots :=
  ⟨Path.normalize r.project, Path.normalize r.runtime, Path.normalize r.library⟩

def ofPaths (project runtime library : String) : Roots := normalized ⟨project, runtime, library⟩

def withDefaults (r d : Roots) : Roots where
  project := if r.project.isEmpty then d.project else r.project
  runtime := if r.runtime.isEmpty then d.runtime else r.runtime
  library := if r.library.isEmpty then d.library else r.library

def isEmpty (r : Roots) : Bool := r.project.isEmpty && r.runtime.isEmpty && r.library.isEmpty

def root (r : Roots) : SourceTree → String
  | .project => r.project
  | .runtime => r.runtime
  | .library => r.library
  | .generated => ""

def generatedMark : List Char := "_cgo_".toList

def searchOrder : List SourceTree := [.project, .runtime, .library]

/-- What follows a root in a path, provided that the root ends where a component ends. -/
def below? (root path : List Char) : Option (List Char) :=
  match root.isPrefixOf? path with
  | none => none
  | some rest =>
    if root.getLast? = some '/' ∨ rest = [] ∨ rest.head? = some '/' then some rest else none

def dropSlashes (cs : List Char) : List Char := cs.dropWhile (· == '/')

def fileIn? (r : Roots) (path : List Char) (tree : SourceTree) : Option (SourceTree × String) :=
  if (r.root tree).isEmpty then none
  else (below? (r.root tree).toList path).map fun rest => (tree, String.ofList (dropSlashes rest))

/-- The tree of a source path and the path below the tree's root. A generated source keeps its
path; otherwise the first configured root that holds the path decides. -/
def classify (r : Roots) (path : String) : Option (SourceTree × String) :=
  if generatedMark.isPrefixOf path.toList then some (.generated, path)
  else searchOrder.findSome? (r.fileIn? path.toList)

/-- The path of a file of a tree. Without a root the file's own path stands. -/
def resolve (r : Roots) (tree : SourceTree) (file : String) : String :=
  let root := (r.root tree).toList
  if root.isEmpty then file
  else
    String.ofList
      (root ++ (if root.getLast? = some '/' then [] else ['/']) ++ dropSlashes file.toList)

end Roots

end GoroutineDump
