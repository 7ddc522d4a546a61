import GoroutineDump.Highlight.Listing

set_option autoImplicit false
set_option relaxedAutoImplicit false

namespace GoroutineDump

open Highlight (MarkupOptions RenderOptions)

/-- What can be configured. Without any configuration nothing is marked up. -/
structure Settings where
  /-- the roots of the sources on this machine -/
  localRoots : Roots := {}
  /-- the roots as a dump has them, where they differ from the local ones -/
  remoteRoots : Roots := {}
  markup : MarkupOptions := { limit := 0, context := -1 }
  /-- for how many minutes a goroutine of interest has been blocked at least -/
  minMinutes : Option UInt64 := none
  /-- for how many minutes a goroutine of interest has been blocked at most -/
  maxMinutes : Option UInt64 := none
  tabWidth : UInt64 := 3
  deriving DecidableEq, Repr

/-- A variable of the environment that should be a number. -/
structure VariableError where
  name : String
  value : String
  /-- what the number stands for -/
  meaning : String
  fault : Text.NumberFault
  deriving DecidableEq, Repr

def VariableError.message (e : VariableError) : String :=
  e.name ++ "=" ++ e.value ++ " is not a " ++ e.meaning

inductive SettingsFault
  /-- a root is no absolute path -/
  | relativeRoot (side root path : String)
  /-- no goroutine can be within the bounds -/
  | emptyRange (min max : UInt64)
  /-- excerpts cannot be rendered as wanted -/
  | rendering (problem : String)
  deriving DecidableEq, Repr

def SettingsFault.message : SettingsFault → String
  | .relativeRoot side root path =>
    side ++ "." ++ root ++ " must be an absolute path, got " ++ Text.quoted path
  | .emptyRange min max =>
    "filter.min_minutes (" ++ toString min.toNat ++ ") exceeds filter.max_minutes (" ++
      toString max.toNat ++ ")"
  | .rendering problem => problem

namespace Settings

def variableNames : List String :=
  ["STACKSCOPE_ROOT", "STACKSCOPE_GOROOT", "STACKSCOPE_GOPATH", "STACKSCOPE_MARKUP_LIMIT",
    "STACKSCOPE_WRAP"]

/-- The value of a variable without the white space around it; a blank one counts as not set. -/
def setting? (lookup : String → Option String) (name : String) : Option String := do
  let value := Unicode.trim (← lookup name).toList
  if value = [] then none else some (String.ofList value)

def number {α : Type} (lookup : String → Option String) (name meaning : String)
    (read : List Char → Except Text.NumberFault α) : Except VariableError (Option α) :=
  match setting? lookup name with
  | none => .ok none
  | some value =>
    match read value.toList with
    | .ok n => .ok (some n)
    | .error fault => .error ⟨name, value, meaning, fault⟩

def withVariables (lookup : String → Option String) (s : Settings) :
    Except VariableError Settings := do
  let roots : Roots := {
    project := (setting? lookup "STACKSCOPE_ROOT").getD s.localRoots.project
    runtime := (setting? lookup "STACKSCOPE_GOROOT").getD s.localRoots.runtime
    library := (setting? lookup "STACKSCOPE_GOPATH").getD s.localRoots.library }
  let limit ← number lookup "STACKSCOPE_MARKUP_LIMIT" "count" Text.readUnsigned
  let context ← number lookup "STACKSCOPE_WRAP" "line count" Text.readSigned
  return { s with
    localRoots := roots
    markup := ⟨limit.getD s.markup.limit, context.getD s.markup.context⟩ }

/-- A root that is configured has to start at the top of a file system. -/
def isUsableRoot (path : String) : Bool := path.isEmpty || path.toList.head? = some '/'

def rootFault? (side : String) (r : Roots) : Option SettingsFault :=
  [("root", r.project), ("goroot", r.runtime), ("gopath", r.library)].findSome? fun (name, path) =>
    if isUsableRoot path then none else some (.relativeRoot side name path)

def rangeFault? (s : Settings) : Option SettingsFault :=
  match s.minMinutes, s.maxMinutes with
  | some min, some max => if max < min then some (.emptyRange min max) else none
  | _, _ => none

def renderOptions (s : Settings) : RenderOptions := { tabWidth := s.tabWidth }

/-- The first reason why settings cannot be used; `none` if they can. -/
def fault? (s : Settings) : Option SettingsFault :=
  (rootFault? "local" s.localRoots).or <|
    (rootFault? "remote" s.remoteRoots).or <|
      s.rangeFault?.or (s.renderOptions.problem?.map .rendering)

def sourceRoots (s : Settings) : Roots := s.localRoots.normalized

/-- The roots as a dump has them: the remote ones, and the local ones where those are not set. -/
def dumpRoots (s : Settings) : Roots := s.remoteRoots.normalized.withDefaults s.sourceRoots

def blockedRange (s : Settings) : BlockedRange :=
  ⟨s.minMinutes.map Duration.ofMinutes, s.maxMinutes.map Duration.ofMinutes⟩

end Settings

end GoroutineDump
