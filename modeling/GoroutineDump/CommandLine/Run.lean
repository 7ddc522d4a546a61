import GoroutineDump.CommandLine.Arguments
import GoroutineDump.Dump.Record
import GoroutineDump.Highlight.Pass
import GoroutineDump.Json.Printer
import GoroutineDump.Wire.Settings

set_option autoImplicit false
set_option relaxedAutoImplicit false

namespace GoroutineDump.CommandLine

open Source (ReadAnswer ReadFault)

inductive Fault
  | unreadableConfig (path : String) (cause : ReadFault)
  | configNotText (path : String)
  | invalidConfig (path : String)
  | invalidVariable (error : VariableError)
  | unusableSettings (fault : SettingsFault)
  | unreadableDump (path : String) (cause : ReadFault)
  | invalidDump (error : Dump.Error)
  | noHighlight (failure : Highlight.Failure)
  deriving DecidableEq, Repr

namespace Fault

def notSettings : String := "Invalid stackscope config"

def headline : Fault → String
  | .unreadableConfig path _ | .configNotText path => "Failed to read config " ++ path
  | .invalidConfig path => "Invalid " ++ path
  | .invalidVariable error => error.message
  | .unusableSettings fault => fault.message
  | .unreadableDump path _ => "Failed to read dump " ++ path
  | .invalidDump _ => "Failed to parse dump"
  | .noHighlight _ => "Failed to highlight call sites"

def causes : Fault → List String
  | .unreadableConfig _ cause | .unreadableDump _ cause => [cause.message]
  | .configNotText _ => [Dump.Error.notTextReason]
  | .invalidConfig _ => [notSettings, "TOML parse error"]
  | .invalidVariable error => [error.fault.message]
  | .unusableSettings _ => []
  | .invalidDump .notText => [Dump.Error.notText.message, Dump.Error.notTextReason]
  | .invalidDump error => [error.message]
  | .noHighlight (.unreadable path cause) =>
    [(Highlight.Failure.unreadable path cause).message, cause.message]
  | .noHighlight failure => [failure.message]

end Fault

/-- A text behind a mark, with its further lines indented to the same column. -/
def indented (mark : String) (text : String) : String :=
  let continuation := '\n' :: List.replicate mark.length ' '
  mark ++ String.ofList (text.toList.flatMap fun c => if c = '\n' then continuation else [c])

def causeList : List String → List String
  | [cause] => [indented "    " cause]
  | causes => causes.zipIdx.map fun (cause, i) =>
    let number := toString i
    indented (String.ofList (List.replicate (5 - number.length) ' ') ++ number ++ ": ") cause

def report (f : Fault) : String :=
  "Error: " ++ f.headline ++
    (if f.causes = [] then "" else
      "\n\nCaused by:" ++ String.join ((causeList f.causes).map ("\n" ++ ·))) ++ "\n"

/-- What a command needs to know of the world. -/
structure World (m : Type → Type) where
  fileAt : String → m ReadAnswer
  readInput : m (List UInt8)
  getVariable : String → m (Option String)

structure Exit where
  code : UInt8
  output : String := ""
  /-- what is told on the side; `none` if only messages that are no concern of the command are -/
  complaint : Option String := none
  deriving DecidableEq, Repr

def versionLine : String := "stackscope 0.1.1\n"

def Given.override (g : Given) (s : Settings) : Settings where
  localRoots :=
    ⟨g.root.getD s.localRoots.project, g.goroot.getD s.localRoots.runtime,
      g.gopath.getD s.localRoots.library⟩
  remoteRoots :=
    ⟨g.remoteRoot.getD s.remoteRoots.project, g.remoteGoroot.getD s.remoteRoots.runtime,
      g.remoteGopath.getD s.remoteRoots.library⟩
  markup := ⟨g.markupLimit.getD s.markup.limit, g.wrap.getD s.markup.context⟩
  minMinutes := g.minMinutes.or s.minMinutes
  maxMinutes := g.maxMinutes.or s.maxMinutes
  tabWidth := s.tabWidth

/-- A path that stands for the standard input: a hyphen, behind which there may be nothing but
slashes and dots that lead nowhere else. -/
def isStandardInput (path : String) : Bool :=
  match path.toList.splitOnP (· == '/') with
  | first :: others => first = ['-'] && others.all fun name => name = [] || name = ['.']
  | [] => false

def goroutinesOf (s : Settings) (bytes : List UInt8) : Except Dump.Error (List Goroutine) := do
  let gs ← Dump.parseBytes s.dumpRoots bytes
  return (s.blockedRange.select (sortGoroutines gs)).1

variable {m : Type → Type} [Monad m]

def loadSettings (world : World m) (path : String) : ExceptT Fault m Settings := do
  match ← world.fileAt path with
  | .error cause => throw (.unreadableConfig path cause)
  | .ok bytes =>
    match Text.decodeUtf8 bytes with
    | .error _ => throw (.configNotText path)
    | .ok text =>
      match Settings.ofToml? text with
      | none => throw (.invalidConfig path)
      | some s => return s

def settingsFor (world : World m) (given : Given) : ExceptT Fault m Settings := do
  let s ← match given.config with
    | none => pure {}
    | some path => loadSettings world path
  let values ← Settings.variableNames.mapM fun name => return (name, ← world.getVariable name)
  let s ← match s.withVariables fun name => (values.lookup name).join with
    | .ok s => pure s
    | .error e => throw (.invalidVariable e)
  let s := given.override s
  match s.fault? with
  | none => return s
  | some fault => throw (.unusableSettings fault)

def readDump (world : World m) : Option String → ExceptT Fault m (List UInt8)
  | none => world.readInput
  | some path => do
    if isStandardInput path then world.readInput
    else match ← world.fileAt path with
      | .ok bytes => return bytes
      | .error cause => throw (.unreadableDump path cause)

def resultOf (world : World m) (command : Command) (s : Settings) (gs : List Goroutine) :
    ExceptT Fault m Json :=
  match command with
  | .group => return .list StackGroup.toJson (groupByStack gs)
  | .parse => do
    let h : Highlight.Highlighter := ⟨s.sourceRoots, s.renderOptions⟩
    let pass := Highlight.enrich h world.fileAt {} {} s.markup gs
    match (← pass).1 with
    | .ok gs => return .list Goroutine.toJson gs
    | .error failure => throw (.noHighlight failure)

def perform (world : World m) (command : Command) (given : Given) : ExceptT Fault m String := do
  let s ← settingsFor world given
  let bytes ← readDump world given.input
  match goroutinesOf s bytes with
  | .error e => throw (.invalidDump e)
  | .ok gs =>
    let result ← resultOf world command s gs
    return (if given.pretty then result.indented else result.compact) ++ "\n"

def run (world : World m) (arguments : List String) : m Exit := do
  match Request.ofArguments arguments with
  | .misuse => return { code := 2 }
  | .help => return { code := 0 }
  | .version => return { code := 0, output := versionLine }
  | .run command given =>
    match ← (perform world command given).run with
    | .ok output => return { code := 0, output }
    | .error fault => return { code := 1, complaint := some (report fault) }

end GoroutineDump.CommandLine
