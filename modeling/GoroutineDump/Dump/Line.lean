import GoroutineDump.Dump.Error
import GoroutineDump.Goroutine

set_option autoImplicit false
set_option relaxedAutoImplicit false

namespace GoroutineDump.Dump

structure HeaderFields where
  id : List Char
  state : List Char
  minutes : Option (List Char)
  locked : Bool
  deriving DecidableEq, Repr

namespace HeaderFields

def minutes? (cs : List Char) : Option (List Char) × List Char :=
  match ", ".toList.isPrefixOf? cs >>= takeDigits? with
  | none => (none, cs)
  | some (digits, rest) =>
    match " minutes".toList.isPrefixOf? rest with
    | none => (none, cs)
    | some rest => (some digits, rest)

def locked? (cs : List Char) : Bool × List Char :=
  match ", locked to thread".toList.isPrefixOf? cs with
  | none => (false, cs)
  | some rest => (true, rest)

def isStateChar (c : Char) : Bool := c != ',' && c != ']'

/-- Cuts a header line. The state ends at the first comma or closing bracket. -/
def ofLine? (line : List Char) : Option HeaderFields := do
  let (id, rest) ← "goroutine ".toList.isPrefixOf? line >>= takeDigits?
  let rest ← " [".toList.isPrefixOf? rest
  let (state, rest) := rest.span isStateChar
  let (minutes, rest) := minutes? rest
  let (locked, rest) := locked? rest
  if state ≠ [] ∧ rest = "]:".toList then some ⟨id, state, minutes, locked⟩ else none

end HeaderFields

structure Header where
  id : UInt64
  state : String
  blocked : Duration
  locked : Bool
  deriving DecidableEq, Repr

def Header.read (line : List Char) : Except Error Header := do
  let some fields := HeaderFields.ofLine? line | throw (.malformedHeader (String.ofList line))
  let id ← readNumber .goroutineId fields.id line
  let blocked ← match fields.minutes with
    | none => pure Duration.zero
    | some digits => Duration.ofMinutes <$> readNumber .blockDuration digits line
  return ⟨id, String.ofList fields.state, blocked, fields.locked⟩

def fromSlash : List Char → Option (List Char)
  | '/' :: rest => some ('/' :: rest)
  | _ => none

/-- A qualified name, cut into package and method. The package reaches to the first dot after the
last slash; without such a dot it ends before the slash, which then begins the method. -/
def splitQualifiedName (name : List Char) : List Char × List Char :=
  let (directory, tail) := (Text.lastCut fromSlash name).getD ([], name)
  match tail.span (· != '.') with
  | (base, '.' :: method) => (directory ++ base, method)
  | _ => (directory, tail)

/-- What a line that names a call says: the call, and the goroutine that made it as an origin. -/
structure CallLine where
  call : Call
  parent : Option UInt64
  deriving DecidableEq, Repr

namespace CallLine

def originMark : List Char := "created by ".toList

def parentDigits? (cs : List Char) : Option (List Char) := do
  let (digits, rest) ← " in goroutine ".toList.isPrefixOf? cs >>= takeDigits?
  if rest = [] then some digits else none

/-- The name in an origin line and the digits of the parent, where it names one. A name that holds a
line feed names no parent. -/
def cutParent (cs : List Char) : List Char × Option (List Char) :=
  match Text.lastCut parentDigits? cs with
  | none => (cs, none)
  | some (name, digits) => if '\n' ∈ name then (cs, none) else (name, some digits)

def arguments? : List Char → Option (List Char)
  | '(' :: rest => if rest.getLast? = some ')' then some rest.dropLast else none
  | _ => none

/-- The name and the arguments of an ordinary call, cut at the last opening parenthesis. -/
def cutArguments? (line : List Char) : Option (List Char × List Char) :=
  if '\n' ∈ line then none else Text.lastCut arguments? line

def readOrigin (line origin : List Char) : Except Error CallLine := do
  let (name, digits) := cutParent origin
  let parent ← digits.mapM (readNumber .parentId · line)
  let (package, method) := splitQualifiedName name
  return ⟨{ package := String.ofList package, method := String.ofList method, origin := true }, parent⟩

def read (line : List Char) : Except Error CallLine :=
  match originMark.isPrefixOf? line with
  | some origin => readOrigin line origin
  | none =>
    match cutArguments? line with
    | none => .error (.malformedCall (String.ofList line))
    | some (name, args) =>
      let (package, method) := splitQualifiedName name
      .ok ⟨⟨String.ofList package, String.ofList method, String.ofList args, "", false⟩, none⟩

end CallLine

structure LocationFields where
  path : List Char
  line : List Char
  extra : List Char
  deriving DecidableEq, Repr

namespace LocationFields

/-- The line number and the extra text of a remainder that starts with a colon. -/
def lineAndExtra? : List Char → Option (List Char × List Char)
  | ':' :: rest =>
    match takeDigits? rest with
    | some (digits, []) => some (digits, [])
    | some (digits, ' ' :: extra) => some (digits, extra)
    | _ => none
  | _ => none

/-- Cuts a location line at the last colon that a line number follows. -/
def ofLine? : List Char → Option LocationFields
  | '\t' :: cs =>
    if '\n' ∈ cs then none
    else (Text.lastCut lineAndExtra? cs).map fun (path, line, extra) => ⟨path, line, extra⟩
  | _ => none

end LocationFields

structure LocationLine where
  location : Location
  extra : String
  deriving DecidableEq, Repr

/-- Reads a location line. The path is looked up before the line number is read. -/
def LocationLine.read (roots : Roots) (line : List Char) : Except Error LocationLine := do
  let some fields := LocationFields.ofLine? line | throw (.malformedLocation (String.ofList line))
  let path := String.ofList fields.path
  let some (tree, file) := roots.classify path | throw (.unknownRoot path)
  let number ← readNumber .lineNumber fields.line line
  return ⟨⟨tree, file, number⟩, String.ofList fields.extra⟩

end GoroutineDump.Dump
