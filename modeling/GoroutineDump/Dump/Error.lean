import GoroutineDump.Text.Notation

set_option autoImplicit false
set_option relaxedAutoImplicit false

namespace GoroutineDump.Dump

/-- The numbers that the lines of a dump hold. -/
inductive NumericField
  | goroutineId
  | blockDuration
  | parentId
  | lineNumber
  deriving DecidableEq, Repr

def NumericField.name : NumericField → String
  | .goroutineId => "goroutine ID"
  | .blockDuration => "block duration"
  | .parentId => "parent goroutine ID"
  | .lineNumber => "goroutine line"

inductive Error
  /-- a record starts with a line that is no header -/
  | malformedHeader (line : String)
  /-- neither a call nor the origin of a goroutine -/
  | malformedCall (line : String)
  /-- a call is followed by a line that is no location -/
  | malformedLocation (line : String)
  /-- a record ends after a call -/
  | missingLocation (call : String)
  /-- a number is not written in ASCII digits or does not fit into 64 bits -/
  | invalidNumber (field : NumericField) (digits line : String)
  /-- a source path lies below no configured root -/
  | unknownRoot (path : String)
  /-- a record without frames, or of goroutine 0 -/
  | emptyRecord (record : String)
  /-- the bytes of the dump are not UTF-8 -/
  | notText
  deriving DecidableEq, Repr

namespace Error

def notTextReason : String := "stream did not contain valid UTF-8"

def message : Error → String
  | .malformedHeader line => "did not get expected goroutine header: " ++ line
  | .malformedCall line => "invalid goroutine stack: " ++ line
  | .malformedLocation line => "invalid goroutine file: " ++ line
  | .missingLocation call => "missing location line after call: " ++ call
  | .invalidNumber field digits line => "invalid " ++ field.name ++ " " ++ digits ++ ": " ++ line
  | .unknownRoot path => "unknown component path: " ++ Text.quoted path
  | .emptyRecord record => "did not find goroutine data in: " ++ record
  | .notText => "IO error: " ++ notTextReason

/-- The part of the dump that shows the error: a line, a path or a record. -/
def offendingText : Error → Option String
  | .malformedHeader line | .malformedCall line | .malformedLocation line => some line
  | .missingLocation call => some call
  | .invalidNumber _ _ line => some line
  | .unknownRoot path => some path
  | .emptyRecord record => some record
  | .notText => none

end Error

def takeDigits? (cs : List Char) : Option (List Char × List Char) :=
  match cs.span Unicode.isDecimalDigit with
  | ([], _) => none
  | (digits, rest) => some (digits, rest)

def readNumber (field : NumericField) (digits line : List Char) : Except Error UInt64 :=
  match Text.readWord? digits with
  | some n => .ok n
  | none => .error (.invalidNumber field (String.ofList digits) (String.ofList line))

end GoroutineDump.Dump
