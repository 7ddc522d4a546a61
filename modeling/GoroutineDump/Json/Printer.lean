import GoroutineDump.Json.Value
import GoroutineDump.Text.Notation

set_option autoImplicit false
set_option relaxedAutoImplicit false

namespace GoroutineDump.Json

def stringChar (c : Char) : List Char :=
  if c = '\x22' then ['\\', '\x22']
  else if c = '\\' then ['\\', '\\']
  else if c = '\x08' then ['\\', 'b']
  else if c = '\t' then ['\\', 't']
  else if c = '\n' then ['\\', 'n']
  else if c = '\x0c' then ['\\', 'f']
  else if c = '\r' then ['\\', 'r']
  else if c.toNat < 32 then
    ['\\', 'u', '0', '0', Nat.digitChar (c.toNat / 16), Nat.digitChar (c.toNat % 16)]
  else [c]

def printString (s : String) : List Char :=
  '\x22' :: s.toList.flatMap stringChar ++ ['\x22']

def printInt (n : Int) : List Char :=
  if n < 0 then '-' :: Text.digits n.natAbs else Text.digits n.natAbs

/-- A level of nesting in a layout that has one line for each item, or the layout that has one line
for all. -/
abbrev Level := Option Nat

def Level.inner (level : Level) : Level := level.map (· + 1)

def Level.startItem : Level → List Char
  | none => []
  | some depth => '\n' :: List.replicate (2 * depth) ' '

def Level.colon : Level → List Char
  | none => [':']
  | some _ => [':', ' ']

mutual

def printAt (level : Level) : Json → List Char
  | .null => "null".toList
  | .bool true => "true".toList
  | .bool false => "false".toList
  | .int n => printInt n
  | .float mantissa exponent => printInt mantissa ++ 'e' :: printInt exponent
  | .str s => printString s
  | .arr [] => ['[', ']']
  | .arr (item :: items) =>
    '[' :: level.inner.startItem ++ printAt level.inner item ++ printItems level.inner items ++
      level.startItem ++ [']']
  | .obj [] => ['\x7b', '\x7d']
  | .obj ((key, value) :: entries) =>
    '\x7b' :: level.inner.startItem ++ printString key ++ level.colon ++
      printAt level.inner value ++ printEntries level.inner entries ++ level.startItem ++ ['\x7d']

def printItems (level : Level) : List Json → List Char
  | [] => []
  | item :: items => ',' :: level.startItem ++ printAt level item ++ printItems level items

def printEntries (level : Level) : List (String × Json) → List Char
  | [] => []
  | (key, value) :: entries =>
    ',' :: level.startItem ++ printString key ++ level.colon ++ printAt level value ++
      printEntries level entries

end

def compact (j : Json) : String := String.ofList (printAt none j)

def indented (j : Json) : String := String.ofList (printAt (some 0) j)

end GoroutineDump.Json
