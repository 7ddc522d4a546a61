import GoroutineDump.Json.Value
import GoroutineDump.Text
import GoroutineDump.Text.Notation

set_option autoImplicit false
set_option relaxedAutoImplicit false

namespace GoroutineDump.Json

open Text (Reader)
open Text.Reader

def gap : Reader Unit := do let _ ← many (" \t\n\r".toList.contains ·)

def charOfPair? (high low : Nat) : Option Char :=
  if 0xD800 ≤ high ∧ high < 0xDC00 ∧ 0xDC00 ≤ low ∧ low < 0xE000 then
    some (Char.ofNat (0x10000 + (high - 0xD800) * 0x400 + (low - 0xDC00)))
  else none

def escapedChar? : Char → Option Char
  | '\x22' => some '\x22'
  | '\\' => some '\\'
  | '/' => some '/'
  | 'b' => some '\x08'
  | 'f' => some '\x0c'
  | 'n' => some '\n'
  | 'r' => some '\r'
  | 't' => some '\t'
  | _ => none

/-- The character at the front of the inside of a string, and the rest. -/
def stringChar? : List Char → Option (Char × List Char)
  | '\\' :: 'u' :: a :: b :: c :: d :: cs => do
    let value ← Text.hexValue? [a, b, c, d]
    if value.isValidChar then some (Char.ofNat value, cs)
    else match cs with
      | '\\' :: 'u' :: e :: f :: g :: h :: cs => do
        return (← charOfPair? value (← Text.hexValue? [e, f, g, h]), cs)
      | _ => none
  | '\\' :: c :: cs => do return (← escapedChar? c, cs)
  | c :: cs => if c = '\\' ∨ c.toNat < 32 then none else some (c, cs)
  | [] => none

/-- The text of the inside of a string; the number bounds its length. -/
def unescapeUpTo : Nat → List Char → Option (List Char)
  | _, [] => some []
  | 0, _ => none
  | bound + 1, cs => do
    let (c, rest) ← stringChar? cs
    return c :: (← unescapeUpTo bound rest)

def string : Reader String := do
  exactly ['\x22']
  let text ← (toQuote '\x22' true : Reader (List Char))
  String.ofList <$> (unescapeUpTo text.length text : Option (List Char))

def valueOfDigits (digits : List Char) : Nat := Nat.ofDigitChars 10 digits 0

/-- The digits before the point of a number, of which only a single one is 0 in front. -/
def wholeDigits : Reader (List Char) := do
  if (← peek?) = some '0' then
    exactly ['0']
    return ['0']
  some1 Char.isDigit

def exponent : Reader Int := do
  let _ ← one fun c => c == 'e' || c == 'E'
  let sign ← option (one fun c => c == '+' || c == '-')
  let n : Int := valueOfDigits (← some1 Char.isDigit)
  return if sign = some '-' then -n else n

def number : Reader Json := do
  let minus ← option (exactly ['-'])
  let whole ← wholeDigits
  let places ← option (do exactly ['.']; some1 Char.isDigit)
  let power ← option exponent
  let n : Int := valueOfDigits (whole ++ places.getD [])
  let n := if minus.isSome then -n else n
  if places.isNone && power.isNone then return .int n
  return .float n (power.getD 0 - (places.getD []).length)

/-- Entries with one more, which replaces an earlier one with its key. -/
def addEntry (entries : List (String × Json)) (entry : String × Json) : List (String × Json) :=
  entries.filter (fun e => e.1 != entry.1) ++ [entry]

def valueWithin : Nat → Reader Json
  | 0 => failure
  | depth + 1 => do
    let bound := (← get).length + 1
    match ← peek? with
    | some '[' =>
      exactly ['[']
      .arr <$> items gap ']' false (valueWithin depth) bound
    | some '\x7b' =>
      exactly ['\x7b']
      let entry : Reader (String × Json) := do
        let key ← string
        gap
        exactly [':']
        gap
        return (key, ← valueWithin depth)
      return .obj ((← items gap '\x7d' false entry bound).foldl addEntry [])
    | some '\x22' => .str <$> string
    | some 't' => do exactly "true".toList; return .bool true
    | some 'f' => do exactly "false".toList; return .bool false
    | some 'n' => do exactly "null".toList; return .null
    | _ => number

def nestingLimit : Nat := 128

def parse? (text : String) : Option Json :=
  match (do gap; let j ← valueWithin nestingLimit; gap; return j : Reader Json) text.toList with
  | some (j, []) => some j
  | _ => none

end GoroutineDump.Json
