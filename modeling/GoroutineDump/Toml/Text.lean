import GoroutineDump.Text
import GoroutineDump.Text.Notation

set_option autoImplicit false
set_option relaxedAutoImplicit false

namespace GoroutineDump.Toml

open Text (Reader)
open Text.Reader

def isBlank (c : Char) : Bool := c == ' ' || c == '\t'

/-- A character that may stand in comments and in strings: a tab, or any that is no control
character of ASCII. -/
def isPlain (c : Char) : Bool := c == '\t' || (32 ≤ c.toNat && c.toNat != 127)

def blanks : Reader Unit := do let _ ← many isBlank

/-- The end of a line: a line feed, before which a carriage return may stand. -/
def lineFeed : Reader Unit := exactly ['\n'] <|> exactly ['\r', '\n']

def comment : Reader Unit := do
  exactly ['#']
  let _ ← many isPlain

def lineEnd : Reader Unit := do
  if ← atEnd then return ()
  lineFeed

/-- What may stand behind a statement: a comment and the end of the line. -/
def trailer : Reader Unit := do
  blanks
  let _ ← option comment
  lineEnd

/-- Takes white space, line ends and comments; the number bounds how many. -/
def gapUpTo : Nat → Reader Unit
  | 0 => pure ()
  | bound + 1 => do
    let found ← option ((do let _ ← some1 isBlank) <|> lineFeed <|> comment)
    if found.isSome then gapUpTo bound

def gap : Reader Unit := do gapUpTo (← get).length

def charOfHex? (digits : List Char) : Option Char := do
  let value ← Text.hexValue? digits
  if value.isValidChar then some (Char.ofNat value) else none

def escaped? : Char → Option Char
  | 'b' => some '\x08'
  | 't' => some '\t'
  | 'n' => some '\n'
  | 'f' => some '\x0c'
  | 'r' => some '\r'
  | '\x22' => some '\x22'
  | '\\' => some '\\'
  | _ => none

/-- The text that the inside of a string with escapes stands for. In a string of several lines a
backslash at the end of a line takes away the white space up to the next text. -/
def unescape (multiline : Bool) : List Char → Option (List Char)
  | [] => some []
  | '\\' :: 'u' :: a :: b :: c :: d :: cs => do
    return (← charOfHex? [a, b, c, d]) :: (← unescape multiline cs)
  | '\\' :: 'U' :: a :: b :: c :: d :: e :: f :: g :: h :: cs => do
    return (← charOfHex? [a, b, c, d, e, f, g, h]) :: (← unescape multiline cs)
  | '\\' :: c :: cs =>
    match escaped? c with
    | some e => (e :: ·) <$> unescape multiline cs
    | none =>
      if multiline ∧ ((c :: cs).dropWhile isBlank).head? = some '\n' then
        unescape multiline ((c :: cs).dropWhile fun c => isBlank c || c == '\n')
      else none
  | c :: cs =>
    if c ≠ '\\' ∧ (isPlain c || (multiline && c == '\n')) then (c :: ·) <$> unescape multiline cs
    else none
termination_by cs => cs.length
decreasing_by
  all_goals simp only [List.length_cons]
  all_goals first
    | omega
    | exact Nat.lt_succ_of_le (List.dropWhile_suffix _).length_le

/-- The text of a string of several lines with every line end as a line feed; a carriage return
elsewhere is refused. -/
def unixLines : List Char → Option (List Char)
  | [] => some []
  | '\r' :: '\n' :: cs => ('\n' :: ·) <$> unixLines cs
  | c :: cs => if c = '\r' then none else (c :: ·) <$> unixLines cs

/-- How many of the quotation marks at the front of a text belong to a string that three marks
before them would end: up to two. -/
def lateQuotes (quote : Char) (cs : List Char) : Nat := min 2 (cs.takeWhile (· == quote)).length

/-- The text up to three quotation marks in a row and what follows them. -/
def toTripleQuote (quote : Char) (escapes : Bool) : List Char → Option (List Char × List Char)
  | c :: d :: e :: cs =>
    if c = quote ∧ d = quote ∧ e = quote then
      let late := lateQuotes quote cs
      some (cs.take late, cs.drop late)
    else if escapes ∧ c = '\\' then
      (toTripleQuote quote escapes (e :: cs)).map fun (text, rest) => (c :: d :: text, rest)
    else (toTripleQuote quote escapes (d :: e :: cs)).map fun (text, rest) => (c :: text, rest)
  | _ => none

def inside (escapes multiline : Bool) (text : List Char) : Option (List Char) :=
  if escapes then unescape multiline text
  else if text.all fun c => isPlain c || (multiline && c == '\n') then some text
  else none

def lineString (quote : Char) (escapes : Bool) : Reader String := do
  exactly [quote]
  let text ← (toQuote quote escapes : Reader (List Char))
  String.ofList <$> (inside escapes false text : Option (List Char))

/-- A string of several lines; a line end right behind the opening marks does not belong to it. -/
def textBlock (quote : Char) (escapes : Bool) : Reader String := do
  exactly [quote, quote, quote]
  let text ← (toTripleQuote quote escapes : Reader (List Char))
  let lines ← (unixLines text : Option (List Char))
  let lines := if lines.head? = some '\n' then lines.tail else lines
  String.ofList <$> (inside escapes true lines : Option (List Char))

/-- A string in any of its forms: quotation marks allow escapes and apostrophes do not. -/
def anyString : Reader String := do
  match ← peek? with
  | some '\x22' => textBlock '\x22' true <|> lineString '\x22' true
  | some '\x27' => textBlock '\x27' false <|> lineString '\x27' false
  | _ => failure

def isBareKeyChar (c : Char) : Bool := c.isAlphanum || c == '-' || c == '_'

def simpleKey : Reader String := do
  match ← peek? with
  | some '\x22' => lineString '\x22' true
  | some '\x27' => lineString '\x27' false
  | _ => String.ofList <$> some1 isBareKeyChar

/-- A number that the parts of a key and the nesting of values stay below. -/
def nestingLimit : Nat := 80

/-- A key: the tables it leads through, and its name in the last of them. -/
abbrev Key := List String × String

def keyWithin : Nat → Reader Key
  | 0 => failure
  | bound + 1 => do
    blanks
    let part ← simpleKey
    blanks
    if (← option (exactly ['.'])).isSome then
      let (path, name) ← keyWithin bound
      return (part :: path, name)
    return ([], part)

def key : Reader Key := keyWithin (nestingLimit - 1)

end GoroutineDump.Toml
