import GoroutineDump.Toml.Number
import GoroutineDump.Toml.Table

set_option autoImplicit false
set_option relaxedAutoImplicit false

namespace GoroutineDump.Toml

open Text (Reader)
open Text.Reader

def truth : Reader Bool :=
  (do exactly "true".toList; return true) <|> (do exactly "false".toList; return false)

def scalar : Reader Value :=
  (.string <$> anyString) <|> (.boolean <$> truth) <|> (.time <$> time) <|> (.float <$> float) <|>
    (.integer <$> integer)

def assignment (value : Reader Value) : Reader (Key × Value) := do
  let k ← key
  exactly ['=']
  blanks
  return (k, ← value)

def inlineTable? (assignments : List (Key × Value)) : Option Value := do
  let entries ← assignments.foldlM
    (fun entries ((path, name), v) => Entries.assign path name v .stated entries) []
  return .table (Item.entriesToValue entries)

def valueWithin : Nat → Reader Value
  | 0 => scalar
  | depth + 1 => do
    let bound := (← get).length + 1
    match ← peek? with
    | some '[' =>
      exactly ['[']
      .array <$> items gap ']' true (valueWithin depth) bound
    | some '\x7b' =>
      exactly ['\x7b']
      let assignments ← items blanks '\x7d' false (assignment (valueWithin depth)) bound
      (inlineTable? assignments : Option Value)
    | _ => scalar

def value : Reader Value := valueWithin (nestingLimit - 1)

inductive Statement
  /-- `[key]` -/
  | table (key : Key)
  /-- `[[key]]` -/
  | nextTable (key : Key)
  /-- `key = value` -/
  | assign (key : Key) (v : Value)

def statement : Reader Statement := do
  let s ←
    (do exactly ['[', '[']; let k ← key; exactly [']', ']']; return .nextTable k) <|>
    (do exactly ['[']; let k ← key; exactly [']']; return .table k) <|>
    (do let (k, v) ← assignment value; return .assign k v)
  trailer
  return s

/-- Reads the statements of a document; the number bounds the lines. -/
def statementsUpTo : Nat → Reader (List Statement)
  | 0 => failure
  | bound + 1 => do
    blanks
    if ← atEnd then return []
    match ← peek? with
    | some '#' =>
      comment
      lineEnd
      statementsUpTo bound
    | some '\n' | some '\r' =>
      lineFeed
      statementsUpTo bound
    | _ => return (← statement) :: (← statementsUpTo bound)

/-- The statements of a document, which may start with a byte order mark. -/
def statements? (cs : List Char) : Option (List Statement) :=
  let cs := if cs.head? = some '\ufeff' then cs.tail else cs
  (·.1) <$> statementsUpTo (cs.length + 1) cs

/-- A document of which some statements have been read. -/
structure Draft where
  entries : Entries := []
  /-- the table to which assignments are added -/
  header : List String := []

def Draft.add (d : Draft) : Statement → Option Draft
  | .table (path, name) => do return ⟨← d.entries.state path name, path ++ [name]⟩
  | .nextTable (path, name) => do return ⟨← d.entries.extend path name, path ++ [name]⟩
  | .assign (path, name) v => do
    return { d with entries := ← d.entries.assignBelow d.header path name v }

def parse? (text : String) : Option Value := do
  let draft ← (← statements? text.toList).foldlM Draft.add {}
  return .table (Item.entriesToValue draft.entries)

end GoroutineDump.Toml
