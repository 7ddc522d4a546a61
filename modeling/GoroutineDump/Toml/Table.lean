import GoroutineDump.Json.Value

set_option autoImplicit false
set_option relaxedAutoImplicit false

namespace GoroutineDump.Toml

/-- A value. Floating-point numbers and times are kept as they are written, for no setting takes
them. -/
inductive Value
  | string (s : String)
  | integer (n : Int)
  | float (literal : String)
  | boolean (b : Bool)
  | time (literal : String)
  | array (items : List Value)
  | table (entries : List (String × Value))
  deriving Repr, Inhabited

namespace Value

mutual

/-- A value as JSON, for reading records. A floating-point number becomes some floating-point
number, and a time an object with a key that no record has: neither can be taken for text, a whole
number or a truth value. -/
def toJson : Value → Json
  | .string s => .str s
  | .integer n => .int n
  | .float _ => .float 0 0
  | .boolean b => .bool b
  | .time literal => .obj [("time", .str literal)]
  | .array items => .arr (toJsonItems items)
  | .table entries => .obj (toJsonEntries entries)

def toJsonItems : List Value → List Json
  | [] => []
  | item :: items => toJson item :: toJsonItems items

def toJsonEntries : List (String × Value) → List (String × Json)
  | [] => []
  | (key, value) :: entries => (key, toJson value) :: toJsonEntries entries

end

end Value

inductive Origin
  /-- it has a header or braces of its own -/
  | stated
  /-- it lies on the way to a table with a header -/
  | passed
  /-- it lies on the way to a dotted key -/
  | dotted
  deriving DecidableEq, Repr

inductive Item
  | value (v : Value)
  | table (origin : Origin) (entries : List (String × Item))
  /-- an array of tables, the newest one first -/
  | tables (newest : List (String × Item)) (older : List (List (String × Item)))
  deriving Inhabited

abbrev Entries := List (String × Item)

namespace Entries

def set (key : String) (item : Item) : Entries → Entries
  | [] => [(key, item)]
  | entry :: entries => if entry.1 = key then (key, item) :: entries else entry :: set key item entries

/-- Changes the table that a path leads to from a table. Missing tables on the way are made with an
origin. A dotted way does not lead through tables that are stated; no way leads through values. In
an array of tables it is the newest one that the way goes on in. -/
def change (made : Origin) (f : Origin → Entries → Option Entries) (origin : Origin) :
    List String → Entries → Option Entries
  | [], entries => f origin entries
  | key :: path, entries =>
    match entries.lookup key with
    | none => do
      let inner ← change made f made path []
      return entries.set key (.table made inner)
    | some (.value _) => none
    | some (.table origin inner) =>
      if made = .dotted ∧ origin = .stated then none
      else do
        let inner ← change made f origin path inner
        return entries.set key (.table origin inner)
    | some (.tables newest older) => do
      let newest ← change made f .stated path newest
      return entries.set key (.tables newest older)

/-- Adds a value under a key at the end of a dotted way, which has to lead to a table that dotted
keys brought about, unless it has no parts. -/
def assign (path : List String) (key : String) (v : Value) (origin : Origin) (entries : Entries) :
    Option Entries :=
  change .dotted (fun origin entries =>
    if (origin = .dotted ↔ path = []) ∨ (entries.lookup key).isSome then none
    else some (entries.set key (.value v))) origin path entries

/-- States a table by a header; it must not have been stated before. -/
def state (path : List String) (key : String) (entries : Entries) : Option Entries :=
  change .passed (fun _ entries =>
    match entries.lookup key with
    | none => some (entries.set key (.table .stated []))
    | some (.table .passed inner) => some (entries.set key (.table .stated inner))
    | _ => none) .stated path entries

def extend (path : List String) (key : String) (entries : Entries) : Option Entries :=
  change .passed (fun _ entries =>
    match entries.lookup key with
    | none => some (entries.set key (.tables [] []))
    | some (.tables newest older) => some (entries.set key (.tables [] (newest :: older)))
    | _ => none) .stated path entries

def assignBelow (header path : List String) (key : String) (v : Value) (entries : Entries) :
    Option Entries :=
  change .passed (assign path key v) .stated header entries

end Entries

namespace Item

mutual

def toValue : Item → Value
  | .value v => v
  | .table _ entries => .table (entriesToValue entries)
  | .tables newest older => .array (tablesToValue [.table (entriesToValue newest)] older)

def entriesToValue : List (String × Item) → List (String × Value)
  | [] => []
  | (key, item) :: entries => (key, toValue item) :: entriesToValue entries

def tablesToValue (newer : List Value) : List (List (String × Item)) → List Value
  | [] => newer
  | newest :: older => tablesToValue (.table (entriesToValue newest) :: newer) older

end

end Item

end GoroutineDump.Toml
