set_option autoImplicit false
set_option relaxedAutoImplicit false

namespace GoroutineDump

inductive Json
  | null
  | bool (b : Bool)
  /-- a number written without fraction and exponent -/
  | int (n : Int)
  /-- a number written with a fraction or an exponent: `mantissa` times 10 to the power `exponent` -/
  | float (mantissa exponent : Int)
  | str (s : String)
  | arr (items : List Json)
  | obj (entries : List (String × Json))
  deriving Repr, Inhabited

namespace Json

def word (n : UInt64) : Json := .int n.toNat

def count (n : Nat) : Json := .int n

def nullable {α : Type} (encode : α → Json) : Option α → Json
  | none => .null
  | some a => encode a

def list {α : Type} (encode : α → Json) (items : List α) : Json := .arr (items.map encode)

def entryUnless (omitted : Bool) (key : String) (value : Json) : List (String × Json) :=
  if omitted then [] else [(key, value)]

def get? (key : String) : Json → Option Json
  | .obj entries => entries.lookup key
  | _ => none

end Json

end GoroutineDump

namespace GoroutineDump.Json

def word? : Json → Option UInt64
  | .int n => if 0 ≤ n ∧ n.toNat < UInt64.size then some (UInt64.ofNat n.toNat) else none
  | _ => none

def int32? : Json → Option Int
  | .int n => if Int32.minValue.toInt ≤ n ∧ n ≤ Int32.maxValue.toInt then some n else none
  | _ => none

def bool? : Json → Option Bool
  | .bool b => some b
  | _ => none

def text? : Json → Option String
  | .str s => some s
  | _ => none

def list? {α : Type} (decode : Json → Option α) : Json → Option (List α)
  | .arr items => items.mapM decode
  | _ => none

def nullable? {α : Type} (decode : Json → Option α) : Json → Option (Option α)
  | .null => some none
  | j => some <$> decode j

def isNull : Json → Bool
  | .null => true
  | _ => false

def isNullOrEmpty : Json → Bool
  | .null | .obj [] => true
  | _ => false

/-- Reads one of several named alternatives: its name, or an object with the name as its only key
and nothing as the value. -/
def name? {α : Type} (ofName? : String → Option α) (isNothing : Json → Bool) : Json → Option α
  | .str s => ofName? s
  | .obj [(key, value)] => if isNothing value then ofName? key else none
  | _ => none

inductive Fields
  | named (entries : List (String × Json))
  | listed (items : List Json)

/-- Whether an array may have more items than the record has fields. -/
inductive Surplus
  | refused
  | ignored
  deriving DecidableEq, Repr

def fields? (surplus : Surplus) (size : Nat) : Json → Option Fields
  | .obj entries => some (.named entries)
  | .arr items =>
    if surplus = .refused ∧ size < items.length then none else some (.listed items)
  | _ => none

namespace Fields

def get? (place : Nat) (name : String) : Fields → Option Json
  | .named entries => entries.lookup name
  | .listed items => items[place]?

variable {α : Type}

def required (f : Fields) (place : Nat) (name : String) (decode : Json → Option α) : Option α :=
  f.get? place name >>= decode

def optional (f : Fields) (place : Nat) (name : String) (default : α)
    (decode : Json → Option α) : Option α :=
  match f.get? place name with
  | none => some default
  | some j => decode j

/-- A field that may be `null`; among named fields it may also be missing. -/
def nullable (f : Fields) (place : Nat) (name : String) (decode : Json → Option α) :
    Option (Option α) :=
  match f.get? place name, f with
  | some j, _ => nullable? decode j
  | none, .named _ => some none
  | none, .listed _ => none

end Fields

end GoroutineDump.Json
