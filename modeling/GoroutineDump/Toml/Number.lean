import GoroutineDump.Toml.Text

set_option autoImplicit false
set_option relaxedAutoImplicit false

namespace GoroutineDump.Toml

open Text (Reader)
open Text.Reader

/-- Takes digits that may be grouped by underscores, and gives the digits. The number bounds the
groups. -/
def groupsUpTo (isDigit : Char → Bool) : Nat → Reader (List Char)
  | 0 => failure
  | bound + 1 => do
    let digits ← some1 isDigit
    if (← option (exactly ['_'])).isSome then return digits ++ (← groupsUpTo isDigit bound)
    return digits

def groups (isDigit : Char → Bool) : Reader (List Char) := do
  groupsUpTo isDigit ((← get).length + 1)

def digitValue (c : Char) : Nat :=
  if c.isDigit then c.toNat - '0'.toNat else c.toLower.toNat - 'a'.toNat + 10

def valueOf (base : Nat) (digits : List Char) : Nat :=
  digits.foldl (fun n c => base * n + digitValue c) 0

def int64? (n : Int) : Option Int :=
  if Int64.minValue.toInt ≤ n ∧ n ≤ Int64.maxValue.toInt then some n else none

def sign : Reader Bool := do
  match ← option (one fun c => c == '+' || c == '-') with
  | some c => return c == '-'
  | none => return false

def decimalDigits : Reader (List Char) := do
  if (← peek?) = some '0' then
    exactly ['0']
    return ['0']
  groups Char.isDigit

def decimal : Reader Int := do
  let negative ← sign
  let n : Int := valueOf 10 (← decimalDigits)
  (int64? (if negative then -n else n) : Option Int)

def based (mark : Char) (base : Nat) (isDigit : Char → Bool) : Reader Int := do
  exactly ['0', mark]
  (int64? (valueOf base (← groups isDigit)) : Option Int)

def isHexDigit (c : Char) : Bool := c.isDigit || ('a' ≤ c && c ≤ 'f') || ('A' ≤ c && c ≤ 'F')

def integer : Reader Int :=
  based 'x' 16 isHexDigit <|> based 'o' 8 (fun c => '0' ≤ c && c ≤ '7') <|>
    based 'b' 2 (fun c => c == '0' || c == '1') <|> decimal

/-- Whether `mantissa * 10 ^ exponent` is beyond double precision when rounded to nearest. A
mantissa of `n` digits is at least `10 ^ (n - 1)`, which settles large exponents at once. -/
def overflows (mantissa : Nat) (exponent : Int) : Bool :=
  let magnitude := (Nat.toDigits 10 mantissa).length + exponent
  if mantissa = 0 ∨ magnitude < 308 then false
  else if 310 < magnitude then true
  else
    let limit := ((1 <<< 54) - 1) <<< 970
    limit * Nat.pow 10 (-exponent).toNat ≤ mantissa * Nat.pow 10 exponent.toNat

def exponent : Reader Int := do
  let _ ← one fun c => c == 'e' || c == 'E'
  let negative ← sign
  let n : Int := valueOf 10 (← groups Char.isDigit)
  return if negative then -n else n

def decimals : Reader (List Char) := do
  exactly ['.']
  groups Char.isDigit

/-- A floating-point number in digits; it has decimals or an exponent. -/
def finite : Reader Unit := do
  let negative ← sign
  let whole ← decimalDigits
  let places ← option decimals
  let power ← option exponent
  if places.isNone && power.isNone then failure
  let digits := whole ++ places.getD []
  if !negative && overflows (valueOf 10 digits) (power.getD 0 - (places.getD []).length) then failure

def special : Reader Unit := do
  let _ ← sign
  exactly "inf".toList <|> exactly "nan".toList

def float : Reader String := do
  let (_, text) ← withText (finite <|> special)
  return String.ofList text

def digitsOf : Nat → Reader (List Char)
  | 0 => pure []
  | count + 1 => do return (← one Char.isDigit) :: (← digitsOf count)

def twoDigits (low high : Nat) : Reader Nat := do
  let n := valueOf 10 (← digitsOf 2)
  if low ≤ n ∧ n ≤ high then return n else failure

def daysOf (year month : Nat) : Nat :=
  if month = 2 then
    if year % 4 = 0 ∧ (year % 100 ≠ 0 ∨ year % 400 = 0) then 29 else 28
  else if month = 4 ∨ month = 6 ∨ month = 9 ∨ month = 11 then 30
  else 31

def date : Reader Unit := do
  let year := valueOf 10 (← digitsOf 4)
  exactly ['-']
  let month ← twoDigits 1 12
  exactly ['-']
  let _ ← twoDigits 1 (daysOf year month)

def timeOfDay : Reader Unit := do
  let _ ← twoDigits 0 23
  exactly [':']
  let _ ← twoDigits 0 59
  exactly [':']
  let _ ← twoDigits 0 60
  let _ ← option (do exactly ['.']; some1 Char.isDigit)

def offset : Reader Unit := do
  let c ← one fun c => "Zz+-".toList.contains c
  if c = '+' ∨ c = '-' then
    let _ ← twoDigits 0 23
    exactly [':']
    let _ ← twoDigits 0 59

def timeAfterDate : Reader Unit := do
  let _ ← one fun c => "Tt ".toList.contains c
  timeOfDay
  let _ ← option offset

def time : Reader String := do
  let (_, text) ← withText ((do date; let _ ← option timeAfterDate) <|> timeOfDay)
  return String.ofList text

end GoroutineDump.Toml
