import GoroutineDump.Unicode

set_option autoImplicit false
set_option relaxedAutoImplicit false

namespace GoroutineDump.Text

def digits (n : Nat) : List Char := Nat.toDigits 10 n

/-- The number of 64 bits that ASCII digits write; leading zeros are allowed. -/
def readWord? (cs : List Char) : Option UInt64 :=
  if !cs.isEmpty && cs.all Char.isDigit && Nat.ofDigitChars 10 cs 0 < UInt64.size then
    some (UInt64.ofNat (Nat.ofDigitChars 10 cs 0))
  else none

/-- What is wrong with a text that is no number of the wanted range. -/
inductive NumberFault
  | empty
  | invalidDigit
  | tooLarge
  | tooSmall
  deriving DecidableEq, Repr

def NumberFault.message : NumberFault → String
  | .empty => "cannot parse integer from empty string"
  | .invalidDigit => "invalid digit found in string"
  | .tooLarge => "number too large to fit in target type"
  | .tooSmall => "number too small to fit in target type"

/-- Reads digits after a number `n` already read. The first digit that is none, or that takes the
number over `limit`, decides the fault. -/
def readUpTo (limit : Nat) (excess : NumberFault) : Nat → List Char → Except NumberFault Nat
  | n, [] => .ok n
  | n, c :: cs =>
    if !c.isDigit then .error .invalidDigit
    else
      let m := 10 * n + (c.toNat - '0'.toNat)
      if limit < m then .error excess else readUpTo limit excess m cs

def readUnsigned : List Char → Except NumberFault UInt64
  | [] => .error .empty
  | ['+'] | ['-'] => .error .invalidDigit
  | '+' :: cs => UInt64.ofNat <$> readUpTo (UInt64.size - 1) .tooLarge 0 cs
  | cs => UInt64.ofNat <$> readUpTo (UInt64.size - 1) .tooLarge 0 cs

/-- An integer of 32 bits in two's complement, with an optional sign. -/
def readSigned : List Char → Except NumberFault Int
  | [] => .error .empty
  | ['+'] | ['-'] => .error .invalidDigit
  | '+' :: cs => Int.ofNat <$> readUpTo Int32.maxValue.toInt.toNat .tooLarge 0 cs
  | '-' :: cs => (fun n => -Int.ofNat n) <$> readUpTo Int32.minValue.toInt.natAbs .tooSmall 0 cs
  | cs => Int.ofNat <$> readUpTo Int32.maxValue.toInt.toNat .tooLarge 0 cs

theorem digits_ne_nil (n : Nat) : digits n ≠ [] := Nat.toDigits_ne_nil

theorem all_isDigit_digits (n : Nat) : (digits n).all Char.isDigit = true :=
  List.all_eq_true.mpr fun _ h => Nat.isDigit_of_mem_toDigits (by decide) (by decide) h

theorem readWord?_digits (w : UInt64) : readWord? (digits w.toNat) = some w := by
  have hvalue : Nat.ofDigitChars 10 (digits w.toNat) 0 = w.toNat :=
    Nat.ofDigitChars_toDigits (by decide) (by decide)
  have hlt : w.toNat < UInt64.size := w.toNat_lt
  have hne : (digits w.toNat).isEmpty = false := by
    simpa using digits_ne_nil w.toNat
  simp only [readWord?, hvalue, hne, all_isDigit_digits, Bool.not_false, Bool.and_self,
    Bool.true_and, decide_eq_true_eq, hlt, if_true, UInt64.ofNat_toNat]

def hexDigit? (c : Char) : Option Nat :=
  if c.isDigit then some (c.toNat - '0'.toNat)
  else if 'a' ≤ c && c ≤ 'f' then some (c.toNat - 'a'.toNat + 10)
  else if 'A' ≤ c && c ≤ 'F' then some (c.toNat - 'A'.toNat + 10)
  else none

def hexValue? (digits : List Char) : Option Nat :=
  digits.foldlM (fun n c => (16 * n + ·) <$> hexDigit? c) 0

/-- A code point in lowercase hexadecimal without leading zeros, between braces. -/
def codePointEscape (c : Char) : List Char :=
  ['\\', 'u', '\x7b'] ++ Nat.toDigits 16 c.toNat ++ ['\x7d']

def quotedChar (c : Char) : List Char :=
  if c = '\x00' then ['\\', '0']
  else if c = '\t' then ['\\', 't']
  else if c = '\n' then ['\\', 'n']
  else if c = '\r' then ['\\', 'r']
  else if c = '\x22' then ['\\', '\x22']
  else if c = '\\' then ['\\', '\\']
  else if Unicode.isGraphemeExtend c || !Unicode.isPrintable c then codePointEscape c
  else [c]

def quoted (s : String) : String :=
  String.ofList ('\x22' :: s.toList.flatMap quotedChar ++ ['\x22'])

end GoroutineDump.Text
