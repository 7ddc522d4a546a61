set_option autoImplicit false
set_option relaxedAutoImplicit false

namespace GoroutineDump.Text

/-- The pieces of a text whose first piece has already begun with `begun`, kept in reverse. -/
def piecesFrom (begun : List Char) : List Char → List (List Char)
  | [] => if begun.isEmpty then [] else [begun.reverse]
  | c :: cs =>
    if c = '\n' then (c :: begun).reverse :: piecesFrom [] cs else piecesFrom (c :: begun) cs

/-- A text cut after each line feed; a final line feed starts no further piece. -/
def pieces (cs : List Char) : List (List Char) := piecesFrom [] cs

private theorem flatten_piecesFrom (begun cs : List Char) :
    (piecesFrom begun cs).flatten = begun.reverse ++ cs := by
  induction cs generalizing begun with
  | nil => cases begun <;> simp [piecesFrom]
  | cons c cs ih => by_cases h : c = '\n' <;> simp [piecesFrom, h, ih]

/-- The pieces of a text concatenate to it. -/
theorem flatten_pieces (cs : List Char) : (pieces cs).flatten = cs := by
  simp [pieces, flatten_piecesFrom]

/-- The text without its last character, where that is `c`. -/
def chop (c : Char) (cs : List Char) : List Char :=
  if cs.getLast? = some c then cs.dropLast else cs

/-- What a piece says as a line of a dump: up to two carriage returns go with a line feed, and one
goes from the end of a last piece that has none. -/
def lineOfPiece (piece : List Char) : List Char :=
  if piece.getLast? = some '\n' then chop '\r' (chop '\r' piece.dropLast) else chop '\r' piece

def dumpLines (cs : List Char) : List (List Char) := (pieces cs).map lineOfPiece

/-- The text without the carriage returns and line feeds at its end. -/
def trimLineEnd (cs : List Char) : List Char :=
  (cs.reverse.dropWhile fun c => c == '\n' || c == '\r').reverse

section Cuts

universe u

variable {β : Type u}

theorem isPrefixOf?_cons_cons (c d : Char) (start cs : List Char) :
    (c :: start).isPrefixOf? (d :: cs) = if c == d then start.isPrefixOf? cs else none := rfl

theorem append_eq_of_isPrefixOf? {start cs rest : List Char}
    (h : start.isPrefixOf? cs = some rest) : start ++ rest = cs := by
  induction start generalizing cs with
  | nil =>
    have hnil : ([] : List Char).isPrefixOf? cs = some cs := by cases cs <;> rfl
    rw [hnil] at h
    exact (Option.some.inj h).symm
  | cons c start ih =>
    cases cs with
    | nil => cases h
    | cons d cs =>
      rw [isPrefixOf?_cons_cons] at h
      by_cases hcd : c = d
      · subst hcd
        rw [if_pos (beq_self_eq_true c)] at h
        rw [List.cons_append, ih h]
      · simp [hcd] at h

/-- The longest part of a text before a nonempty remainder that `read` accepts. -/
def lastCut (read : List Char → Option β) : List Char → Option (List Char × β)
  | [] => none
  | c :: cs =>
    match lastCut read cs with
    | some (before, value) => some (c :: before, value)
    | none => (read (c :: cs)).map ([], ·)

/-- What is cut off is a remainder of the text, and it is the one that was read. -/
theorem lastCut_eq_some {read : List Char → Option β} {cs before : List Char} {value : β}
    (h : lastCut read cs = some (before, value)) :
    ∃ rest, rest ≠ [] ∧ cs = before ++ rest ∧ read rest = some value := by
  induction cs generalizing before with
  | nil => simp [lastCut] at h
  | cons c cs ih =>
    cases hr : lastCut read cs with
    | some found =>
      obtain ⟨inner, v⟩ := found
      simp only [lastCut, hr, Option.some.injEq, Prod.mk.injEq] at h
      obtain ⟨rfl, rfl⟩ := h
      obtain ⟨rest, hne, rfl, hread⟩ := ih hr
      exact ⟨rest, hne, rfl, hread⟩
    | none =>
      simp only [lastCut, hr, Option.map_eq_some_iff, Prod.mk.injEq] at h
      obtain ⟨v, hread, rfl, rfl⟩ := h
      exact ⟨c :: cs, by simp, rfl, hread⟩

/-- There is no cut exactly when no nonempty remainder is accepted. -/
theorem lastCut_eq_none_iff {read : List Char → Option β} {cs : List Char} :
    lastCut read cs = none ↔ ∀ before rest, cs = before ++ rest → rest ≠ [] → read rest = none := by
  induction cs with
  | nil =>
    simp only [lastCut, true_iff]
    intro before rest h hne
    exact absurd (List.append_eq_nil_iff.mp h.symm).2 hne
  | cons c cs ih =>
    cases hr : lastCut read cs with
    | some found =>
      simp only [lastCut, hr, reduceCtorEq, false_iff]
      intro hall
      have hnone : lastCut read cs = none :=
        ih.mpr fun before rest h hne => hall (c :: before) rest (by simp [h]) hne
      simp [hr] at hnone
    | none =>
      simp only [lastCut, hr, Option.map_eq_none_iff]
      constructor
      · intro hread before rest h hne
        cases before with
        | nil => rw [List.nil_append] at h; exact h ▸ hread
        | cons d before =>
          rw [List.cons_append, List.cons.injEq] at h
          exact ih.mp hr before rest h.2 hne
      · intro hall
        exact hall [] (c :: cs) rfl (by simp)

end Cuts

/-- Where a byte sequence stops being UTF-8: how many bytes are well formed, and how long the
ill-formed sequence after them is; `none` when the bytes end inside a sequence. -/
structure Utf8Fault where
  valid : Nat
  length : Option Nat
  deriving DecidableEq, Repr

def Utf8Fault.message : Utf8Fault → String
  | ⟨valid, some length⟩ =>
    "invalid utf-8 sequence of " ++ toString length ++ " bytes from index " ++ toString valid
  | ⟨valid, none⟩ => "incomplete utf-8 byte sequence from index " ++ toString valid

/-- A character whose bytes have begun to arrive: how many came, how many are owed, the range of
the next one and the code point so far. -/
structure Utf8Pending where
  taken : Nat
  owed : Nat
  low : Nat
  high : Nat
  value : Nat
  deriving DecidableEq, Repr

def Utf8Pending.ofLead? (b : Nat) : Option Utf8Pending :=
  if 0xC2 ≤ b && b ≤ 0xDF then some ⟨1, 1, 0x80, 0xBF, b - 0xC0⟩
  else if b = 0xE0 then some ⟨1, 2, 0xA0, 0xBF, b - 0xE0⟩
  else if b = 0xED then some ⟨1, 2, 0x80, 0x9F, b - 0xE0⟩
  else if 0xE1 ≤ b && b ≤ 0xEF then some ⟨1, 2, 0x80, 0xBF, b - 0xE0⟩
  else if b = 0xF0 then some ⟨1, 3, 0x90, 0xBF, b - 0xF0⟩
  else if 0xF1 ≤ b && b ≤ 0xF3 then some ⟨1, 3, 0x80, 0xBF, b - 0xF0⟩
  else if b = 0xF4 then some ⟨1, 3, 0x80, 0x8F, b - 0xF0⟩
  else none

/-- Reads bytes after `valid` well-formed ones, whose characters are kept in reverse. -/
def decodeUtf8From (valid : Nat) (read : List Char) :
    Option Utf8Pending → List UInt8 → Except Utf8Fault (List Char)
  | none, [] => .ok read.reverse
  | some _, [] => .error ⟨valid, none⟩
  | none, b :: bytes =>
    if b.toNat < 0x80 then decodeUtf8From (valid + 1) (Char.ofNat b.toNat :: read) none bytes
    else match Utf8Pending.ofLead? b.toNat with
      | none => .error ⟨valid, some 1⟩
      | some pending => decodeUtf8From valid read (some pending) bytes
  | some pending, b :: bytes =>
    if pending.low ≤ b.toNat && b.toNat ≤ pending.high then
      let value := 64 * pending.value + (b.toNat - 0x80)
      if pending.owed ≤ 1 then
        decodeUtf8From (valid + pending.taken + 1) (Char.ofNat value :: read) none bytes
      else
        decodeUtf8From valid read (some ⟨pending.taken + 1, pending.owed - 1, 0x80, 0xBF, value⟩)
          bytes
    else .error ⟨valid, some pending.taken⟩

def decodeUtf8 (bytes : List UInt8) : Except Utf8Fault String :=
  String.ofList <$> decodeUtf8From 0 [] none bytes

abbrev Reader (α : Type) := StateT (List Char) Option α

namespace Reader

variable {α : Type}

def peek? : Reader (Option Char) := return (← get).head?

def exactly (w : List Char) : Reader Unit := fun cs => (w.isPrefixOf? cs).map ((), ·)

def one (p : Char → Bool) : Reader Char
  | c :: cs => if p c then some (c, cs) else none
  | [] => none

def many (p : Char → Bool) : Reader (List Char) := fun cs => some (cs.span p)

def some1 (p : Char → Bool) : Reader (List Char) := do
  let taken ← many p
  if taken = [] then failure else return taken

def option (read : Reader α) : Reader (Option α) := (some <$> read) <|> pure none

def withText (read : Reader α) : Reader (α × List Char) := do
  let before ← get
  let a ← read
  return (a, before.take (before.length - (← get).length))

/-- The text up to a quotation mark, which is taken as well. Where there are escapes, a character
behind a backslash is no such mark. -/
def toQuote (quote : Char) (escapes : Bool) : List Char → Option (List Char × List Char)
  | [] => none
  | [c] => if c = quote then some ([], []) else none
  | c :: d :: cs =>
    if c = quote then some ([], d :: cs)
    else if escapes ∧ c = '\\' then
      (toQuote quote escapes cs).map fun (text, rest) => (c :: d :: text, rest)
    else (toQuote quote escapes (d :: cs)).map fun (text, rest) => (c :: text, rest)

def atEnd : Reader Bool := return (← get).isEmpty

/-- Reads items after an opening bracket. Before each item and each comma stands what `gap` takes;
the last comma may stand before the closing bracket if `trailing` says so. The number bounds the
items. -/
def items (gap : Reader Unit) (closing : Char) (trailing : Bool) (item : Reader α) :
    Nat → Reader (List α)
  | 0 => failure
  | bound + 1 => do
    gap
    if (← peek?) = some closing then
      exactly [closing]
      return []
    more bound
where
  /-- Reads the rest from an item on. -/
  more : Nat → Reader (List α)
    | 0 => failure
    | bound + 1 => do
      gap
      let first ← item
      gap
      if (← option (exactly [closing])).isSome then return [first]
      exactly [',']
      gap
      if trailing then
        if (← option (exactly [closing])).isSome then return [first]
      return first :: (← more bound)

end Reader

end GoroutineDump.Text
