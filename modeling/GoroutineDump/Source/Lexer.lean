import GoroutineDump.Path
import GoroutineDump.Source.GoLexeme

set_option autoImplicit false
set_option relaxedAutoImplicit false

namespace GoroutineDump.Source

inductive Language
  | go
  | plainText
  deriving DecidableEq, Repr

namespace Language

/-- The language of files with an extension; the case of ASCII letters makes no difference, and no
other letter has `g` or `o` as its lowercase form. -/
def ofExtension (ext : List Char) : Language :=
  if ext.map Char.toLower = ['g', 'o'] then .go else .plainText

def ofPath (path : String) : Language :=
  match Path.extension? path.toList with
  | some ext => ofExtension ext
  | none => .plainText

def name : Language → String
  | .go => "go"
  | .plainText => "text"

end Language

/-- Why a source text cannot be cut into tokens. -/
inductive LexFault
  | unterminatedComment
  | unterminatedRawString
  deriving DecidableEq, Repr

def LexFault.reason : LexFault → String
  | .unterminatedComment => "unterminated block comment"
  | .unterminatedRawString => "unterminated raw string"

/-- A fault with the number of the line on which the open token begins. -/
structure LexError where
  line : Nat
  fault : LexFault
  deriving DecidableEq, Repr

def LexError.message (e : LexError) : String :=
  "line " ++ toString e.line ++ ": " ++ e.fault.reason

/-- Splits a text behind the first place where `mark` occurs in it. -/
def throughMark? (mark : List Char) : List Char → Option (List Char × List Char)
  | [] => none
  | c :: cs =>
    match mark.isPrefixOf? (c :: cs) with
    | some rest => some (mark, rest)
    | none => (throughMark? mark cs).map fun (before, rest) => (c :: before, rest)

theorem throughMark?_append {mark cs taken rest : List Char}
    (h : throughMark? mark cs = some (taken, rest)) : taken ++ rest = cs := by
  induction cs generalizing taken with
  | nil => simp [throughMark?] at h
  | cons c cs ih =>
    cases hm : mark.isPrefixOf? (c :: cs) with
    | some after =>
      simp only [throughMark?, hm, Option.some.injEq, Prod.mk.injEq] at h
      obtain ⟨rfl, rfl⟩ := h
      exact Text.append_eq_of_isPrefixOf? hm
    | none =>
      simp only [throughMark?, hm, Option.map_eq_some_iff, Prod.mk.injEq, Prod.exists] at h
      obtain ⟨before, after, hb, rfl, rfl⟩ := h
      rw [List.cons_append, ih hb]

/-- A lexeme that begins with one mark, ends with the next occurrence of another, and may span
lines. -/
def bracketed (opening closing : List Char) : Lexeme :=
  (Lexeme.exactly opening).andThen ⟨throughMark? closing, throughMark?_append⟩

def blockComment : Lexeme := bracketed ['/', '*'] ['*', '/']

def rawString : Lexeme := bracketed ['\x60'] ['\x60']

/-- A token cut off the front of a text, with the rest of it. -/
structure Cut where
  tokenClass : TokenClass
  taken : List Char
  rest : List Char
  deriving DecidableEq, Repr

def firstRule? (rules : List (Lexeme × TokenClass)) (cs : List Char) : Option Cut :=
  rules.findSome? fun (lexeme, tokenClass) =>
    (lexeme.read cs).map fun (taken, rest) => ⟨tokenClass, taken, rest⟩

/-- The token at the front of a Go text that begins with `c`. A character that no rule accepts is a
token of its own. -/
def nextGoToken (c : Char) (cs : List Char) : Except LexFault Cut :=
  if ['/', '*'].isPrefixOf (c :: cs) then
    match blockComment.read (c :: cs) with
    | some (taken, rest) => .ok ⟨.commentMultiline, taken, rest⟩
    | none => .error .unterminatedComment
  else if c = '\x60' then
    match rawString.read (c :: cs) with
    | some (taken, rest) => .ok ⟨.stringBacktick, taken, rest⟩
    | none => .error .unterminatedRawString
  else
    match GoLexeme.name.read (c :: cs) with
    | some (word, rest) =>
      .ok ⟨GoWord.classify (String.ofList word) (rest.head? = some '('), word, rest⟩
    | none => .ok ((firstRule? goRules (c :: cs)).getD ⟨.error, [c], cs⟩)

private theorem firstRule?_append {cs : List Char} {cut : Cut}
    (h : firstRule? goRules cs = some cut) :
    cut.taken ++ cut.rest = cs ∧ cut.taken ≠ [] := by
  obtain ⟨⟨lexeme, tokenClass⟩, hrule, hcut⟩ := List.exists_of_findSome?_eq_some h
  obtain ⟨⟨taken, rest⟩, hread, rfl⟩ := Option.map_eq_some_iff.mp hcut
  exact ⟨lexeme.lossless hread, goRules_proper _ hrule hread⟩

theorem nextGoToken_append {c : Char} {cs : List Char} {cut : Cut}
    (h : nextGoToken c cs = .ok cut) : cut.taken ++ cut.rest = c :: cs ∧ cut.taken ≠ [] := by
  unfold nextGoToken at h
  split at h
  · split at h
    · next taken rest hread =>
      cases h
      exact ⟨blockComment.lossless hread,
        Lexeme.andThen_proper _ (Lexeme.exactly_proper (by simp)) hread⟩
    · cases h
  · split at h
    · split at h
      · next taken rest hread =>
        cases h
        exact ⟨rawString.lossless hread,
          Lexeme.andThen_proper _ (Lexeme.exactly_proper (by simp)) hread⟩
      · cases h
    · split at h
      · next word rest hread =>
        cases h
        exact ⟨GoLexeme.name.lossless hread,
          Lexeme.andThen_proper _ (Lexeme.one_proper _) hread⟩
      · cases h
        cases hr : firstRule? goRules (c :: cs) with
        | none => simp
        | some found => exact firstRule?_append hr

theorem length_rest_nextGoToken {c : Char} {cs : List Char} {cut : Cut}
    (h : nextGoToken c cs = .ok cut) : cut.rest.length < (c :: cs).length := by
  obtain ⟨happend, hne⟩ := nextGoToken_append h
  rw [← happend, List.length_append]
  have := List.length_pos_iff.mpr hne
  omega

/-- The tokens cut off a text, and why the cutting stopped if it did before the end. -/
structure Scan where
  tokens : List Token
  fault : Option LexFault
  deriving DecidableEq, Repr

/-- Cuts a Go text after tokens already cut off, which are kept in reverse. -/
def scanGoFrom (done : List Token) : List Char → Scan
  | [] => ⟨done.reverse, none⟩
  | c :: cs =>
    match _h : nextGoToken c cs with
    | .error fault => ⟨done.reverse, some fault⟩
    | .ok cut => scanGoFrom (⟨cut.tokenClass, String.ofList cut.taken⟩ :: done) cut.rest
termination_by cs => cs.length
decreasing_by exact length_rest_nextGoToken _h

def scanGo (cs : List Char) : Scan := scanGoFrom [] cs

def newlines (tokens : List Token) : Nat := (tokens.map Token.newlines).foldr (· + ·) 0

/-- The tokens of a text in a language. Plain text has one token for each line. -/
def tokenize (language : Language) (text : String) : Except LexError (List Token) :=
  match language with
  | .plainText =>
    .ok ((Text.pieces text.toList).map fun piece => ⟨.text, String.ofList piece⟩)
  | .go =>
    let scan := scanGo text.toList
    match scan.fault with
    | none => .ok scan.tokens
    | some fault => .error ⟨1 + newlines scan.tokens, fault⟩

end GoroutineDump.Source
