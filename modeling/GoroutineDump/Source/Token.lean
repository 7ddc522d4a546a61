import GoroutineDump.Text

set_option autoImplicit false
set_option relaxedAutoImplicit false

namespace GoroutineDump.Source

inductive TokenClass
  | text
  | commentSingle
  | commentMultiline
  | keyword
  | keywordConstant
  | keywordDeclaration
  | keywordNamespace
  | keywordType
  | name
  | nameBuiltin
  | nameFunction
  | string
  | stringBacktick
  | stringChar
  | numberBin
  | numberFloat
  | numberHex
  | numberInteger
  | numberOct
  | operator
  | punctuation
  /-- a character that starts no token -/
  | error
  deriving DecidableEq, Repr

namespace TokenClass

def all : List TokenClass :=
  [.text, .commentSingle, .commentMultiline, .keyword, .keywordConstant, .keywordDeclaration,
    .keywordNamespace, .keywordType, .name, .nameBuiltin, .nameFunction, .string, .stringBacktick,
    .stringChar, .numberBin, .numberFloat, .numberHex, .numberInteger, .numberOct, .operator,
    .punctuation, .error]

def wireName : TokenClass → String
  | .text => "Text"
  | .commentSingle => "CommentSingle"
  | .commentMultiline => "CommentMultiline"
  | .keyword => "Keyword"
  | .keywordConstant => "KeywordConstant"
  | .keywordDeclaration => "KeywordDeclaration"
  | .keywordNamespace => "KeywordNamespace"
  | .keywordType => "KeywordType"
  | .name => "Name"
  | .nameBuiltin => "NameBuiltin"
  | .nameFunction => "NameFunction"
  | .string => "String"
  | .stringBacktick => "StringBacktick"
  | .stringChar => "StringChar"
  | .numberBin => "NumberBin"
  | .numberFloat => "NumberFloat"
  | .numberHex => "NumberHex"
  | .numberInteger => "NumberInteger"
  | .numberOct => "NumberOct"
  | .operator => "Operator"
  | .punctuation => "Punctuation"
  | .error => "Error"

def ofWireName? (s : String) : Option TokenClass := all.find? (·.wireName == s)

def style : TokenClass → String
  | .text => ""
  | .commentSingle => "c1"
  | .commentMultiline => "cm"
  | .keyword => "k"
  | .keywordConstant => "kc"
  | .keywordDeclaration => "kd"
  | .keywordNamespace => "kn"
  | .keywordType => "kt"
  | .name => "n"
  | .nameBuiltin => "nb"
  | .nameFunction => "nf"
  | .string => "s"
  | .stringBacktick => "sb"
  | .stringChar => "sc"
  | .numberBin => "mb"
  | .numberFloat => "mf"
  | .numberHex => "mh"
  | .numberInteger => "mi"
  | .numberOct => "mo"
  | .operator => "o"
  | .punctuation => "p"
  | .error => "err"

end TokenClass

/-- A stretch of source text with its class; it may span several lines. -/
structure Token where
  tokenClass : TokenClass
  text : String
  deriving DecidableEq, Repr

def Token.newlines (t : Token) : Nat := t.text.toList.count '\n'

def sourceText (tokens : List Token) : List Char := tokens.flatMap (·.text.toList)

/-- The part of a token that lies in one line. -/
structure Piece where
  tokenClass : TokenClass
  text : List Char
  deriving DecidableEq, Repr

/-- A line of source, as the pieces of tokens in it; the last piece holds the line feed. -/
abbrev Line := List Piece

def Token.pieces (t : Token) : List Piece :=
  (Text.pieces t.text.toList).map fun text => ⟨t.tokenClass, text⟩

def Piece.endsLine (p : Piece) : Bool := p.text.getLast? == some '\n'

def assemble : List Piece → List Line
  | [] => []
  | p :: ps =>
    if p.endsLine then [p] :: assemble ps
    else match assemble ps with
      | [] => [[p]]
      | line :: lines => (p :: line) :: lines

def linesOf (tokens : List Token) : List Line := assemble (tokens.flatMap Token.pieces)

/-- Pieces with the number of the line in which each lies; the first one lies in line `number`. -/
def numbered (number : Nat) : List Piece → List (Nat × Piece)
  | [] => []
  | p :: ps => (number, p) :: numbered (if p.endsLine then number + 1 else number) ps

/-- The pieces in the lines from `first` to `last` with their line numbers, where the first token
begins in line `number`. A token that ends before the range is passed over by counting its line
feeds, and the walk ends behind the range. -/
def piecesWithin (first last : Nat) : Nat → List Token → List (Nat × Piece)
  | _, [] => []
  | number, t :: ts =>
    if last < number then []
    else if number + t.newlines < first then piecesWithin first last (number + t.newlines) ts
    else
      (numbered number t.pieces).filter (fun (n, _) => first ≤ n && n ≤ last) ++
        piecesWithin first last (number + t.newlines) ts

def gather (ps : List (Nat × Piece)) : List Line :=
  (ps.splitBy fun a b => a.1 == b.1).map fun run => run.map (·.2)

/-- The lines numbered from `first` to `last`, as far as the source has them. -/
def window (first last : Nat) (tokens : List Token) : List Line :=
  gather (piecesWithin first last 1 tokens)

end GoroutineDump.Source
