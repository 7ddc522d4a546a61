import GoroutineDump.Source.Lexeme
import GoroutineDump.Source.Token
import GoroutineDump.Unicode

set_option autoImplicit false
set_option relaxedAutoImplicit false

namespace GoroutineDump.Source

namespace GoLexeme

def isNameStart (c : Char) : Bool := c == '_' || Unicode.isLetter c

def isNamePart (c : Char) : Bool := isNameStart c || Unicode.isNumber c

def isDigit (c : Char) : Bool := Unicode.isDecimalDigit c

def isDigitOrUnderscore (c : Char) : Bool := c == '_' || isDigit c

def name : Lexeme := (Lexeme.one isNameStart).andThen (Lexeme.many isNamePart)

def space : Lexeme := Lexeme.some1 Unicode.isSpace

def lineComment : Lexeme := (Lexeme.exactly ['/', '/']).andThen (Lexeme.many (· != '\n'))

/-- A character between apostrophes. After a backslash the next character is taken as it is, and
the escape may go on up to the next apostrophe of the line. -/
def charLiteral : Lexeme :=
  ((Lexeme.exactly ['\x27']).andThen
    (((Lexeme.exactly ['\\']).andThen ((Lexeme.one (· != '\n')).andThen
        (Lexeme.many fun c => c != '\x27' && c != '\n'))).orElse
      (Lexeme.one fun c => c != '\x27' && c != '\\' && c != '\n'))).andThen
    (Lexeme.exactly ['\x27'])

/-- What stands between the quotation marks of a string: on one line, and with any character after a
backslash. -/
def stringBody : List Char → List Char × List Char
  | [] => ([], [])
  | '\\' :: rest =>
    match rest with
    | [] => ([], ['\\'])
    | c :: cs =>
      if c = '\n' then ([], '\\' :: c :: cs)
      else
        let (body, after) := stringBody cs
        ('\\' :: c :: body, after)
  | c :: cs =>
    if c = '\x22' ∨ c = '\n' then ([], c :: cs)
    else
      let (body, after) := stringBody cs
      (c :: body, after)

theorem stringBody_append (cs : List Char) : (stringBody cs).1 ++ (stringBody cs).2 = cs := by
  fun_induction stringBody cs <;> simp_all

def stringLiteral : Lexeme :=
  ((Lexeme.exactly ['\x22']).andThen
    ⟨fun cs => some (stringBody cs), fun {cs taken rest} h => by
      have := stringBody_append cs
      simp_all⟩).andThen (Lexeme.exactly ['\x22'])

/-- A number with a base mark of two characters and at least one digit or underscore. -/
def basedNumber (mark : Char → Bool) (digit : Char → Bool) : Lexeme :=
  (Lexeme.exactly ['0']).andThen ((Lexeme.one mark).andThen
    (Lexeme.some1 fun c => c == '_' || digit c))

def imaginary : Lexeme := Lexeme.optional (Lexeme.exactly ['i'])

def isHexDigit (c : Char) : Bool := c.isDigit || ('a' ≤ c && c ≤ 'f') || ('A' ≤ c && c ≤ 'F')

def hexNumber : Lexeme :=
  (basedNumber (fun c => c == 'x' || c == 'X') isHexDigit).andThen imaginary

def binaryNumber : Lexeme :=
  basedNumber (fun c => c == 'b' || c == 'B') fun c => c == '0' || c == '1'

def octalNumber : Lexeme :=
  basedNumber (fun c => c == 'o' || c == 'O') fun c => '0' ≤ c && c ≤ '7'

def groupedDigits : Lexeme := (Lexeme.one isDigit).andThen (Lexeme.many isDigitOrUnderscore)

def exponent : Lexeme :=
  (Lexeme.one fun c => c == 'e' || c == 'E').andThen
    ((Lexeme.optional (Lexeme.one fun c => c == '-' || c == '+')).andThen (Lexeme.some1 isDigit))

def floatNumber : Lexeme :=
  (Lexeme.firstOf [
    groupedDigits.andThen ((Lexeme.exactly ['.']).andThen
      ((Lexeme.many isDigitOrUnderscore).andThen exponent.optional)),
    (Lexeme.exactly ['.']).andThen (groupedDigits.andThen exponent.optional),
    groupedDigits.andThen exponent]).andThen imaginary

def integerNumber : Lexeme := groupedDigits.andThen imaginary

/-- The operators of more than one character; a longer one precedes its beginnings. -/
def longOperators : List String :=
  ["<<=", ">>=", "&^=", "...", "&&", "||", "<-", "++", "--", "==", "!=", "<=", ">=", ":=", "<<",
    ">>", "&^", "-=", "+=", "*=", "/=", "%=", "&=", "|=", "^="]

def operator : Lexeme :=
  (Lexeme.firstOf (longOperators.map fun s => Lexeme.exactly s.toList)).orElse
    (Lexeme.one ("-+*/%&|^<>=!~".toList.contains ·))

def punctuation : Lexeme := Lexeme.one ("()[]\x7b\x7d.,;:".toList.contains ·)

end GoLexeme

/-- The rules for what is neither a name nor may span lines, in the order in which they are tried. -/
def goRules : List (Lexeme × TokenClass) :=
  [(GoLexeme.space, .text),
    (GoLexeme.lineComment, .commentSingle),
    (GoLexeme.charLiteral, .stringChar),
    (GoLexeme.stringLiteral, .string),
    (GoLexeme.hexNumber, .numberHex),
    (GoLexeme.binaryNumber, .numberBin),
    (GoLexeme.octalNumber, .numberOct),
    (GoLexeme.floatNumber, .numberFloat),
    (GoLexeme.integerNumber, .numberInteger),
    (GoLexeme.operator, .operator),
    (GoLexeme.punctuation, .punctuation)]

namespace GoLexeme

private theorem basedNumber_proper (mark digit : Char → Bool) : (basedNumber mark digit).Proper :=
  Lexeme.andThen_proper _ (Lexeme.exactly_proper (by simp))

private theorem groupedDigits_proper : groupedDigits.Proper :=
  Lexeme.andThen_proper _ (Lexeme.one_proper _)

private theorem floatNumber_proper : floatNumber.Proper := by
  refine Lexeme.andThen_proper _ (Lexeme.firstOf_proper ?_)
  intro form hform
  simp only [List.mem_cons, List.not_mem_nil, or_false] at hform
  rcases hform with rfl | rfl | rfl
  · exact Lexeme.andThen_proper _ groupedDigits_proper
  · exact Lexeme.andThen_proper _ (Lexeme.exactly_proper (by simp))
  · exact Lexeme.andThen_proper _ groupedDigits_proper

private theorem operator_proper : operator.Proper := by
  refine Lexeme.orElse_proper (Lexeme.firstOf_proper ?_) (Lexeme.one_proper _)
  intro long hlong
  have hne : ∀ word ∈ longOperators, word.toList ≠ [] := by decide
  obtain ⟨word, hword, rfl⟩ := List.mem_map.mp hlong
  exact @Lexeme.exactly_proper word.toList (hne word hword)

end GoLexeme

theorem goRules_proper : ∀ rule ∈ goRules, rule.1.Proper := by
  have hquoted {mark : List Char} (hmark : mark ≠ []) (inner : Lexeme) :
      (((Lexeme.exactly mark).andThen inner).andThen (Lexeme.exactly mark)).Proper :=
    Lexeme.andThen_proper _ (Lexeme.andThen_proper _ (Lexeme.exactly_proper hmark))
  simp only [goRules, List.forall_mem_cons, List.not_mem_nil, false_imp_iff, implies_true, and_true]
  refine ⟨Lexeme.some1_proper _, Lexeme.andThen_proper _ (Lexeme.exactly_proper (by simp)),
    hquoted (by simp) _, hquoted (by simp) _, ?_, ?_, ?_, ?_, ?_, ?_, ?_⟩
  · exact Lexeme.andThen_proper _ (GoLexeme.basedNumber_proper _ _)
  · exact GoLexeme.basedNumber_proper _ _
  · exact GoLexeme.basedNumber_proper _ _
  · exact GoLexeme.floatNumber_proper
  · exact Lexeme.andThen_proper _ GoLexeme.groupedDigits_proper
  · exact GoLexeme.operator_proper
  · exact Lexeme.one_proper _

namespace GoWord

def namespaceKeywords : List String := ["import", "package"]

def declarationKeywords : List String :=
  ["var", "func", "struct", "map", "chan", "type", "interface", "const"]

def keywords : List String :=
  ["break", "default", "select", "case", "defer", "go", "else", "goto", "switch", "fallthrough",
    "if", "range", "continue", "for", "return"]

def constants : List String := ["true", "false", "iota", "nil"]

def types : List String :=
  ["uint", "uint8", "uint16", "uint32", "uint64", "int", "int8", "int16", "int32", "int64",
    "float32", "float64", "complex64", "complex128", "byte", "rune", "string", "bool", "error",
    "uintptr", "any", "comparable"]

def builtins : List String :=
  ["append", "cap", "clear", "close", "complex", "copy", "delete", "imag", "len", "make", "max",
    "min", "new", "panic", "print", "println", "real", "recover"]

/-- The class of a name. A name of no other class is that of a function where it is called. -/
def classify (word : String) (called : Bool) : TokenClass :=
  if word ∈ namespaceKeywords then .keywordNamespace
  else if word ∈ declarationKeywords then .keywordDeclaration
  else if word ∈ keywords then .keyword
  else if word ∈ constants then .keywordConstant
  else if word ∈ types then .keywordType
  else if word ∈ builtins then .nameBuiltin
  else if called then .nameFunction
  else .name

end GoWord

end GoroutineDump.Source
