set_option autoImplicit false
set_option relaxedAutoImplicit false

namespace GoroutineDump.Html

def escapeChar (c : Char) : List Char :=
  if c = '<' then "&lt;".toList
  else if c = '>' then "&gt;".toList
  else if c = '&' then "&amp;".toList
  else if c = '\x22' then "&quot;".toList
  else if c = '\x27' then "&#39;".toList
  else [c]

def escape (cs : List Char) : List Char := cs.flatMap escapeChar

/-- A text of which each entity is replaced by the character it stands for, from left to right. An
ampersand that begins no entity stands for itself. -/
def unescape : List Char → List Char
  | '&' :: 'l' :: 't' :: ';' :: rest => '<' :: unescape rest
  | '&' :: 'g' :: 't' :: ';' :: rest => '>' :: unescape rest
  | '&' :: 'a' :: 'm' :: 'p' :: ';' :: rest => '&' :: unescape rest
  | '&' :: 'q' :: 'u' :: 'o' :: 't' :: ';' :: rest => '\x22' :: unescape rest
  | '&' :: '#' :: '3' :: '9' :: ';' :: rest => '\x27' :: unescape rest
  | c :: rest => c :: unescape rest
  | [] => []

private theorem unescape_of_ne {c : Char} (rest : List Char) (h : c ≠ '&') :
    unescape (c :: rest) = c :: unescape rest := by
  rw [unescape] <;> simp_all

theorem unescape_escapeChar_append (c : Char) (rest : List Char) :
    unescape (escapeChar c ++ rest) = c :: unescape rest := by
  unfold escapeChar
  split
  · next h => simp [unescape, h]
  split
  · next h => simp [unescape, h]
  split
  · next h => simp [unescape, h]
  split
  · next h => simp [unescape, h]
  split
  · next h => simp [unescape, h]
  · rw [List.singleton_append, unescape_of_ne _ (by assumption)]

theorem escape_cons (c : Char) (cs : List Char) : escape (c :: cs) = escapeChar c ++ escape cs :=
  List.flatMap_cons

theorem unescape_escape (cs : List Char) : unescape (escape cs) = cs := by
  induction cs with
  | nil => rfl
  | cons c cs ih => rw [escape_cons, unescape_escapeChar_append, ih]

theorem escape_append (a b : List Char) : escape (a ++ b) = escape a ++ escape b := by
  simp [escape]

/-- A piece of text, or an element with attributes and children. -/
inductive Node
  | text (chars : List Char)
  | element (tag : String) (attributes : List (String × String)) (children : List Node)

namespace Node

def attributeChars (a : String × String) : List Char :=
  ' ' :: a.1.toList ++ ['=', '\x22'] ++ escape a.2.toList ++ ['\x22']

def openingTag (tag : String) (attributes : List (String × String)) : List Char :=
  '<' :: tag.toList ++ attributes.flatMap attributeChars ++ ['>']

def closingTag (tag : String) : List Char := ['<', '/'] ++ tag.toList ++ ['>']

mutual

def render : Node → List Char
  | .text chars => escape chars
  | .element tag attributes children =>
    openingTag tag attributes ++ renderAll children ++ closingTag tag

def renderAll : List Node → List Char
  | [] => []
  | node :: nodes => render node ++ renderAll nodes

end

mutual

def plainText : Node → List Char
  | .text chars => chars
  | .element _ _ children => plainTextAll children

def plainTextAll : List Node → List Char
  | [] => []
  | node :: nodes => plainText node ++ plainTextAll nodes

end

end Node

/-- A fragment without its tags: what lies between a `<` and the next `>` is left out. -/
def stripTags : List Char → List Char
  | [] => []
  | c :: cs => if c = '<' then inTag cs else c :: stripTags cs
where
  /-- The text after the tag that is being read. -/
  inTag : List Char → List Char
    | [] => []
    | c :: cs => if c = '>' then stripTags cs else inTag cs

end GoroutineDump.Html
