import GoroutineDump.Goroutine
import GoroutineDump.Html
import GoroutineDump.Source.Token
import GoroutineDump.Text.Notation

set_option autoImplicit false
set_option relaxedAutoImplicit false

namespace GoroutineDump.Highlight

open Html (Node)
open Source (Token Piece Line)

structure RenderOptions where
  /-- the width of a tab, in columns -/
  tabWidth : UInt64 := 3
  /-- a column with line numbers stands before the code -/
  lineNumbers : Bool := true
  deriving DecidableEq, Repr

/-- What is wrong with options, where something is: a tab has 1 to 16 columns. -/
def RenderOptions.problem? (o : RenderOptions) : Option String :=
  if o.tabWidth = 0 ∨ 16 < o.tabWidth then
    some ("tab_width must be within 1..=16, got " ++ toString o.tabWidth.toNat)
  else none

structure MarkupOptions where
  /-- how many goroutines get excerpts, from the front of the list; 0 stands for all -/
  limit : UInt64 := 0
  /-- how many lines of context a call's line has on each side; none are shown, not even the call's
  own line, if the number is negative -/
  context : Int := 0
  deriving DecidableEq, Repr

def MarkupOptions.isDisabled (o : MarkupOptions) : Bool := o.context < 0

def MarkupOptions.count (o : MarkupOptions) (n : Nat) : Nat :=
  if o.isDisabled then 0 else if o.limit = 0 then n else min o.limit.toNat n

def styleClass (style : String) (marked : Bool) : List (String × String) :=
  [("class", if marked then style ++ " hl" else style)]

/-- A piece of a token without the end of its line; what is then empty is not shown. -/
def pieceNodes (p : Piece) : List Node :=
  let text := Text.trimLineEnd p.text
  if text = [] then []
  else if p.tokenClass.style = "" then [.text text]
  else [.element "span" [("class", p.tokenClass.style)] [.text text]]

def codeLine (marked : Bool) (line : Line) : Node :=
  .element "span" (styleClass "line" marked)
    [.element "span" [("class", "cl")] (line.flatMap pieceNodes ++ [.text ['\n']])]

def numberLine (marked : Bool) (number : Nat) : Node :=
  .element "span" (styleClass "lnt" marked) [.text (Text.digits number ++ ['\n'])]

def codeColumn (options : RenderOptions) (mark : Option Nat) (lines : List (Nat × Line)) : Node :=
  .element "pre" [("class", "chroma"), ("style", "tab-size:" ++ toString options.tabWidth.toNat)]
    [.element "code" [] (lines.map fun (number, line) => codeLine (mark == some number) line)]

def numberColumn (mark : Option Nat) (lines : List (Nat × Line)) : Node :=
  .element "pre" [("class", "chroma")]
    [.element "code" [] (lines.map fun (number, _) => numberLine (mark == some number) number)]

def listing (options : RenderOptions) (mark : Option Nat) (lines : List (Nat × Line)) : Node :=
  .element "div" [("class", "chroma")]
    (if options.lineNumbers then
      [.element "table" [("class", "lntable")] [.element "tr" []
        [.element "td" [("class", "lntd")] [numberColumn mark lines],
          .element "td" [("class", "lntd")] [codeColumn options mark lines]]]]
    else [codeColumn options mark lines])

def enumerate (first : Nat) (lines : List Line) : List (Nat × Line) :=
  lines.zipIdx.map fun (line, i) => (first + i, line)

def listingText (options : RenderOptions) (mark : Option Nat) (first : Nat) (lines : List Line) :
    String :=
  if lines = [] then ""
  else String.ofList (listing options mark (enumerate first lines)).render

/-- The excerpt with `context` lines on each side of the numbered line. A source that ends before
the line still shows what lies in the window. Unless `context` is 0, the line behind the numbered one
has to have a number of 64 bits. -/
def excerptAround (options : RenderOptions) (tokens : List Token) (line context : Nat) : Excerpt :=
  let first := max 1 (line - context)
  let last := min (line + context) (UInt64.size - 1)
  let lines := Source.window first last tokens
  let split := min (line - first + 1) lines.length
  { leading := listingText options (some line) first (lines.take split)
    trailing :=
      if context = 0 then "" else listingText options none (line + 1) (lines.drop split) }

/-- The excerpt for a line of tokenized source, or `none` where the line is 0. A negative context
shows nothing and asks for nothing. -/
def excerpt? (options : RenderOptions) (tokens : List Token) (line : UInt64) (context : Int) :
    Option Excerpt :=
  if context < 0 then some {}
  else if line = 0 then none
  else some (excerptAround options tokens line.toNat context.toNat)

end GoroutineDump.Highlight
