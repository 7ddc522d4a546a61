import GoroutineDump.Source.Lexer
import GoroutineDump.Source.Reading

set_option autoImplicit false
set_option relaxedAutoImplicit false

namespace GoroutineDump.Highlight

open Source (LexError ReadAnswer ReadFault Token)
open Text (Utf8Fault)

inductive Failure
  /-- the source cannot be read -/
  | unreadable (path : String) (cause : ReadFault)
  /-- the source is not UTF-8 -/
  | notText (path : String) (fault : Utf8Fault)
  /-- the source cannot be cut into tokens -/
  | untokenizable (path : String) (fault : LexError)
  /-- an excerpt was asked for around line 0; lines are counted from 1 -/
  | noSuchLine
  /-- someone did not want to wait any longer -/
  | cancelled
  deriving DecidableEq, Repr

namespace Failure

def message : Failure → String
  | .unreadable path cause => "read " ++ path ++ ": " ++ cause.message
  | .notText path fault => "tokenize " ++ path ++ ": invalid UTF-8: " ++ fault.message
  | .untokenizable path fault => "tokenize " ++ path ++ ": " ++ fault.message
  | .noSuchLine => "invalid line number: 0"
  | .cancelled => "highlighting cancelled"

def isCancelled : Failure → Bool
  | .cancelled => true
  | _ => false

end Failure

/-- What the tokens of a source file are, as a matter of what reading it gave. -/
def tokensOf (path : String) : ReadAnswer → Except Failure (List Token)
  | .error cause => .error (.unreadable path cause)
  | .ok bytes =>
    match Text.decodeUtf8 bytes with
    | .error fault => .error (.notText path fault)
    | .ok text => (Source.tokenize (.ofPath path) text).mapError (.untokenizable path)

abbrev Outcome := Except Failure (List Token)

/-- What a finished load of a path gave: the answer to its read, and what followed from it. -/
structure LoadResult (path : String) where
  answer : ReadAnswer
  outcome : Outcome := tokensOf path answer
  outcome_eq : outcome = tokensOf path answer := by rfl

def LoadResult.ofAnswer (path : String) (answer : ReadAnswer) : LoadResult path := { answer }

/-- A load of a path; it has no result while it is under way. -/
structure Load where
  path : String
  result : Option (LoadResult path) := none

def Load.outcome? (load : Load) : Option Outcome := load.result.map (·.outcome)

/-- What a request holds in its hand: tokens, or the number of the load to wait for. -/
inductive Ticket
  | tokens (held : List Token)
  | load (index : Nat)
  deriving DecidableEq, Repr

/-- The tokens held, the register of loads under way, and every load there ever was, in the order in
which they started. -/
structure TokenCache where
  held : List (String × List Token) := []
  register : List (String × Nat) := []
  loads : List Load := []

namespace TokenCache

def find? (c : TokenCache) (path : String) : Option (List Token) := c.held.lookup path

def contains (c : TokenCache) (path : String) : Bool := (c.find? path).isSome

def size (c : TokenCache) : Nat := c.held.length

def isEmpty (c : TokenCache) : Bool := c.held.isEmpty

def reads (c : TokenCache) : Nat := c.loads.length

def underWay? (c : TokenCache) (path : String) : Option Nat := c.register.lookup path

def start (c : TokenCache) (path : String) : TokenCache :=
  { c with register := (path, c.loads.length) :: c.register, loads := c.loads ++ [{ path }] }

def request (c : TokenCache) (path : String) : Ticket × TokenCache :=
  match c.find? path with
  | some tokens => (.tokens tokens, c)
  | none =>
    match c.underWay? path with
    | some index => (.load index, c)
    | none => (.load c.loads.length, c.start path)

def publish (c : TokenCache) (path : String) (tokens : List Token) : TokenCache :=
  { c with held := (path, tokens) :: c.held.filter fun entry => entry.1 != path }

def finish (c : TokenCache) (index : Nat) {path : String} (result : LoadResult path) : TokenCache :=
  { c with
    register := c.register.filter fun entry => entry.1 != path
    loads := c.loads.set index { path, result := some result } }

def complete (c : TokenCache) (index : Nat) (answer : ReadAnswer) : TokenCache :=
  match c.loads[index]? with
  | some { path, result := none } =>
    let result := LoadResult.ofAnswer path answer
    match result.outcome with
    | .ok tokens => (c.finish index result).publish path tokens
    | .error _ => c.finish index result
  | _ => c

def redeem? (c : TokenCache) : Ticket → Option Outcome
  | .tokens held => some (.ok held)
  | .load index => c.loads[index]?.bind Load.outcome?

/-- What a ticket is worth to a caller who waits no longer. -/
def redeem (c : TokenCache) (ticket : Ticket) : Outcome :=
  (c.redeem? ticket).getD (.error .cancelled)

def firstUnderWay? (c : TokenCache) : Option (Nat × String) :=
  (c.loads.findIdx? fun load => load.result.isNone).bind fun index =>
    c.loads[index]?.map fun load => (index, load.path)

variable {m : Type → Type} [Monad m]

def await (read : String → m ReadAnswer) (c : TokenCache) : Ticket → m TokenCache
  | .tokens _ => pure c
  | .load index =>
    match c.loads[index]? with
    | some { path, result := none } => c.complete index <$> read path
    | _ => pure c

def get (read : String → m ReadAnswer) (c : TokenCache) (path : String) :
    m (Outcome × TokenCache) := do
  let (ticket, c) := c.request path
  let c ← c.await read ticket
  return (c.redeem ticket, c)

end TokenCache

end GoroutineDump.Highlight
