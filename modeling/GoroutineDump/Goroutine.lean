import GoroutineDump.Roots

set_option autoImplicit false
set_option relaxedAutoImplicit false

namespace GoroutineDump

structure Duration where
  nanoseconds : Nat
  deriving DecidableEq, Repr

namespace Duration

def nanosecondsPerSecond : Nat := 1000000000

def zero : Duration := ⟨0⟩

def ofSeconds (n : Nat) : Duration := ⟨n * nanosecondsPerSecond⟩

/-- Whole minutes; their number of seconds stops at the largest one of 64 bits. -/
def ofMinutes (m : UInt64) : Duration := ofSeconds (min (m.toNat * 60) (UInt64.size - 1))

def seconds (d : Duration) : Nat := d.nanoseconds / nanosecondsPerSecond

def subsecond (d : Duration) : Nat := d.nanoseconds % nanosecondsPerSecond

end Duration

structure Location where
  tree : SourceTree
  /-- The path of the file below the root of its tree. -/
  file : String
  line : UInt64
  deriving DecidableEq, Repr

structure Call where
  package : String
  method : String
  /-- The text between the parentheses of the call. -/
  args : String := ""
  /-- What follows the line number of the frame. -/
  extra : String := ""
  /-- The frame tells where the goroutine was started. -/
  origin : Bool := false
  deriving DecidableEq, Repr

/-- A rendered excerpt of source around a call: the lines up to the call's own line, and the lines
after it. Both parts are HTML. -/
structure Excerpt where
  leading : String := ""
  trailing : String := ""
  deriving DecidableEq, Repr

def Excerpt.isEmpty (e : Excerpt) : Bool := e.leading.isEmpty && e.trailing.isEmpty

structure Frame where
  location : Location
  call : Call
  excerpt : Excerpt := {}
  deriving DecidableEq, Repr

/-- A goroutine with its call stack, the innermost call first. -/
structure Goroutine where
  id : UInt64
  /-- What the goroutine is doing or waiting for. -/
  state : String
  /-- For how long it has been blocked. -/
  blocked : Duration := .zero
  /-- It is tied to one thread of the operating system. -/
  locked : Bool := false
  /-- The goroutine that started it, where the dump names one. -/
  parent : Option UInt64 := none
  stack : List Frame := []
  deriving DecidableEq, Repr

namespace Goroutine

/-- An entry goroutine was not started by another one: its outermost frame is an ordinary call. -/
def isEntry (g : Goroutine) : Bool := g.stack.getLast?.any (!·.call.origin)

def locations (g : Goroutine) : List Location := g.stack.map (·.location)

def calls (g : Goroutine) : List Call := g.stack.map (·.call)

end Goroutine

def Roots.pathOf (r : Roots) (l : Location) : String := r.resolve l.tree l.file

def Location.compare : Location → Location → Ordering :=
  compareLex (compareOn fun l => l.tree.rank) (compareLex (compareOn Location.file)
    (compareOn Location.line))

/-- The first differing location decides; a proper beginning of a stack comes before it. -/
def compareStacks : List Location → List Location → Ordering := List.compareLex Location.compare

def Goroutine.compare : Goroutine → Goroutine → Ordering :=
  compareLex (fun a b => compareOn Goroutine.isEntry b a)
    (compareLex (fun a b => compareOn (fun g => g.blocked.nanoseconds) b a)
      (compareOn Goroutine.id))

/-- The goroutines in the order of a listing; equals keep their order. -/
def sortGoroutines (gs : List Goroutine) : List Goroutine :=
  gs.mergeSort fun a b => (Goroutine.compare a b).isLE

/-- The goroutines with one and the same stack of locations: the stack, and for each of them the
calls of its frames. -/
structure StackGroup where
  stack : List Location
  calls : List (List Call)
  deriving DecidableEq, Repr

namespace StackGroup

def size (g : StackGroup) : Nat := g.calls.length

def isEmpty (g : StackGroup) : Bool := g.calls.isEmpty

/-- The group of a run of goroutines, whose first one gives the stack. -/
def ofRun? : List Goroutine → Option StackGroup
  | [] => none
  | g :: gs => some ⟨g.locations, (g :: gs).map (·.calls)⟩

end StackGroup

/-- The goroutines by ascending stack; those of one stack keep their order. -/
def sortByStack (gs : List Goroutine) : List Goroutine :=
  gs.mergeSort fun a b => (compareStacks a.locations b.locations).isLE

def groupByStack (gs : List Goroutine) : List StackGroup :=
  ((sortByStack gs).splitBy fun a b => compareStacks a.locations b.locations == .eq).filterMap
    StackGroup.ofRun?

/-- Bounds on the time for which a goroutine has been blocked. Both are inclusive and optional. -/
structure BlockedRange where
  min : Option Duration := none
  max : Option Duration := none
  deriving DecidableEq, Repr

namespace BlockedRange

def isUnbounded (r : BlockedRange) : Bool := r.min.isNone && r.max.isNone

def includes (r : BlockedRange) (g : Goroutine) : Bool :=
  r.min.all (·.nanoseconds ≤ g.blocked.nanoseconds) &&
    r.max.all (g.blocked.nanoseconds ≤ ·.nanoseconds)

def select (r : BlockedRange) (gs : List Goroutine) : List Goroutine × Nat :=
  if r.isUnbounded then (gs, 0)
  else
    let kept := gs.filter r.includes
    (kept, gs.length - kept.length)

end BlockedRange

end GoroutineDump
