import GoroutineDump.Highlight.Cache
import GoroutineDump.Highlight.Listing

set_option autoImplicit false
set_option relaxedAutoImplicit false

namespace GoroutineDump.Highlight

open Source (ReadAnswer Token)

/-- What it takes to show an excerpt: the roots below which the sources lie, and how it looks. -/
structure Highlighter where
  roots : Roots := {}
  options : RenderOptions := {}
  deriving DecidableEq, Repr

namespace Highlighter

def excerpt (h : Highlighter) (context : Int) (l : Location) (tokens : List Token) :
    Except Failure Excerpt :=
  match excerpt? h.options tokens l.line context with
  | some e => .ok e
  | none => .error .noSuchLine

/-- The excerpt around a location as a matter of what loading its file gave. -/
def excerptOf (h : Highlighter) (context : Int) (l : Location) (outcome : Outcome) :
    Except Failure Excerpt :=
  outcome.bind (h.excerpt context l)

variable {m : Type → Type} [Monad m]

/-- Shows the excerpt around a location. A negative context asks for nothing, and the cache is left
alone. -/
def highlight (h : Highlighter) (read : String → m ReadAnswer) (c : TokenCache) (l : Location)
    (context : Int) : m (Except Failure Excerpt × TokenCache) := do
  if context < 0 then return (.ok {}, c)
  let (outcome, c) ← c.get read (h.roots.pathOf l)
  return (h.excerptOf context l outcome, c)

end Highlighter

/-- How far a task has come. While it works it knows the excerpts that are done and the locations
that are still to do. -/
inductive Stage
  /-- needs a permit -/
  | waiting (todo : List Location)
  /-- looks at the flags before the next frame, or has no further frame -/
  | checking (done : List Excerpt) (todo : List Location)
  /-- is about to ask for the tokens of a frame's file -/
  | requesting (done : List Excerpt) (current : Location) (todo : List Location)
  /-- waits for the tokens of a frame's file -/
  | loading (done : List Excerpt) (current : Location) (todo : List Location) (ticket : Ticket)
  /-- has failed and not told anyone -/
  | failing (failure : Failure)
  /-- has left its failure and not raised the flag -/
  | aborting
  | failed
  | finished
  deriving DecidableEq, Repr

def Stage.isOver : Stage → Bool
  | .failed | .finished => true
  | _ => false

structure Pass where
  cache : TokenCache
  /-- how many more tasks may work at the same time -/
  permits : Nat
  tasks : Array Stage
  /-- the caller wants the pass to stop -/
  cancelled : Bool := false
  /-- a task wants the others to stop -/
  aborted : Bool := false
  /-- the failure that came first -/
  failure : Option Failure := none
  /-- the excerpts of the tasks that are finished, in the order in which they finished -/
  results : List (Nat × List Excerpt) := []

inductive Event
  /-- a task takes its next step -/
  | advance (task : Nat)
  /-- a load ends -/
  | answer (load : Nat) (answer : ReadAnswer)
  /-- the caller cancels the pass -/
  | cancel

namespace Pass

/-- The start of a pass over goroutines whose frames have the given locations. -/
def start (cache : TokenCache) (permits : Nat) (cancelled : Bool)
    (locations : List (List Location)) : Pass :=
  { cache, permits, cancelled, tasks := (locations.map Stage.waiting).toArray }

def put (p : Pass) (task : Nat) (stage : Stage) : Pass :=
  { p with tasks := p.tasks.setIfInBounds task stage }

def release (p : Pass) : Pass := { p with permits := p.permits + 1 }

/-- The step that a task at a given stage takes; `none` if it has to wait or is over. -/
def advanceFrom? (h : Highlighter) (context : Int) (p : Pass) (task : Nat) : Stage → Option Pass
  | .waiting todo =>
    if p.permits = 0 then none
    else some ({ p with permits := p.permits - 1 }.put task (.checking [] todo))
  | .checking done [] =>
    some ({ p.release with results := p.results ++ [(task, done)] }.put task .finished)
  | .checking done (l :: todo) =>
    if p.cancelled || p.aborted then some (p.release.put task (.failing .cancelled))
    else some (p.put task (.requesting done l todo))
  | .requesting done l todo =>
    let (ticket, cache) := p.cache.request (h.roots.pathOf l)
    some ({ p with cache }.put task (.loading done l todo ticket))
  | .loading done l todo ticket =>
    (p.cache.redeem? ticket).map fun outcome =>
      match h.excerptOf context l outcome with
      | .ok e => p.put task (.checking (done ++ [e]) todo)
      | .error failure => p.release.put task (.failing failure)
  | .failing failure => some ({ p with failure := p.failure.or (some failure) }.put task .aborting)
  | .aborting => some ({ p with aborted := true }.put task .failed)
  | .failed | .finished => none

def advance? (h : Highlighter) (context : Int) (p : Pass) (task : Nat) : Option Pass :=
  p.tasks[task]?.bind (p.advanceFrom? h context task)

def answer? (p : Pass) (load : Nat) (answer : ReadAnswer) : Option Pass :=
  if p.cache.loads[load]?.any (·.result.isNone) then
    some { p with cache := p.cache.complete load answer }
  else none

def step? (h : Highlighter) (context : Int) (p : Pass) : Event → Option Pass
  | .advance task => p.advance? h context task
  | .answer load answer => p.answer? load answer
  | .cancel => some { p with cancelled := true }

def isOver (p : Pass) : Bool := p.tasks.all Stage.isOver

end Pass

def fillFrames : List Frame → List Excerpt → List Frame
  | f :: fs, e :: es => { f with excerpt := e } :: fillFrames fs es
  | fs, _ => fs

def fillGoroutine (excerpts : List Excerpt) (g : Goroutine) : Goroutine :=
  { g with stack := fillFrames g.stack excerpts }

def fillAll (gs : List Goroutine) (results : List (Nat × List Excerpt)) : List Goroutine :=
  results.foldl (fun gs (place, excerpts) => gs.modify place (fillGoroutine excerpts)) gs

/-- The goroutines as a pass that is over leaves them: with all results filled in, or untouched. -/
def Pass.goroutines (p : Pass) (gs : List Goroutine) : List Goroutine :=
  if p.failure.isSome then gs else fillAll gs p.results

def Pass.conclude (p : Pass) (gs : List Goroutine) : Except Failure (List Goroutine) :=
  match p.failure with
  | some failure => .error failure
  | none => .ok (p.goroutines gs)

/-- A bound on the steps that a task takes, together with the ends of the loads that it starts. -/
def Stage.stepsLeft : Stage → Nat
  | .waiting todo => 4 * todo.length + 4
  | .checking _ todo => 4 * todo.length + 3
  | .requesting _ _ todo => 4 * todo.length + 6
  | .loading _ _ todo _ => 4 * todo.length + 4
  | .failing _ => 2
  | .aborting => 1
  | .failed | .finished => 0

namespace Pass

def stepsLeft (p : Pass) : Nat :=
  (p.tasks.toList.map Stage.stepsLeft).foldr (· + ·) 0 + p.cache.loads.countP (·.result.isNone)

def advanceFirst? (h : Highlighter) (context : Int) (p : Pass) : Option Pass :=
  (List.range p.tasks.size).findSome? (p.advance? h context)

variable {m : Type → Type} [Monad m]

/-- Runs a pass for a number of steps. While a path that `cancelling` accepts is being read, the
caller cancels the pass. -/
def runFor (h : Highlighter) (context : Int) (read : String → m ReadAnswer)
    (cancelling : String → Bool) : Nat → Pass → m Pass
  | 0, p => pure p
  | steps + 1, p =>
    match p.advanceFirst? h context with
    | some p => runFor h context read cancelling steps p
    | none =>
      match p.cache.firstUnderWay? with
      | none => pure p
      | some (load, path) => do
        let answer ← read path
        let p := { p with
          cancelled := p.cancelled || cancelling path
          cache := p.cache.complete load answer }
        runFor h context read cancelling steps p

def run (h : Highlighter) (context : Int) (read : String → m ReadAnswer)
    (cancelling : String → Bool) (p : Pass) : m Pass :=
  runFor h context read cancelling p.stepsLeft p

end Pass

def workers : Nat := 8

/-- How the caller of a pass may cancel it: beforehand, or while one of the sources is read. -/
structure Cancellation where
  beforehand : Bool := false
  whileReading : String → Bool := fun _ => false

variable {m : Type → Type} [Monad m]

/-- Fills in the excerpts of the first goroutines of a list; with a negative context there is nothing
to do. What comes back besides the goroutines is the pass at its end. -/
def enrich (h : Highlighter) (read : String → m ReadAnswer) (cancellation : Cancellation)
    (cache : TokenCache) (options : MarkupOptions) (gs : List Goroutine) :
    m (Except Failure (List Goroutine) × Pass) := do
  if options.isDisabled then
    return (.ok gs, Pass.start cache workers cancellation.beforehand [])
  let marked := gs.take (options.count gs.length)
  let p ← (Pass.start cache workers cancellation.beforehand (marked.map (·.locations))).run h
    options.context read cancellation.whileReading
  return (p.conclude gs, p)

end GoroutineDump.Highlight
