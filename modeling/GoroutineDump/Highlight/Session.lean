import GoroutineDump.Highlight.Pass

set_option autoImplicit false
set_option relaxedAutoImplicit false

namespace GoroutineDump.Highlight

open Source (Collection ReadAnswer)
open Files (Place Tree)

inductive Sources
  /-- sources under the very texts of their paths -/
  | collection (sources : Collection)
  /-- files; a relative path starts at `base`, and the empty path is `base` itself -/
  | files (base : Place) (tree : Tree)
  deriving DecidableEq, Repr

namespace Sources

def pathInFiles (path : String) : String := if path.isEmpty then "." else path

def read : Sources → String → ReadAnswer
  | .collection sources, path => sources.read path
  | .files base tree, path => tree.read base (pathInFiles path)

/-- Whether it shows without any wait that a source cannot be read, as it does in a collection. -/
def failsAtOnce : Sources → String → Bool
  | .collection sources, path => (sources.find? path).isNone
  | .files _ _, _ => false

/-- The sources with one more; where no file can be written there is none. -/
def put : Sources → String → List UInt8 → Option Sources
  | .collection sources, path, bytes => some (.collection (sources.insert path bytes))
  | .files base tree, path, bytes => .files base <$> tree.write? base (pathInFiles path) bytes

def remove? : Sources → String → Option Sources
  | .collection sources, path =>
    if (sources.find? path).isSome then some (.collection (sources.erase path)) else none
  | .files base tree, path => .files base <$> tree.remove? base (pathInFiles path)

end Sources

inductive Request
  | put (path : String) (bytes : List UInt8)
  | remove (path : String)
  | contains (path : String)
  | roots
  | get (path : String)
  | getAll (paths : List String)
  | highlight (location : Location) (context : Int)
  | enrich (goroutines : List Goroutine) (options : MarkupOptions) (cancellation : Cancellation)

inductive Reply
  /-- whether a source could be written, or was there to be removed -/
  | changed (done : Bool)
  | contains (held : Bool)
  /-- the roots of the highlighter and the size of its cache -/
  | roots (roots : Roots) (size : Nat)
  | tokens (outcome : Outcome)
  | allTokens (outcomes : List Outcome)
  | excerpt (excerpt : Except Failure Excerpt)
  /-- the goroutines after a pass, its failure if it had one, and whether its caller cancelled it -/
  | enriched (goroutines : List Goroutine) (failure : Option Failure) (cancelled : Bool)

structure Session where
  sources : Sources
  highlighter : Highlighter := {}
  cache : TokenCache := {}

namespace Session

def change (s : Session) : Option Sources → Reply × Session
  | some sources => (.changed true, { s with sources })
  | none => (.changed false, s)

def read (s : Session) (path : String) : Id ReadAnswer := s.sources.read path

/-- Asks for a path that others may be waiting for. The second one to wait gets its load going, and if
it fails at once it ends there and then. -/
def join (s : Session) (c : TokenCache) (path : String) : Ticket × TokenCache :=
  match c.underWay? path with
  | none => c.request path
  | some index =>
    let (ticket, c) := c.request path
    (ticket, if s.sources.failsAtOnce path then c.complete index (s.sources.read path) else c)

def joinAll (s : Session) (c : TokenCache) : List String → List Ticket × TokenCache
  | [] => ([], c)
  | path :: paths =>
    let (ticket, c) := s.join c path
    let (tickets, c) := s.joinAll c paths
    (ticket :: tickets, c)

def getAll (s : Session) (paths : List String) : Reply × Session :=
  let (tickets, cache) := s.joinAll s.cache paths
  let cache := Id.run (tickets.foldlM (TokenCache.await s.read) cache)
  (.allTokens (tickets.map cache.redeem), { s with cache })

def enrich (s : Session) (gs : List Goroutine) (options : MarkupOptions)
    (cancellation : Cancellation) : Reply × Session :=
  let (result, pass) :=
    Id.run (Highlight.enrich s.highlighter s.read cancellation s.cache options gs)
  let failure := match result with
    | .ok _ => none
    | .error failure => some failure
  (.enriched (pass.goroutines gs) failure pass.cancelled, { s with cache := pass.cache })

def answer (s : Session) : Request → Reply × Session
  | .put path bytes => s.change (s.sources.put path bytes)
  | .remove path => s.change (s.sources.remove? path)
  | .contains path => (.contains (s.cache.contains path), s)
  | .roots => (.roots s.highlighter.roots s.cache.size, s)
  | .get path =>
    let (outcome, cache) := Id.run (s.cache.get s.read path)
    (.tokens outcome, { s with cache })
  | .getAll paths => s.getAll paths
  | .highlight l context =>
    let (excerpt, cache) := Id.run (s.highlighter.highlight s.read s.cache l context)
    (.excerpt excerpt, { s with cache })
  | .enrich gs options cancellation => s.enrich gs options cancellation

end Session

end GoroutineDump.Highlight
