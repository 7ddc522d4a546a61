import GoroutineDump.Goroutine
import GoroutineDump.Json.Value

set_option autoImplicit false
set_option relaxedAutoImplicit false

namespace GoroutineDump

open Json (Surplus)

def SourceTree.toJson (t : SourceTree) : Json := .str t.name

def SourceTree.ofJson? : Json → Option SourceTree := Json.name? ofName? Json.isNull

namespace Roots

def toJson (r : Roots) : Json :=
  .obj [("root", .str r.project), ("goroot", .str r.runtime), ("gopath", .str r.library)]

def ofJson? (surplus : Surplus) (j : Json) : Option Roots := do
  let f ← j.fields? surplus 3
  return {
    project := ← f.optional 0 "root" "" Json.text?
    runtime := ← f.optional 1 "goroot" "" Json.text?
    library := ← f.optional 2 "gopath" "" Json.text? }

end Roots

namespace Location

def entries (l : Location) : List (String × Json) :=
  [("root", l.tree.toJson), ("file", .str l.file), ("line", .word l.line)]

def toJson (l : Location) : Json := .obj l.entries

/-- Reads the fields of a location, of which the tree is read as told. -/
def ofFields? (tree? : Json → Option SourceTree) (f : Json.Fields) : Option Location := do
  return {
    tree := ← f.required 0 "root" tree?
    file := ← f.required 1 "file" Json.text?
    line := ← f.required 2 "line" Json.word? }

def ofJson? (j : Json) : Option Location := j.fields? .refused 3 >>= ofFields? SourceTree.ofJson?

end Location

namespace Call

def entries (c : Call) : List (String × Json) :=
  [("package", .str c.package), ("method", .str c.method)] ++
    Json.entryUnless c.args.isEmpty "args" (.str c.args) ++
    Json.entryUnless c.extra.isEmpty "extra" (.str c.extra) ++
    Json.entryUnless (!c.origin) "origin" (.bool c.origin)

def toJson (c : Call) : Json := .obj c.entries

def ofFields? (f : Json.Fields) : Option Call := do
  return {
    package := ← f.required 0 "package" Json.text?
    method := ← f.required 1 "method" Json.text?
    args := ← f.optional 2 "args" "" Json.text?
    extra := ← f.optional 3 "extra" "" Json.text?
    origin := ← f.optional 4 "origin" false Json.bool? }

def ofJson? (j : Json) : Option Call := j.fields? .refused 5 >>= ofFields?

end Call

namespace Excerpt

def entries (e : Excerpt) : List (String × Json) :=
  Json.entryUnless e.leading.isEmpty "prefix" (.str e.leading) ++
    Json.entryUnless e.trailing.isEmpty "suffix" (.str e.trailing)

def toJson (e : Excerpt) : Json := .obj e.entries

def ofFields? (f : Json.Fields) : Option Excerpt := do
  return {
    leading := ← f.optional 0 "prefix" "" Json.text?
    trailing := ← f.optional 1 "suffix" "" Json.text? }

def ofJson? (j : Json) : Option Excerpt := j.fields? .refused 2 >>= ofFields?

end Excerpt

namespace Frame

def toJson (f : Frame) : Json := .obj (f.location.entries ++ f.call.entries ++ f.excerpt.entries)

/-- The tree of a frame; beside its name an empty object is nothing, too. -/
def treeOfJson? : Json → Option SourceTree := Json.name? SourceTree.ofName? Json.isNullOrEmpty

def ofJson? : Json → Option Frame
  | .obj entries => do
    let f := Json.Fields.named entries
    return {
      location := ← Location.ofFields? treeOfJson? f
      call := ← Call.ofFields? f
      excerpt := ← Excerpt.ofFields? f }
  | _ => none

end Frame

namespace Duration

/-- A span of time as its number of nanoseconds, which stops at the largest one of 64 bits. -/
def toJson (d : Duration) : Json := .count (min d.nanoseconds (UInt64.size - 1))

def ofJson? (j : Json) : Option Duration := j.word?.map fun n => ⟨n.toNat⟩

def toJsonExact (d : Duration) : Json :=
  .obj [("secs", .count d.seconds), ("nanos", .count d.subsecond)]

def exactFields? (j : Json) : Option Json.Fields := do
  let f ← j.fields? .refused 2
  match f with
  | .named entries => if entries.all fun e => e.1 = "secs" ∨ e.1 = "nanos" then some f else none
  | .listed _ => some f

/-- Reads seconds and nanoseconds. Nanoseconds beyond a second count as seconds, as long as the
seconds fit into 64 bits and the nanoseconds into 32. -/
def ofJsonExact? (j : Json) : Option Duration := do
  let f ← exactFields? j
  let seconds ← f.required 0 "secs" Json.word?
  let nanoseconds ← f.required 1 "nanos" Json.word?
  let d : Duration := ⟨seconds.toNat * nanosecondsPerSecond + nanoseconds.toNat⟩
  if nanoseconds.toNat < UInt32.size ∧ d.seconds < UInt64.size then some d else none

end Duration

namespace Goroutine

def toJson (g : Goroutine) : Json :=
  .obj ([("id", .word g.id), ("op", .str g.state)] ++
    Json.entryUnless (g.blocked = .zero) "duration" g.blocked.toJson ++
    Json.entryUnless (!g.locked) "lockedToThread" (.bool g.locked) ++
    Json.entryUnless g.parent.isNone "parent" (.nullable Json.word g.parent) ++
    Json.entryUnless g.stack.isEmpty "callStack" (.list Frame.toJson g.stack))

def ofJson? (j : Json) : Option Goroutine := do
  let f ← j.fields? .refused 6
  return {
    id := ← f.required 0 "id" Json.word?
    state := ← f.required 1 "op" Json.text?
    blocked := ← f.optional 2 "duration" .zero Duration.ofJson?
    locked := ← f.optional 3 "lockedToThread" false Json.bool?
    parent := ← f.optional 4 "parent" none (Json.nullable? Json.word?)
    stack := ← f.optional 5 "callStack" [] (Json.list? Frame.ofJson?) }

end Goroutine

namespace StackGroup

def entries (g : StackGroup) : List (String × Json) :=
  [("stack", .list Location.toJson g.stack), ("calls", .list (Json.list Call.toJson) g.calls)]

def toJson (g : StackGroup) : Json := .obj g.entries

def ofJson? (j : Json) : Option StackGroup := do
  let f ← j.fields? .refused 2
  return {
    stack := ← f.required 0 "stack" (Json.list? Location.ofJson?)
    calls := ← f.required 1 "calls" (Json.list? (Json.list? Call.ofJson?)) }

end StackGroup

namespace BlockedRange

def toJson (r : BlockedRange) : Json :=
  .obj [("min", .nullable Duration.toJsonExact r.min), ("max", .nullable Duration.toJsonExact r.max)]

def ofJson? (j : Json) : Option BlockedRange := do
  let f ← j.fields? .refused 2
  return {
    min := ← f.nullable 0 "min" Duration.ofJsonExact?
    max := ← f.nullable 1 "max" Duration.ofJsonExact? }

end BlockedRange

end GoroutineDump
