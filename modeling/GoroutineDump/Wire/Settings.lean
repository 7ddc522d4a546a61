import GoroutineDump.Settings
import GoroutineDump.Toml.Document
import GoroutineDump.Wire.Goroutine

set_option autoImplicit false
set_option relaxedAutoImplicit false

namespace GoroutineDump

namespace Source

def TokenClass.toJson (c : TokenClass) : Json := .str c.wireName

def TokenClass.ofJson? : Json → Option TokenClass := Json.name? ofWireName? Json.isNull

namespace Token

def toJson (t : Token) : Json := .obj [("class", t.tokenClass.toJson), ("text", .str t.text)]

def toJsonPair (t : Token) : Json := .arr [t.tokenClass.toJson, .str t.text]

def ofJson? (j : Json) : Option Token := do
  let f ← j.fields? .refused 2
  return {
    tokenClass := ← f.required 0 "class" TokenClass.ofJson?
    text := ← f.required 1 "text" Json.text? }

end Token

end Source

namespace Highlight

namespace RenderOptions

def toJson (o : RenderOptions) : Json :=
  .obj [("tab_width", .word o.tabWidth), ("line_numbers", .bool o.lineNumbers)]

def ofJson? (j : Json) : Option RenderOptions := do
  let f ← j.fields? .refused 2
  return {
    tabWidth := ← f.required 0 "tab_width" Json.word?
    lineNumbers := ← f.required 1 "line_numbers" Json.bool? }

end RenderOptions

namespace MarkupOptions

def toJson (o : MarkupOptions) : Json :=
  .obj [("limit", .word o.limit), ("wrap_size", .int o.context)]

def ofJson? (j : Json) : Option MarkupOptions := do
  let f ← j.fields? .refused 2
  return {
    limit := ← f.required 0 "limit" Json.word?
    context := ← f.required 1 "wrap_size" Json.int32? }

end MarkupOptions

end Highlight

end GoroutineDump

namespace GoroutineDump.Settings

open Highlight (MarkupOptions)
open Json (Surplus)

def toJson (s : Settings) : Json :=
  .obj [("local", s.localRoots.toJson), ("remote", s.remoteRoots.toJson),
    ("markup", s.markup.toJson),
    ("filter", .obj [("min_minutes", .nullable Json.word s.minMinutes),
      ("max_minutes", .nullable Json.word s.maxMinutes)]),
    ("tab_width", .word s.tabWidth)]

def markupOfJson? (surplus : Surplus) (j : Json) : Option MarkupOptions := do
  let f ← j.fields? surplus 2
  let d : MarkupOptions := ({} : Settings).markup
  return {
    limit := ← f.optional 0 "limit" d.limit Json.word?
    context := ← f.optional 1 "wrap_size" d.context Json.int32? }

def minutesOfJson? (surplus : Surplus) (j : Json) : Option (Option UInt64 × Option UInt64) := do
  let f ← j.fields? surplus 2
  return (← f.optional 0 "min_minutes" none (Json.nullable? Json.word?),
    ← f.optional 1 "max_minutes" none (Json.nullable? Json.word?))

def ofJson? (surplus : Surplus) (j : Json) : Option Settings := do
  let f ← j.fields? surplus 5
  let d : Settings := {}
  let localRoots ← f.optional 0 "local" d.localRoots (Roots.ofJson? surplus)
  let remoteRoots ← f.optional 1 "remote" d.remoteRoots (Roots.ofJson? surplus)
  let markup ← f.optional 2 "markup" d.markup (markupOfJson? surplus)
  let (minMinutes, maxMinutes) ← f.optional 3 "filter" (none, none) (minutesOfJson? surplus)
  let tabWidth ← f.optional 4 "tab_width" d.tabWidth Json.word?
  return { localRoots, remoteRoots, markup, minMinutes, maxMinutes, tabWidth }

def ofToml? (text : String) : Option Settings := do
  ofJson? .ignored (← Toml.parse? text).toJson

end GoroutineDump.Settings
