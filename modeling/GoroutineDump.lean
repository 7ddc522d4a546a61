import GoroutineDump.CommandLine.Arguments
import GoroutineDump.CommandLine.Run
import GoroutineDump.Dump.Error
import GoroutineDump.Dump.Line
import GoroutineDump.Dump.Record
import GoroutineDump.Goroutine
import GoroutineDump.Highlight.Cache
import GoroutineDump.Highlight.Listing
import GoroutineDump.Highlight.Pass
import GoroutineDump.Highlight.Session
import GoroutineDump.Html
import GoroutineDump.Json.Printer
import GoroutineDump.Json.Reader
import GoroutineDump.Json.Value
import GoroutineDump.Main
import GoroutineDump.Path
import GoroutineDump.Proofs.Cache.Coalescing
import GoroutineDump.Proofs.Cache.Coherence
import GoroutineDump.Proofs.Cache.Holding
import GoroutineDump.Proofs.Cache.Overlapping
import GoroutineDump.Proofs.Cache.Serving
import GoroutineDump.Proofs.Dump.CallLine
import GoroutineDump.Proofs.Dump.Cuts
import GoroutineDump.Proofs.Dump.Elisions
import GoroutineDump.Proofs.Dump.Faults
import GoroutineDump.Proofs.Dump.Grammar
import GoroutineDump.Proofs.Dump.Header
import GoroutineDump.Proofs.Dump.LocationLine
import GoroutineDump.Proofs.Dump.Lookups
import GoroutineDump.Proofs.Dump.Origins
import GoroutineDump.Proofs.Dump.Record
import GoroutineDump.Proofs.Dump.RoundTrip
import GoroutineDump.Proofs.Dump.Runs
import GoroutineDump.Proofs.Dump.WellFormed
import GoroutineDump.Proofs.Goroutine.Listing
import GoroutineDump.Proofs.Goroutine.Order
import GoroutineDump.Proofs.Goroutine.Partition
import GoroutineDump.Proofs.Goroutine.Selecting
import GoroutineDump.Proofs.Highlight.Escaping
import GoroutineDump.Proofs.Highlight.Excerpt
import GoroutineDump.Proofs.Highlight.Marking
import GoroutineDump.Proofs.Highlight.Publishing
import GoroutineDump.Proofs.Highlight.Renderable
import GoroutineDump.Proofs.Highlight.Tags
import GoroutineDump.Proofs.Html
import GoroutineDump.Proofs.Markup.Asking
import GoroutineDump.Proofs.Markup.Cancelling
import GoroutineDump.Proofs.Markup.Causes
import GoroutineDump.Proofs.Markup.Commit
import GoroutineDump.Proofs.Markup.Failing
import GoroutineDump.Proofs.Markup.Progress
import GoroutineDump.Proofs.Markup.Repeating
import GoroutineDump.Proofs.Markup.Steps
import GoroutineDump.Proofs.Path
import GoroutineDump.Proofs.Roots.Bare
import GoroutineDump.Proofs.Roots.Classify
import GoroutineDump.Proofs.Roots.Defaults
import GoroutineDump.Proofs.Settings.Sound
import GoroutineDump.Proofs.Sorting
import GoroutineDump.Proofs.Source.GoLexeme
import GoroutineDump.Proofs.Source.Lexeme
import GoroutineDump.Proofs.Source.Scanning
import GoroutineDump.Proofs.Source.Tokenizing
import GoroutineDump.Proofs.Source.Window
import GoroutineDump.Proofs.Text
import GoroutineDump.Proofs.Wire.Lossless
import GoroutineDump.Roots
import GoroutineDump.Settings
import GoroutineDump.Source.GoLexeme
import GoroutineDump.Source.Lexeme
import GoroutineDump.Source.Lexer
import GoroutineDump.Source.Reading
import GoroutineDump.Source.Token
import GoroutineDump.Text
import GoroutineDump.Text.Notation
import GoroutineDump.Toml.Document
import GoroutineDump.Toml.Number
import GoroutineDump.Toml.Table
import GoroutineDump.Toml.Text
import GoroutineDump.Unicode
import GoroutineDump.Wire.Goroutine
import GoroutineDump.Wire.Settings
