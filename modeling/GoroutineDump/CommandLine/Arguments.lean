import GoroutineDump.Text.Notation

/-!
The name of a command stands between options that hold for every command and options that are its
own; the general options may also stand behind it and then win.
-/

set_option autoImplicit false
set_option relaxedAutoImplicit false

namespace GoroutineDump.CommandLine

inductive Command
  /-- show the goroutines -/
  | parse
  /-- show them grouped by stack -/
  | group
  deriving DecidableEq, Repr

def Command.ofName? : String → Option Command
  | "parse" => some .parse
  | "group" => some .group
  | _ => none

inductive ValueOption
  | config
  | root
  | goroot
  | gopath
  | remoteRoot
  | remoteGoroot
  | remoteGopath
  | minMinutes
  | maxMinutes
  | wrap
  | markupLimit
  deriving DecidableEq, Repr

namespace ValueOption

def ofName? : String → Option ValueOption
  | "config" => some .config
  | "root" => some .root
  | "goroot" => some .goroot
  | "gopath" => some .gopath
  | "remote-root" => some .remoteRoot
  | "remote-goroot" => some .remoteGoroot
  | "remote-gopath" => some .remoteGopath
  | "min-minutes" => some .minMinutes
  | "max-minutes" => some .maxMinutes
  | "wrap" => some .wrap
  | "markup-limit" => some .markupLimit
  | _ => none

/-- Whether an option can stand behind a command, or in front of it where there is none yet. -/
def isKnown (o : ValueOption) : Option Command → Bool
  | none => o != .minMinutes && o != .maxMinutes && o != .wrap && o != .markupLimit
  | some .group => o != .wrap && o != .markupLimit
  | some .parse => true

/-- The value of this option may look like an option. -/
def takesHyphens (o : ValueOption) : Bool := o == .wrap

end ValueOption

/-- What was given on one side of the command's name. -/
structure Given where
  config : Option String := none
  root : Option String := none
  goroot : Option String := none
  gopath : Option String := none
  remoteRoot : Option String := none
  remoteGoroot : Option String := none
  remoteGopath : Option String := none
  minMinutes : Option UInt64 := none
  maxMinutes : Option UInt64 := none
  wrap : Option Int := none
  markupLimit : Option UInt64 := none
  verbose : Bool := false
  quiet : Bool := false
  pretty : Bool := false
  input : Option String := none
  deriving DecidableEq, Repr

namespace Given

variable {α : Type}

def fill (place value : Option α) : Option (Option α) :=
  match place, value with
  | none, some a => some (some a)
  | _, _ => none

def path? (value : String) : Option String := if value.isEmpty then none else some value

def count? (value : String) : Option UInt64 := (Text.readUnsigned value.toList).toOption

def lines? (value : String) : Option Int := (Text.readSigned value.toList).toOption

/-- Takes down the value of an option, which must not have one yet. -/
def give (g : Given) (value : String) : ValueOption → Option Given
  | .config => do return { g with config := ← fill g.config (path? value) }
  | .root => do return { g with root := ← fill g.root (some value) }
  | .goroot => do return { g with goroot := ← fill g.goroot (some value) }
  | .gopath => do return { g with gopath := ← fill g.gopath (some value) }
  | .remoteRoot => do return { g with remoteRoot := ← fill g.remoteRoot (some value) }
  | .remoteGoroot => do return { g with remoteGoroot := ← fill g.remoteGoroot (some value) }
  | .remoteGopath => do return { g with remoteGopath := ← fill g.remoteGopath (some value) }
  | .minMinutes => do return { g with minMinutes := ← fill g.minMinutes (count? value) }
  | .maxMinutes => do return { g with maxMinutes := ← fill g.maxMinutes (count? value) }
  | .wrap => do return { g with wrap := ← fill g.wrap (lines? value) }
  | .markupLimit => do return { g with markupLimit := ← fill g.markupLimit (count? value) }

def flag? (g : Given) (command : Option Command) : String → Option Given
  | "verbose" => if g.verbose then none else some { g with verbose := true }
  | "quiet" => if g.quiet then none else some { g with quiet := true }
  | "pretty" => if g.pretty || command.isNone then none else some { g with pretty := true }
  | _ => none

def giveInput (g : Given) (value : String) : Option Given := do
  return { g with input := ← fill g.input (path? value) }

def isConsistent (g : Given) : Bool := !(g.verbose && g.quiet)

/-- What was given on either side; what stands behind the command wins. -/
def inside (g outer : Given) : Given where
  config := g.config.or outer.config
  root := g.root.or outer.root
  goroot := g.goroot.or outer.goroot
  gopath := g.gopath.or outer.gopath
  remoteRoot := g.remoteRoot.or outer.remoteRoot
  remoteGoroot := g.remoteGoroot.or outer.remoteGoroot
  remoteGopath := g.remoteGopath.or outer.remoteGopath
  minMinutes := g.minMinutes
  maxMinutes := g.maxMinutes
  wrap := g.wrap
  markupLimit := g.markupLimit
  verbose := g.verbose || outer.verbose
  quiet := g.quiet || outer.quiet
  pretty := g.pretty
  input := g.input

end Given

inductive Word
  | plain (text : String)
  | endOfOptions
  | long (name : String) (value : Option String)
  | short (letters : List Char)
  deriving DecidableEq, Repr

/-- The shape of an argument; a single hyphen is plain. -/
def Word.ofArgument (argument : String) : Word :=
  match argument.toList with
  | ['-', '-'] => .endOfOptions
  | '-' :: '-' :: cs =>
    match cs.span (· != '=') with
    | (name, '=' :: value) => .long (String.ofList name) (some (String.ofList value))
    | (name, _) => .long (String.ofList name) none
  | '-' :: c :: cs => .short (c :: cs)
  | _ => .plain argument

inductive Request
  | run (command : Command) (given : Given)
  | version
  | help
  | misuse
  deriving DecidableEq, Repr

/-- A command line of which some arguments have been read. -/
structure Scan where
  /-- the command, and what was given in front of it -/
  command : Option (Command × Given) := none
  given : Given := {}
  /-- the option whose value comes next -/
  pending : Option ValueOption := none
  optionsEnded : Bool := false
  deriving DecidableEq, Repr

namespace Scan

abbrev Step := Except Request Scan

def continueWith (s : Scan) : Option Given → Step
  | some given => .ok { s with given, pending := none }
  | none => .error .misuse

/-- A flag by its long name, or a request that is answered at once. -/
def flag (s : Scan) (name : String) : Step :=
  if name = "help" then .error .help
  else if name = "version" ∧ s.command.isNone then .error .version
  else s.continueWith (s.given.flag? (s.command.map (·.1)) name)

def nameOfLetter : Char → String
  | 'v' => "verbose"
  | 'h' => "help"
  | 'V' => "version"
  | _ => ""

def plain (s : Scan) (text : String) : Step :=
  match s.command with
  | some _ => s.continueWith (s.given.giveInput text)
  | none =>
    match Command.ofName? text with
    | some command => .ok { command := some (command, s.given) }
    | none => .error .misuse

def long (s : Scan) (name : String) (value : Option String) : Step :=
  match ValueOption.ofName? name, value with
  | some o, some value =>
    if o.isKnown (s.command.map (·.1)) then s.continueWith (s.given.give value o)
    else .error .misuse
  | some o, none =>
    if o.isKnown (s.command.map (·.1)) then .ok { s with pending := some o } else .error .misuse
  | none, some _ => .error .misuse
  | none, none => s.flag name

def step (s : Scan) (argument : String) : Step :=
  match s.pending with
  | some o =>
    match Word.ofArgument argument with
    | .plain _ => s.continueWith (s.given.give argument o)
    | _ => if o.takesHyphens then s.continueWith (s.given.give argument o) else .error .misuse
  | none =>
    if s.optionsEnded then
      if s.command.isSome then s.plain argument else .error .misuse
    else
      match Word.ofArgument argument with
      | .plain text => s.plain text
      | .endOfOptions => .ok { s with optionsEnded := true }
      | .long name value => s.long name value
      | .short letters => letters.foldlM (fun s letter => s.flag (nameOfLetter letter)) s

def finish (s : Scan) : Request :=
  match s.command, s.pending with
  | some (command, outer), none =>
    if s.given.isConsistent && outer.isConsistent then .run command (s.given.inside outer)
    else .misuse
  | _, _ => .misuse

/-- What is asked for behind the word `help`: at most one command may be named. -/
def help (topics : List String) : Request :=
  if topics.length ≤ 1 ∧ topics.all (["parse", "group", "help"].contains ·) then .help else .misuse

def read (s : Scan) : List String → Request
  | [] => s.finish
  | argument :: arguments =>
    if argument = "help" ∧ s.command.isNone ∧ s.pending.isNone ∧ !s.optionsEnded then help arguments
    else match s.step argument with
      | .ok s => s.read arguments
      | .error request => request

end Scan

def Request.ofArguments (arguments : List String) : Request := ({} : Scan).read arguments

end GoroutineDump.CommandLine
