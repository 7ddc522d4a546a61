import GoroutineDump.Dump.Line

set_option autoImplicit false
set_option relaxedAutoImplicit false

namespace GoroutineDump.Dump

def isElision (line : List Char) : Bool :=
  match "...".toList.isPrefixOf? line with
  | none => false
  | some rest =>
    rest = "additional frames elided...".toList ||
      (takeDigits? rest).any fun (_, rest) => rest = " frames elided...".toList

/-- The frames of a record, and the parent that the last origin with one names. -/
structure Body where
  frames : List Frame
  parent : Option UInt64
  deriving DecidableEq, Repr

def Body.cons (call : CallLine) (location : LocationLine) (rest : Body) : Body where
  frames := ⟨location.location, { call.call with extra := location.extra }, {}⟩ :: rest.frames
  parent := rest.parent.or call.parent

/-- Reads the lines after a header; the first line that does not fit decides the error. -/
def Body.read (roots : Roots) : List (List Char) → Except Error Body
  | [] => .ok ⟨[], none⟩
  | line :: rest =>
    if isElision line then Body.read roots rest
    else do
      let call ← CallLine.read line
      match rest with
      | [] => throw (.missingLocation (String.ofList line))
      | place :: rest =>
        let location ← LocationLine.read roots place
        Body.cons call location <$> Body.read roots rest

def joinLines (lines : List (List Char)) : String :=
  String.ofList (['\n'].intercalate lines)

def readRecord (roots : Roots) : List (List Char) → Except Error Goroutine
  | [] => .error (.emptyRecord "")
  | first :: rest => do
    let header ← Header.read first
    let body ← Body.read roots rest
    if header.id = 0 ∨ body.frames = [] then throw (.emptyRecord (joinLines (first :: rest)))
    return {
      id := header.id, state := header.state, blocked := header.blocked, locked := header.locked,
      parent := body.parent, stack := body.frames }

/-- Splits off the lines before the first blank one. -/
def firstRun : List (List Char) → List (List Char) × List (List (List Char))
  | [] => ([], [])
  | line :: rest =>
    let (run, runs) := firstRun rest
    if Unicode.isBlank line then ([], if run = [] then runs else run :: runs)
    else (line :: run, runs)

/-- The records of a dump: the longest runs of lines that are not blank. -/
def records (lines : List (List Char)) : List (List (List Char)) :=
  match firstRun lines with
  | ([], runs) => runs
  | (run, runs) => run :: runs

/-- Reads a dump. The first record that does not fit decides the error. -/
def parse (roots : Roots) (text : String) : Except Error (List Goroutine) :=
  (records (Text.dumpLines text.toList)).mapM (readRecord roots)

def parseBytes (roots : Roots) (bytes : List UInt8) : Except Error (List Goroutine) :=
  match Text.decodeUtf8 bytes with
  | .ok text => parse roots text
  | .error _ => .error .notText

/-- The line in front of a goroutine's stack; a goroutine blocked for less than a minute shows no
duration. -/
def headerLine (g : Goroutine) : List Char :=
  let minutes := g.blocked.seconds / 60
  "goroutine ".toList ++ Text.digits g.id.toNat ++ " [".toList ++ g.state.toList ++
    (if minutes = 0 then [] else ", ".toList ++ Text.digits minutes ++ " minutes".toList) ++
    (if g.locked then ", locked to thread".toList else []) ++ "]:".toList

def callLine (parent : Option UInt64) (c : Call) : List Char :=
  let name := c.package.toList ++ '.' :: c.method.toList
  if c.origin then
    "created by ".toList ++ name ++
      (match parent with
        | none => []
        | some id => " in goroutine ".toList ++ Text.digits id.toNat)
  else name ++ '(' :: c.args.toList ++ [')']

def locationLine (roots : Roots) (f : Frame) : List Char :=
  '\t' :: (roots.pathOf f.location).toList ++ ':' :: Text.digits f.location.line.toNat ++
    (if f.call.extra.isEmpty then [] else ' ' :: f.call.extra.toList)

def recordLines (roots : Roots) (g : Goroutine) : List (List Char) :=
  headerLine g ::
    g.stack.flatMap fun f => [callLine g.parent f.call, locationLine roots f]

def print (roots : Roots) (gs : List Goroutine) : String :=
  String.ofList (['\n'].intercalate ([[]].intercalate (gs.map (recordLines roots))))

end GoroutineDump.Dump
