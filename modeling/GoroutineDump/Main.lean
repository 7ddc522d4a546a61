import GoroutineDump.CommandLine.Run

set_option autoImplicit false
set_option relaxedAutoImplicit false

namespace GoroutineDump.CommandLine

open Source (ReadAnswer ReadFault)

/-- Why a file could not be read, in the words of the library where it has them. -/
def readFaultOf : IO.Error → ReadFault
  | .noFileOrDirectory _ _ _ => .missing
  | .inappropriateType _ 21 _ => .isADirectory
  | .inappropriateType _ _ _ => .notADirectory
  | e => .system (toString e)

def readFile (path : String) : IO ReadAnswer := do
  if path.toList.contains '\x00' then return .error .nulInPath
  match ← (IO.FS.readBinFile path).toBaseIO with
  | .ok bytes => return .ok bytes.toList
  | .error e => return .error (readFaultOf e)

partial def readToEnd (stream : IO.FS.Stream) (bytes : ByteArray) : IO ByteArray := do
  let chunk ← stream.read 65536
  if chunk.isEmpty then return bytes else readToEnd stream (bytes ++ chunk)

def readInput : IO (List UInt8) := do return (← readToEnd (← IO.getStdin) .empty).toList

def process : World IO := ⟨readFile, readInput, fun name => IO.getEnv name⟩

end GoroutineDump.CommandLine

open GoroutineDump.CommandLine in
def main (arguments : List String) : IO UInt32 := do
  let exit ← run process arguments
  IO.print exit.output
  if let some complaint := exit.complaint then IO.eprint complaint
  return exit.code.toUInt32
