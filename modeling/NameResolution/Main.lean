import NameResolution.CommandLine.Run

/-!
# The program — files, terminals and exit statuses
-/

namespace NameResolution.CommandLine

/-- Reads a file. -/
def readPath (path : Path) : IO Content := do
  try
    let bytes ← IO.FS.readBinFile path.text
    pure (.bytes bytes)
  catch
    | .noFileOrDirectory .. => pure .missing
    | .permissionDenied .. => pure .denied
    | .inappropriateType _ code _ => pure (if code = 21 then .directory else .notDirectory)
    | .invalidArgument .. => pure (if path.hasNul then .nulInName else .nameTooLong)
    | e => throw e

end NameResolution.CommandLine

open NameResolution

def main (arguments : List String) : IO UInt32 := do
  let out ← IO.getStdout
  let err ← IO.getStderr
  let result ← CommandLine.run CommandLine.readPath (← out.isTty) (← err.isTty) arguments
  out.putStr result.stdout
  err.putStr result.stderr
  match result.ending with
  | .exit status => pure status.toUInt32
  | .failure f => do
    err.putStrLn f.message
    pure 1
