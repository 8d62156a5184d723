import BlockScript.CommandLine.Run

/-!
# The command line

Commands act on the real file system and the standard streams.
-/

namespace BlockScript

/-- Why a file could not be used, as the system words it. -/
def reasonText : IO.Error → String
  | .noFileOrDirectory _ code details
  | .alreadyExists _ code details
  | .invalidArgument _ code details
  | .permissionDenied _ code details
  | .resourceExhausted _ code details
  | .inappropriateType _ code details
  | .noSuchThing _ code details => details ++ " (os error " ++ toString code ++ ")"
  | error => toString error

/-- The standard streams and the files of the system. -/
def systemHost : CommandLine.Host IO where
  readFile path := do
    try return .ok (← IO.FS.readBinFile path).toList
    catch error => return .error (reasonText error)
  writeFile path bytes := do
    try
      IO.FS.writeBinFile path ⟨bytes.toArray⟩
      return .ok ()
    catch error => return .error (reasonText error)
  print := IO.print
  report := IO.eprintln

end BlockScript

/-- Carry out one command and exit with its code. -/
def main (args : List String) : IO UInt32 :=
  BlockScript.systemHost.run args
