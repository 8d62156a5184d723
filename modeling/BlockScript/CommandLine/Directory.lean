import BlockScript.CommandLine.Run

/-!
# A directory in memory

A host whose files are kept in memory: one directory without subdirectories. What
commands print and report is collected.
-/

namespace BlockScript.CommandLine

/-- The files of the directory, and the texts that were printed and reported. -/
structure Directory where
  files : Table Artifact.Bytes := .empty
  printed : String := ""
  reported : String := ""

namespace Directory

/-- The reason why no file is found under a path. -/
def missing : String := "No such file or directory (os error 2)"

/-- The reason why a path cannot go on below a file. -/
def notDirectory : String := "Not a directory (os error 20)"

/-- The reason why a directory is no file. -/
def isDirectory : String := "Is a directory (os error 21)"

/-- The reason why a name or a path cannot be looked up at all. -/
def tooLong : String := "File name too long (os error 36)"

/-- The reason why a path cannot be handed to the system. -/
def holdsNul : String := "file name contained an unexpected NUL byte"

/-- The most bytes that one name may have. -/
def nameLimit : Nat := 255

/-- The most bytes that a path may have. -/
def pathLimit : Nat := 4095

/-- The directory has a file of this name. -/
def hasFile (directory : Directory) (name : String) : Bool := (directory.files.get? name).isSome

/-- Follow the steps of a path, which begin in the directory or, unless `here`, in some
other directory, where no files are. The name at the end is that of a file that is there
or that is `creating`; after it, a `slash` asks for a directory. -/
def locate (directory : Directory) (creating slash : Bool) :
    (here : Bool) → List String → Except String String
  | _, [] => .error isDirectory
  | here, step :: rest =>
    if step = "." then locate directory creating slash here rest
    else if step = ".." then locate directory creating slash false rest
    else if creating && slash && rest.isEmpty then .error isDirectory
    else if nameLimit < step.utf8ByteSize then .error tooLong
    else
      let present := here && directory.hasFile step
      if slash || !rest.isEmpty then .error (if present then notDirectory else missing)
      else if present || here && creating then .ok step
      else .error missing

/-- The name of the file that a path denotes, or the reason why it denotes none. A file
that is written is created where it does not exist. -/
def fileName (directory : Directory) (path : String) (creating : Bool) :
    Except String String :=
  if path.contains '\x00' then .error holdsNul
  else if path = "" then .error missing
  else if pathLimit < path.utf8ByteSize then .error tooLong
  else
    directory.locate creating (path.endsWith "/") (!path.startsWith "/")
      ((path.splitOn "/").filter (· ≠ ""))

/-- The directory as a host of commands. -/
def host : Host (StateM Directory) where
  readFile path := do
    let directory ← get
    match directory.fileName path false with
    | .error reason => return .error reason
    | .ok name => return (directory.files.get? name).elim (.error missing) .ok
  writeFile path bytes := do
    match (← get).fileName path true with
    | .error reason => return .error reason
    | .ok name =>
      modify fun directory => { directory with files := directory.files.set name bytes }
      return .ok ()
  print text := modify fun directory => { directory with printed := directory.printed ++ text }
  report message := modify fun directory =>
    { directory with reported := directory.reported ++ message ++ "\n" }

/-- Carry out a command line. The exit code and what was printed and reported come with
the directory afterwards. -/
def command (directory : Directory) (args : List String) :
    UInt32 × String × String × Directory :=
  let start := { directory with printed := "", reported := "" }
  let (exit, after) := (host.run args).run start
  (exit, after.printed, after.reported, after)

end Directory

end BlockScript.CommandLine
