import BlockScript.Backend.Interpreter
import BlockScript.CommandLine.Arguments
import BlockScript.Demo
import BlockScript.Listing.Statistics
import BlockScript.Node.Walk

/-!
# Carrying out commands

What each command does, in terms of a host that reads and writes files, prints, and
reports errors. A command ends with an exit code: zero if all went well, one after a
reported error. A malformed command line has the exit code two and does nothing.
-/

namespace BlockScript.CommandLine

/-- A budget of machine steps that no run uses up in practice. -/
def ampleFuel : Nat := 0x4000000000000000

/-- Where commands act. Files that cannot be read or written give the reason in words. -/
structure Host (m : Type → Type) where
  readFile : String → m (Except String Artifact.Bytes)
  writeFile : String → Artifact.Bytes → m (Except String Unit)
  print : String → m Unit
  /-- Report an error on a line of its own. -/
  report : String → m Unit

/-- The exit code of a malformed command line. -/
def usageError : UInt32 := 2

variable {m : Type → Type} [Monad m]

/-- Report an error and fail. -/
def Host.failWith (host : Host m) (message : String) : m UInt32 := do
  host.report message
  return 1

/-- Run a program and print its output. -/
def Host.runProgram (host : Host m) (program : Program) (limits : Limits) : m UInt32 := do
  let (result, vm) := (Vm.new limits).run ampleFuel program
  host.print vm.world.output
  match result with
  | .ok _ => return 0
  | .error (.failure error) => host.failWith error.text
  | .error .outOfFuel => host.failWith "out of fuel"

/-- The program that a tree compiles to. -/
def compile (config : Config) (node : Node) : Except CompileError Program :=
  let session := Recorder.new config 0 ({} : Notes)
  let action : Action BenchAction := node.program
  match action.run (Recorder.contract Notes) BenchAction.run session with
  | .ok _ session => Recorder.program session
  | .error (.failure error) _ => .error error
  | .error .outOfFuel session => Recorder.program session

/-- Compile a sample program, list it and write it if asked to, and run it. -/
def Host.runCompiled (host : Host m) (demo : Demo) (options : DemoOptions) : m UInt32 := do
  match compile options.config demo.program with
  | .error error => host.failWith ("Compile error: " ++ error.message)
  | .ok program =>
    if options.disasm then host.print (Listing.programText program)
    if let some file := options.emit then
      if let .error reason ← host.writeFile file program.toBytes then
        return ← host.failWith ("Failed to write '" ++ file ++ "': " ++ reason)
    host.runProgram program options.limits.limits

/-- Run a sample program as its operations are issued. -/
def Host.runImmediate (host : Host m) (demo : Demo) (options : DemoOptions) : m UInt32 := do
  let session := Interpreter.new options.config options.limits.limits 0 ({} : Notes)
  let contract := Interpreter.contract Notes ampleFuel
  match (demo.program.program : Action BenchAction).run contract BenchAction.run session with
  | .ok _ session =>
    host.print session.backend.world.output
    return 0
  | .error halt session =>
    host.print session.backend.world.output
    match halt with
    | .failure error => host.failWith ("Error: " ++ error.message)
    | .outOfFuel => host.failWith "Error: out of fuel"

/-- Read a compiled program and go on with it. -/
def Host.withProgram (host : Host m) (file : String) (use : Program → m UInt32) : m UInt32 := do
  match ← host.readFile file with
  | .error reason => host.failWith ("Failed to read '" ++ file ++ "': " ++ reason)
  | .ok bytes =>
    match Program.ofBytes bytes with
    | .error error => host.failWith ("Failed to decode '" ++ file ++ "': " ++ error.message)
    | .ok program => use program

/-- Carry out a command. -/
def Host.execute (host : Host m) : Command → m UInt32
  | .list => do
    host.print (Text.unlines (Demo.all.map fun demo =>
      Text.padRight 10 demo.name ++ " " ++ demo.description))
    return 0
  | .demo options =>
    match Demo.find? options.name with
    | none => host.failWith ("Unknown demo '" ++ options.name ++ "' (try `kiln list`)")
    | some demo =>
      match options.backend with
      | .bytecode => host.runCompiled demo options
      | .interpret => host.runImmediate demo options
  | .run file options => host.withProgram file (host.runProgram · options.limits)
  | .disasm file => host.withProgram file fun program => do
    host.print (Listing.programText program ++ Listing.statisticsText program)
    return 0

/-- Carry out the command that a command line asks for. -/
def Host.run (host : Host m) (args : List String) : m UInt32 :=
  match Command.parse args with
  | some command => host.execute command
  | none => return usageError

end BlockScript.CommandLine
