import BlockScript.Config
import BlockScript.Machine.Basic

/-!
# Command-line arguments

The words of a command line, taken apart by simple rules. Options start with two hyphens
and may stand anywhere after the command; a value follows its option or an equals sign,
and only after the sign may it start with a hyphen. No option may be repeated. Two
hyphens alone make all that follows plain words.
-/

namespace BlockScript.CommandLine

/-- An option that a command accepts. -/
structure OptionSpec where
  name : String
  takesValue : Bool
deriving DecidableEq, Repr

/-- The options and plain words of a command line; a flag has an empty value. -/
structure Words where
  options : List (String × String) := []
  plain : List String := []
deriving DecidableEq, Repr

namespace Words

/-- The value of an option. -/
def value? (words : Words) (name : String) : Option String :=
  (words.options.find? (·.1 == name)).map (·.2)

/-- The option was given. -/
def has (words : Words) (name : String) : Bool := (words.value? name).isSome

/-- Add an option, once. -/
def addOption (words : Words) (name value : String) : Option Words :=
  if words.has name then none
  else some { words with options := words.options ++ [(name, value)] }

/-- Add a plain word. -/
def addPlain (words : Words) (word : String) : Words :=
  { words with plain := words.plain ++ [word] }

end Words

/-- The word looks like an option; a lone hyphen does not. -/
def isOption (word : String) : Bool := word.startsWith "-" && word ≠ "-"

/-- An option's name without its hyphens and the value after an equals sign. -/
def splitOption (word : String) : String × Option String :=
  let letters := word.toList.drop 2
  let name := String.ofList (letters.takeWhile (· ≠ '='))
  match letters.dropWhile (· ≠ '=') with
  | [] => (name, none)
  | _ :: value => (name, some (String.ofList value))

/-- Take words apart, while an option may be awaiting its value; there is no result if the
words break a rule. -/
def parseFrom (specs : List OptionSpec) :
    (awaiting : Option String) → List String → Words → Option Words
  | none, [], words => some words
  | some _, [], _ => none
  | some name, value :: rest, words =>
    if isOption value then none else (words.addOption name value).bind (parseFrom specs none rest)
  | none, word :: rest, words =>
    if word = "--" then some (rest.foldl Words.addPlain words)
    else if !isOption word then parseFrom specs none rest (words.addPlain word)
    else if !word.startsWith "--" then none
    else
      let (name, inline) := splitOption word
      match specs.find? (·.name == name), inline with
      | some ⟨_, false⟩, none => (words.addOption name "").bind (parseFrom specs none rest)
      | some ⟨_, true⟩, some value => (words.addOption name value).bind (parseFrom specs none rest)
      | some ⟨_, true⟩, none => parseFrom specs (some name) rest words
      | _, _ => none

/-- Take the words of a command line apart. -/
def parseWords (specs : List OptionSpec) (args : List String) : Option Words :=
  parseFrom specs none args {}

/-- A number below 2 to the 64 in decimal digits, perhaps after a plus sign. -/
def parseNumber (text : String) : Option Nat :=
  let digits := match text.toList with
    | '+' :: digits => digits
    | digits => digits
  if digits.isEmpty || !digits.all Char.isDigit then none else
    let n := digits.foldl (fun n d => 10 * n + (d.toNat - '0'.toNat)) 0
    if n < 0x10000000000000000 then some n else none

/-- The value of a numeric option, if it was given; there is no result if it is malformed. -/
def numberOption (words : Words) (name : String) : Option (Option Nat) :=
  match words.value? name with
  | none => some none
  | some text => (parseNumber text).map some

/-- A path is any text but the empty one. -/
def path? (text : String) : Option String := if text = "" then none else some text

/-- What runs a sample program. -/
inductive BackendKind where
  | bytecode
  | interpret
deriving DecidableEq, Repr

/-- The backend of a name. -/
def BackendKind.parse : String → Option BackendKind
  | "bytecode" => some bytecode
  | "interpret" => some interpret
  | _ => none

/-- Limits given on the command line; those not given keep their usual values. -/
structure LimitOptions where
  maxNestingDepth : Option Nat
  maxPoolEntries : Option Nat
  noVerify : Bool
  maxCallDepth : Option Nat
  maxSteps : Option Nat
  maxStackSize : Option Nat
deriving DecidableEq, Repr

namespace LimitOptions

/-- The options that set limits. -/
def specs : List OptionSpec :=
  [⟨"max-nesting-depth", true⟩, ⟨"max-pool-entries", true⟩, ⟨"no-verify", false⟩,
    ⟨"max-call-depth", true⟩, ⟨"max-steps", true⟩, ⟨"max-stack-size", true⟩]

/-- The limits that were given. -/
def ofWords (words : Words) : Option LimitOptions := do
  return {
    maxNestingDepth := ← numberOption words "max-nesting-depth"
    maxPoolEntries := ← numberOption words "max-pool-entries"
    noVerify := words.has "no-verify"
    maxCallDepth := ← numberOption words "max-call-depth"
    maxSteps := ← numberOption words "max-steps"
    maxStackSize := ← numberOption words "max-stack-size" }

/-- A configuration with the limits applied. -/
def config (options : LimitOptions) (base : Config) : Config :=
  { base with
    maxNesting := options.maxNestingDepth.getD base.maxNesting
    maxPoolEntries := options.maxPoolEntries.getD base.maxPoolEntries
    verifyUnits := base.verifyUnits && !options.noVerify }

/-- The limits of a run. -/
def limits (options : LimitOptions) : Limits :=
  let usual : Limits := {}
  { maxCallDepth := options.maxCallDepth.getD usual.maxCallDepth
    maxSteps := options.maxSteps.or usual.maxSteps
    maxStackSize := options.maxStackSize.getD usual.maxStackSize }

end LimitOptions

/-- How to run a sample program. -/
structure DemoOptions where
  name : String
  backend : BackendKind
  /-- List the program before it runs. -/
  disasm : Bool
  /-- Where to write the program. -/
  emit : Option String
  lenientYield : Bool
  noStackCheck : Bool
  limits : LimitOptions
deriving DecidableEq, Repr

/-- The configuration that the options ask for. -/
def DemoOptions.config (options : DemoOptions) : Config :=
  options.limits.config {
    checkStack := !options.noStackCheck
    yieldMode := if options.lenientYield then .lenient else .strict }

/-- A command with its arguments. -/
inductive Command where
  /-- List the sample programs. -/
  | list
  /-- Compile and run a sample program. -/
  | demo (options : DemoOptions)
  /-- Run a compiled program. -/
  | run (file : String) (limits : LimitOptions)
  /-- List a compiled program. -/
  | disasm (file : String)
deriving DecidableEq, Repr

/-- The options of the command that runs a sample program. -/
def demoSpecs : List OptionSpec :=
  [⟨"backend", true⟩, ⟨"disasm", false⟩, ⟨"emit", true⟩, ⟨"lenient-yield", false⟩,
    ⟨"no-stack-check", false⟩] ++ LimitOptions.specs

/-- The path given to the option that writes the program. -/
def emitOption (words : Words) : Option (Option String) :=
  match words.value? "emit" with
  | none => some none
  | some text => (path? text).map some

/-- The command that runs a sample program. -/
def parseDemo (args : List String) : Option Command := do
  let words ← parseWords demoSpecs args
  let [name] := words.plain | none
  return .demo {
    name
    backend := ← BackendKind.parse ((words.value? "backend").getD "bytecode")
    disasm := words.has "disasm"
    emit := ← emitOption words
    lenientYield := words.has "lenient-yield"
    noStackCheck := words.has "no-stack-check"
    limits := ← LimitOptions.ofWords words }

/-- The command that a command line asks for, if it is well formed. -/
def Command.parse : List String → Option Command
  | "list" :: args => do
    let ⟨_, []⟩ ← parseWords [] args | none
    return .list
  | "demo" :: args => parseDemo args
  | "run" :: args => do
    let words ← parseWords LimitOptions.specs args
    let [file] := words.plain | none
    return .run (← path? file) (← LimitOptions.ofWords words)
  | "disasm" :: args => do
    let ⟨_, [file]⟩ ← parseWords [] args | none
    return .disasm (← path? file)
  | _ => none

end BlockScript.CommandLine
