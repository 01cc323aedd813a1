import FilterSelect.Catalog
import FilterSelect.CommandLine.Arguments
import FilterSelect.CommandLine.Source
import FilterSelect.Compiler.Basic
import FilterSelect.Config
import FilterSelect.Request.OfJson

/-!
# Running commands

A command reads texts from its sources and yields one line, or fails.

* `Invocation.run`: the line that a command prints, or why it fails.
* `execute`: exit code and output of the program for its arguments.
-/

namespace FilterSelect.CommandLine

/-- Why a command fails. -/
inductive Failure
  | unreadableConfig (path : String) (fault : ReadFault)
  | invalidConfig (path : String) (fault : Toml.Fault)
  | unusableOption (fault : CompileError)
  | unreadableFile (path : String) (fault : ReadFault)
  | unreadableInput (fault : ReadFault)
  | invalidRequest (mistake : RequestError)
  | uncompilable (fault : CompileError)
  | invalidCatalog (mistake : RequestError)
  deriving DecidableEq, Repr

/-- What is wrong with a configuration, behind its path. Only the length of a key is named. The
cause of a malformed text, and its place, are left out: such a message ends behind the path. -/
def configFault : Toml.Fault → String
  | .malformed => ""
  | .longKey => ": recursion limit\n"

/-- The failure in words: what was done, and what went wrong. -/
def Failure.message : Failure → String
  | unreadableConfig path fault => "Failed to read config file: " ++ path ++ ": " ++ fault.message
  | invalidConfig path fault => "Invalid config file: " ++ path ++ configFault fault
  | unusableOption fault => "Invalid [compiler] settings: " ++ fault.message
  | unreadableFile path fault => "Failed to read " ++ path ++ ": " ++ fault.message
  | unreadableInput fault => "Failed to read stdin: " ++ fault.message
  | invalidRequest mistake => "Invalid query request: " ++ mistake.message
  | uncompilable fault => "Query could not be compiled: " ++ fault.message
  | invalidCatalog mistake => "Invalid catalog rows: " ++ mistake.message

/-! ## Commands -/

/-- The line for the text of a request. -/
def compileLine (c : Compiler) (prune : Bool) (text : String) : Except Failure String := do
  let request ← (Request.read text).mapError .invalidRequest
  (c.compile (if prune then request.prune else request)).mapError .uncompilable

/-- The line for the text of a catalog. -/
def fieldsLine (table text : String) : Except Failure String := do
  let columns ← (CatalogColumn.readAll text).mapError .invalidCatalog
  .ok (FieldDescriptor.listToJson (FieldDescriptor.ofColumns table columns)).text

variable {m : Type → Type} [Monad m]

/-- The options of the configuration at a path; the standard ones without a path. -/
def loadConfig (s : Sources m) : Option String → ExceptT Failure m Options
  | none => pure {}
  | some path => do
    match ← s.file path with
    | .error fault => throw (.unreadableConfig path fault)
    | .ok text =>
      ofExcept ((Config.read text).mapError (Failure.invalidConfig path))

/-- The text of a file, or of the standard input. -/
def loadText (s : Sources m) : Option String → ExceptT Failure m String
  | some path => do ofExcept ((← s.file path).mapError (Failure.unreadableFile path))
  | none => do ofExcept ((← s.input).mapError Failure.unreadableInput)

/-- The line that an invocation prints. The configuration is read first, and its options are
checked before anything else is read. -/
def Invocation.run (s : Sources m) (i : Invocation) : ExceptT Failure m String := do
  let options ← loadConfig s i.config
  match i.command with
  | .compile file prune => do
    let compiler ← ofExcept ((Compiler.ofOptions options).mapError Failure.unusableOption)
    let text ← loadText s file
    ofExcept (compileLine compiler prune text)
  | .fields table file => do
    let text ← loadText s file
    ofExcept (fieldsLine table text)

/-! ## The program -/

/-- What the program leaves behind. -/
structure Outcome where
  exitCode : UInt32
  output : String
  errors : String
  deriving DecidableEq, Repr

/-- The outcome of a run. -/
def Outcome.ofResult : Except Failure String → Outcome
  | .ok line => ⟨0, line ++ "\n", ""⟩
  | .error failure => ⟨1, "", "Error: " ++ failure.message ++ "\n"⟩

/-- The forms of arguments, in a few lines. -/
def usage : String :=
  "Usage: filter-select [-c PATH] compile [FILE] [--prune]\n" ++
  "       filter-select [-c PATH] fields -t TABLE [FILE]\n"

/-- The outcome of the program for its arguments. The texts of `--help` and `--version`, and of the
command `help`, are left out with their exit code 0: all three end in the usage error and exit code
2 here, as any unknown option or command does. -/
def execute (s : Sources m) (arguments : List String) : m Outcome :=
  match Invocation.ofArguments? arguments with
  | some invocation => Outcome.ofResult <$> (invocation.run s).run
  | none => pure ⟨2, "", usage⟩

end FilterSelect.CommandLine
