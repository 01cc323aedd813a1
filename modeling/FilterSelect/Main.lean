import FilterSelect.CommandLine.Run

/-!
# The program

Reads files and the standard input, and prints what the command yields.
-/

namespace FilterSelect.CommandLine

/-- The number of a fault, which the system gives as it is or negated. -/
def faultNumber (code : UInt32) : Nat := min code.toNat (0 - code).toNat

/-- Why a file could not be read. -/
def ReadFault.ofError : IO.Error → ReadFault
  | .noFileOrDirectory .. => .missing
  | e@(.inappropriateType _ code _) =>
    match faultNumber code with
    | 20 => .notFolder
    | 21 => .isFolder
    | _ => .other (toString e)
  | e@(.invalidArgument _ code _) =>
    if faultNumber code = 36 then .nameTooLong else .other (toString e)
  | e => .other (toString e)

/-- The file system and the standard input. -/
def systemSources : Sources IO where
  file path := do
    try
      return decodeText (← IO.FS.readBinFile path)
    catch e => return .error (ReadFault.ofError e)
  input := do
    return decodeText (← (← IO.getStdin).readBinToEnd)

end FilterSelect.CommandLine

def main (arguments : List String) : IO UInt32 := do
  let outcome ← FilterSelect.CommandLine.execute FilterSelect.CommandLine.systemSources arguments
  IO.print outcome.output
  IO.eprint outcome.errors
  return outcome.exitCode
