/-!
# Arguments

    compile [FILE] [--prune]
    fields (-t | --table) TABLE [FILE]

with `-c PATH` or `--config PATH` before the command or behind it; behind it counts if both are
given. Options and files may stand in any order, and after `--` everything is a file. An option
stands once at most among the arguments before the command, and once among those behind it. A
value follows its option as the next argument, behind `=`, or directly behind a single letter.

* `Invocation.ofArguments?`: what is asked for; none when the arguments are not of this form.
-/

namespace FilterSelect.CommandLine

/-- A command with its own arguments. Without a file it reads its standard input. -/
inductive Command
  /-- Compile a request, pruned first or not. -/
  | compile (file : Option String) (prune : Bool)
  /-- Offer the columns of a catalog as fields of a table. -/
  | fields (table : String) (file : Option String)
  deriving DecidableEq, Repr

/-- A command, and the configuration it runs with. -/
structure Invocation where
  command : Command
  config : Option String
  deriving DecidableEq, Repr

/-! ## Single arguments -/

/-- What an argument looks like. -/
inductive Argument
  /-- `--name` or `--name=value`. -/
  | long (name : String) (value : Option String)
  /-- A hyphen, a letter, and what stands behind it. -/
  | short (letter : Char) (attached : List Char)
  /-- `--`, behind which there are no options. -/
  | separator
  | operand (text : String)

/-- What the text of an argument looks like. A single hyphen is an operand. -/
def Argument.ofText (text : String) : Argument :=
  match text.toList with
  | ['-', '-'] => .separator
  | '-' :: '-' :: cs =>
    let name := String.ofList (cs.takeWhile (· ≠ '='))
    match cs.dropWhile (· ≠ '=') with
    | [] => .long name none
    | _ :: value => .long name (some (String.ofList value))
  | '-' :: letter :: attached => .short letter attached
  | _ => .operand text

/-! ## Lists of arguments -/

/-- An option. Those with a letter take a value. -/
structure Form where
  name : String
  letter : Option Char := none
  takesValue : Bool := true

/-- The options and operands of a list of arguments. A flag has the empty value. -/
structure Given where
  options : List (String × String) := []
  operands : List String := []

namespace Given

/-- The value of an option. -/
def get? (g : Given) (name : String) : Option String := g.options.lookup name

/-- Adds an option, which may not be there yet. -/
def addOption? (g : Given) (name value : String) : Option Given :=
  if (g.get? name).isSome then none else some { g with options := (name, value) :: g.options }

/-- Adds an operand at the end. -/
def addOperand (g : Given) (text : String) : Given := { g with operands := g.operands ++ [text] }

end Given

/-- The value that an argument is for the option before it; it may not look like an option. -/
def value? (text : String) : Option String :=
  match Argument.ofText text with
  | .operand value => some value
  | _ => none

/-- The value that is attached to a letter, a sign of equality between them or not. -/
def attachedValue : List Char → String
  | '=' :: cs => String.ofList cs
  | cs => String.ofList cs

/-- Sorts arguments into options and operands. Where a command is to follow, the first operand is
that command, and it is left with all behind it. -/
def sort? (forms : List Form) (beforeCommand : Bool) (given : Given) :
    List String → Option (Given × List String)
  | [] => some (given, [])
  | text :: rest =>
    match Argument.ofText text with
    | .operand operand =>
      if beforeCommand then some (given, text :: rest)
      else sort? forms beforeCommand (given.addOperand operand) rest
    | .separator => some (rest.foldl Given.addOperand given, [])
    | .long name attached =>
      match forms.find? (·.name = name), attached with
      | none, _ => none
      | some form, some value =>
        if form.takesValue then
          (given.addOption? name value).bind fun given => sort? forms beforeCommand given rest
        else none
      | some form, none =>
        if form.takesValue then
          match rest with
          | [] => none
          | next :: rest =>
            (value? next).bind fun value => (given.addOption? name value).bind fun given =>
              sort? forms beforeCommand given rest
        else (given.addOption? name "").bind fun given => sort? forms beforeCommand given rest
    | .short letter attached =>
      match forms.find? (·.letter = some letter), attached with
      | none, _ => none
      | some form, c :: cs =>
        (given.addOption? form.name (attachedValue (c :: cs))).bind fun given =>
          sort? forms beforeCommand given rest
      | some form, [] =>
        match rest with
        | [] => none
        | next :: rest =>
          (value? next).bind fun value => (given.addOption? form.name value).bind fun given =>
            sort? forms beforeCommand given rest

/-! ## Invocations -/

/-- The option for the configuration. -/
def configForm : Form := { name := "config", letter := some 'c' }

/-- The option to prune. -/
def pruneForm : Form := { name := "prune", takesValue := false }

/-- The option for the table of the fields. -/
def tableForm : Form := { name := "table", letter := some 't' }

/-- The path of a file, which may be absent but not empty. -/
def path? : Option String → Option (Option String)
  | none => some none
  | some path => if path = "" then none else some (some path)

/-- The only operand, if there is one. -/
def file? (given : Given) : Option (Option String) :=
  match given.operands with
  | [] => some none
  | [file] => path? (some file)
  | _ => none

/-- The command of a name with its arguments, and the configuration named among them. -/
def command? (name : String) (arguments : List String) : Option (Command × Option String) :=
  match name with
  | "compile" => do
    let (given, _) ← sort? [configForm, pruneForm] false {} arguments
    let config ← path? (given.get? configForm.name)
    let file ← file? given
    some (.compile file (given.get? pruneForm.name).isSome, config)
  | "fields" => do
    let (given, _) ← sort? [configForm, tableForm] false {} arguments
    let config ← path? (given.get? configForm.name)
    let file ← file? given
    let table ← given.get? tableForm.name
    some (.fields table file, config)
  | _ => none

/-- What a list of arguments asks for. -/
def Invocation.ofArguments? (arguments : List String) : Option Invocation := do
  let (given, rest) ← sort? [configForm] true {} arguments
  let outer ← path? (given.get? configForm.name)
  match rest with
  | [] => none
  | name :: arguments =>
    let (command, inner) ← command? name arguments
    some ⟨command, inner <|> outer⟩

end FilterSelect.CommandLine
