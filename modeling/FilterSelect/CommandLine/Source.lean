/-!
# Sources of texts

A command reads texts from files and from the standard input. Where these come from is a
parameter, so that nothing about a command depends on a file system.

* `Sources`: what can be read.
* `ReadFault.message`: why a text could not be read, in words.
-/

namespace FilterSelect.CommandLine

/-- Why a text cannot be read. -/
inductive ReadFault
  /-- No file has the path. -/
  | missing
  /-- A file stands where the path needs a folder. -/
  | notFolder
  /-- The path leads to a folder. -/
  | isFolder
  /-- The path or a name in it is longer than a file system takes. -/
  | nameTooLong
  /-- The bytes are no text. -/
  | notText
  | other (cause : String)
  deriving DecidableEq, Repr

/-- The fault in words. -/
def ReadFault.message : ReadFault → String
  | missing => "No such file or directory (os error 2)"
  | notFolder => "Not a directory (os error 20)"
  | isFolder => "Is a directory (os error 21)"
  | nameTooLong => "File name too long (os error 36)"
  | notText => "stream did not contain valid UTF-8"
  | other cause => cause

/-- The text that bytes hold. -/
def decodeText (bytes : ByteArray) : Except ReadFault String :=
  match String.fromUTF8? bytes with
  | some text => .ok text
  | none => .error .notText

/-- Where a command reads from. -/
structure Sources (m : Type → Type) where
  file (path : String) : m (Except ReadFault String)
  input : m (Except ReadFault String)

end FilterSelect.CommandLine
