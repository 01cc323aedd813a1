import FilterSelect.CommandLine.Source

/-!
# Folders

Files in a folder and its inner folders, and what a path leads to from there. A path is followed
name by name, and the first name that leads nowhere decides why a text cannot be read.

* `Folder.read`: the text of the file at a path.
-/

namespace FilterSelect.CommandLine

/-- Files by their paths from the folder. A folder is there when a file is somewhere in it. -/
structure Folder where
  files : List (List String × String) := []
  deriving DecidableEq, Repr

namespace Folder

/-- What a name in a folder leads to. -/
inductive Place
  | file (text : String)
  | folder (inner : Folder)
  | nothing

/-- What a name leads to. -/
def place (f : Folder) (name : String) : Place :=
  match f.files.lookup [name] with
  | some text => .file text
  | none =>
    match f.files.filterMap fun (path, text) =>
      match path with
      | first :: more => if first = name then some (more, text) else none
      | [] => none
    with
    | [] => .nothing
    | files => .folder ⟨files⟩

/-- The most bytes that a name may have. -/
def maxName : Nat := 255

/-- The most bytes that a path may have. -/
def maxPath : Nat := 4095

/-- Follows names from a folder; `outer` are the folders around it, the nearest first. Nothing is
known of folders further out, but that they are there. -/
def follow (f : Folder) (outer : List Folder) : List String → Except ReadFault String
  | [] => .error .isFolder
  | name :: names =>
    if name = "" || name = "." then follow f outer names
    else if name = ".." then
      match outer with
      | [] => follow {} [] names
      | g :: outer => follow g outer names
    else if maxName < name.utf8ByteSize then .error .nameTooLong
    else match f.place name with
      | .file text => if names.isEmpty then .ok text else .error .notFolder
      | .folder inner => follow inner (f :: outer) names
      | .nothing => .error .missing

/-- The text of the file at a path, which starts from `root` when it begins with a slash. -/
def read (root f : Folder) (path : String) : Except ReadFault String :=
  if path.isEmpty then .error .missing
  else if maxPath < path.utf8ByteSize then .error .nameTooLong
  else
    match path.splitOn "/" with
    | "" :: names => follow root [] names
    | names => follow f [] names

end Folder

end FilterSelect.CommandLine
