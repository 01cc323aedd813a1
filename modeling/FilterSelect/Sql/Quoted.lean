/-!
# Quoted identifiers and literals

A quoted token opens and closes with its mark, and a mark inside is written twice. So the token
ends at the first mark that no other follows, whatever the text holds.
-/

namespace FilterSelect.Sql

/-- The text with every `mark` written twice. -/
def doubled (mark : Char) (text : List Char) : List Char :=
  text.flatMap fun c => if c = mark then [mark, mark] else [c]

/-- The text between two marks, marks inside written twice. -/
def quotedBy (mark : Char) (text : String) : String :=
  String.ofList (mark :: doubled mark text.toList ++ [mark])

/-- A table, column or output name as a quoted identifier. -/
def quotedName (name : String) : String := quotedBy '"' name

/-- A text as a string literal. -/
def literal (text : String) : String := quotedBy '\'' text

end FilterSelect.Sql
