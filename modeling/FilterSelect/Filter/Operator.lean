import FilterSelect.Text.AsciiCase

/-!
# Operators and combinators

What a rule asks of its column, and how the members of a group are combined, each with the names
a request uses for them.
-/

namespace FilterSelect

/-- What a rule asks of its column. -/
inductive Operator
  | equal
  | notEqual
  | less
  | greater
  | atMost
  | atLeast
  /-- The value occurs in the text. -/
  | contains
  /-- The text begins with the value. -/
  | beginsWith
  /-- The text ends with the value. -/
  | endsWith
  | isNull
  | isNotNull
  /-- The value is a list, and the column is one of its members. -/
  | isIn
  /-- A name without a meaning of its own; read as equality. -/
  | other
  deriving DecidableEq, Repr

namespace Operator

/-- The names with a meaning, each with its operator. -/
def names : List (String × Operator) := [
  ("=", equal), ("!=", notEqual), ("<", less), (">", greater), ("<=", atMost), (">=", atLeast),
  ("contains", contains), ("beginsWith", beginsWith), ("endsWith", endsWith),
  ("null", isNull), ("notNull", isNotNull), ("in", isIn)]

/-- The operator of a name: none for the empty name, `other` for one without a meaning. -/
def ofName? (name : String) : Option Operator :=
  if name = "" then none else some ((names.lookup name).getD other)

/-- Whether the value is searched for in the column's text. -/
def isTextMatch : Operator → Bool
  | contains | beginsWith | endsWith => true
  | _ => false

/-- Whether the operator asks for null and so takes no value. -/
def isNullTest : Operator → Bool
  | isNull | isNotNull => true
  | _ => false

end Operator

/-- How the members of a group are combined. -/
inductive Combinator
  /-- Every member holds. -/
  | and
  /-- Some member holds. -/
  | or
  deriving DecidableEq, Repr

namespace Combinator

/-- The name in a request. -/
def name : Combinator → String
  | and => "and"
  | or => "or"

/-- The combinator of a name in any letter case. -/
def ofName? (s : String) : Option Combinator :=
  [and, or].find? fun c => Text.sameIgnoringCase c.name s

theorem ofName?_name (c : Combinator) : ofName? c.name = some c := by cases c <;> decide +kernel

/-- What a statement has between two members. -/
def separator : Combinator → String
  | and => " AND "
  | or => " OR "

end Combinator

end FilterSelect
