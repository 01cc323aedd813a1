/-!
# Bare names

The primary alias and the normalizer are written into a statement without quotes. A bare name
starts with an ASCII letter or an underscore, goes on with letters, digits and underscores, and
has at most 63 characters, PostgreSQL's limit. A path is a dotted list of bare names.
-/

namespace FilterSelect.Sql

/-- The longest bare name. -/
def maxNameLength : Nat := 63

/-- Whether a bare name may start with `c`. -/
def isNameStart (c : Char) : Bool := c.isAlpha || c == '_'

/-- Whether a bare name may go on with `c`. -/
def isNameChar (c : Char) : Bool := c.isAlphanum || c == '_'

/-- Whether the characters form a bare name. -/
def isNameText : List Char → Bool
  | [] => false
  | c :: cs => isNameStart c && cs.all isNameChar && cs.length < maxNameLength

/-- Whether the text can be written as a bare name. -/
def isName (s : String) : Bool := isNameText s.toList

/-- Whether the text is a dotted path of bare names, such as a function name with its schema. -/
def isPath (s : String) : Bool := (s.toList.splitOn '.').all isNameText

/-- The PostgreSQL keywords that cannot name a table alias: the reserved ones, and those that may
name a type or a function only. -/
def keywords : List String := [
  "all", "analyse", "analyze", "and", "any", "array", "as", "asc", "asymmetric",
  "authorization", "binary", "both", "case", "cast", "check", "collate", "collation",
  "column", "concurrently", "constraint", "create", "cross", "current_catalog",
  "current_date", "current_role", "current_schema", "current_time", "current_timestamp",
  "current_user", "default", "deferrable", "desc", "distinct", "do", "else", "end",
  "except", "false", "fetch", "for", "foreign", "freeze", "from", "full", "grant",
  "group", "having", "ilike", "in", "initially", "inner", "intersect", "into", "is",
  "isnull", "join", "lateral", "leading", "left", "like", "limit", "localtime",
  "localtimestamp", "natural", "not", "notnull", "null", "offset", "on", "only", "or",
  "order", "outer", "overlaps", "placing", "primary", "references", "returning", "right",
  "select", "session_user", "similar", "some", "symmetric", "system_user", "table",
  "tablesample", "then", "to", "trailing", "true", "union", "unique", "user", "using",
  "variadic", "verbose", "when", "where", "window", "with"]

/-- Whether the name is a keyword; unquoted names have no case. -/
def isKeyword (s : String) : Bool := keywords.contains s.toLower

/-- Whether the name could be a join's alias in some case: a `j` and then digits only. -/
def isJoinAlias (s : String) : Bool :=
  match s.toList with
  | c :: d :: ds => (c == 'j' || c == 'J') && (d :: ds).all Char.isDigit
  | _ => false

end FilterSelect.Sql
