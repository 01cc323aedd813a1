import FilterSelect.Filter.Operator
import FilterSelect.Options
import FilterSelect.Sql.Quoted

/-!
# Conditions of a statement

What a statement asks of its rows, apart from how it is written: columns say which table they
belong to, and operands are null, numbers or texts. The options come in when the text is written.

* `Condition.sql`: a comparison, a membership, a pattern match or a null test.
* `Where.sql`: conditions with their combinators; each inner group stands in parentheses.
-/

namespace FilterSelect.Sql

/-! ## Columns -/

/-- A table of a statement: the queried one, or the one that a join at a position brings in. -/
inductive Source
  | primary
  | join (position : Nat)
  deriving DecidableEq, Repr

/-- The alias of the join at a position. -/
def joinAlias (position : Nat) : String := "j" ++ toString position

/-- The alias under which a table is known in the statement. -/
def Source.name (o : Options) : Source → String
  | .primary => o.primaryAlias
  | .join position => joinAlias position

/-- A column of a table. -/
structure ColumnRef where
  source : Source
  column : String
  deriving DecidableEq, Repr

/-- The column with the alias of its table. -/
def ColumnRef.sql (o : Options) (c : ColumnRef) : String :=
  c.source.name o ++ "." ++ quotedName c.column

/-- A text in lower case and without accents. -/
def normalized (o : Options) (text : String) : String := o.normalizer ++ "(lower(" ++ text ++ "))"

/-- A column that is compared, as it is or as normalized text. -/
structure Subject where
  column : ColumnRef
  isNormalized : Bool
  deriving DecidableEq, Repr

/-- The compared side of a condition. -/
def Subject.sql (o : Options) (s : Subject) : String :=
  if s.isNormalized then normalized o ("CAST(" ++ s.column.sql o ++ " AS TEXT)")
  else s.column.sql o

/-! ## Operands -/

/-- What a column is compared with. -/
inductive Operand
  | null
  /-- A number, written as its literal. -/
  | number (numeral : String)
  | text (s : String)
  | normalizedText (s : String)
  deriving DecidableEq, Repr

/-- The operand as it is written. -/
def Operand.sql (o : Options) : Operand → String
  | .null => "NULL"
  | .number numeral => numeral
  | .text s => literal s
  | .normalizedText s => normalized o (literal s)

/-! ## Conditions -/

/-- How two values are compared. -/
inductive Comparison
  | equal
  | notEqual
  | less
  | greater
  | atMost
  | atLeast
  deriving DecidableEq, Repr

/-- The sign of a comparison. -/
def Comparison.symbol : Comparison → String
  | equal => "="
  | notEqual => "!="
  | less => "<"
  | greater => ">"
  | atMost => "<="
  | atLeast => ">="

/-- What is asked of a row by one rule. -/
inductive Condition
  | compare (subject : Subject) (comparison : Comparison) (operand : Operand)
  | isIn (subject : Subject) (operands : List Operand)
  /-- No row fulfils it: there is no valid text for being in an empty list. -/
  | never
  /-- The normalized text of a column matches a pattern, which is normalized too. -/
  | isLike (column : ColumnRef) (pattern : String)
  | isNull (column : ColumnRef)
  | isNotNull (column : ColumnRef)
  deriving DecidableEq, Repr

/-- The condition as it is written. -/
def Condition.sql (o : Options) : Condition → String
  | .compare subject comparison operand =>
    subject.sql o ++ " " ++ comparison.symbol ++ " " ++ operand.sql o
  | .isIn subject operands =>
    subject.sql o ++ " IN (" ++ ", ".intercalate (operands.map (Operand.sql o)) ++ ")"
  | .never => "1=0"
  | .isLike column pattern =>
    Subject.sql o ⟨column, true⟩ ++ " LIKE " ++ Operand.sql o (.normalizedText pattern)
  | .isNull column => column.sql o ++ " IS NULL"
  | .isNotNull column => column.sql o ++ " IS NOT NULL"

/-- A condition, or a group of clauses in parentheses. -/
inductive Clause
  | condition (c : Condition)
  | group (combinator : Combinator) (clauses : List Clause)

namespace Clause

mutual

/-- The clause as it is written. -/
def sql (o : Options) : Clause → String
  | .condition c => c.sql o
  | .group combinator clauses => "(" ++ combinator.separator.intercalate (sqls o clauses) ++ ")"

/-- The clauses of a group as they are written. -/
def sqls (o : Options) : List Clause → List String
  | [] => []
  | c :: cs => c.sql o :: sqls o cs

end

end Clause

/-- What is asked of the rows of a statement; nothing when there are no clauses. -/
structure Where where
  combinator : Combinator
  clauses : List Clause

/-- The clauses with their combinator between them. -/
def Where.sql (o : Options) (w : Where) : String :=
  w.combinator.separator.intercalate (Clause.sqls o w.clauses)

end FilterSelect.Sql
