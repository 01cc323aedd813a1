import FilterSelect.Toml.Token

/-!
# The statements of a TOML document

A document is a list of statements: headers of tables, and keys with their values. Here its tokens
are put together, and no more: what a name, a string or a bare word holds is taken as it comes, so
that the mistakes of a document come in two kinds, those of its form and those of its contents.

A name or a value that is missing is no mistake of form where its place is clear: a name before an
equals sign, beside a point, or in a header, and a value at the end of a line or of an inline table.
Behind a header that lacks its last name nothing counts up to the end of the line.

* `Statement.read?`: the statements of a document; none when it has not the form of one.
-/

namespace FilterSelect.Toml

/-- What stands for a name in a key. -/
inductive Name
  | text (s : String)
  /-- What stands there is no name. -/
  | broken
  /-- Nothing stands there. -/
  | missing
  deriving DecidableEq, Repr

/-- A key, as the names that points separate. -/
abbrev Key := List Name

/-- Whether a name stands at the end of the key, be it broken. -/
def Key.isEnded (key : Key) : Bool := key.getLast? ≠ some .missing

/-- What stands for a value. -/
inductive Expression
  /-- A string; none when it is broken. -/
  | string (s : Option String)
  /-- What stands without quotes; nothing when the value is missing. -/
  | bare (text : List Char)
  | array (items : List Expression)
  /-- An inline table. A key may lack its value. -/
  | table (entries : List (Key × Option Expression))

/-- A statement of a document. -/
inductive Statement
  /-- The header of a table, or of one more table in an array of tables. -/
  | header (inArray : Bool) (key : Key)
  | entry (key : Key) (value : Expression)

namespace Statement

/-! ## Keys -/

/-- Whether the token is a blank. -/
def isBlank : Token → Bool
  | .blank _ => true
  | _ => false

/-- Whether the token is a blank or a line end. -/
def isGap : Token → Bool
  | .blank _ | .newline => true
  | _ => false

/-- The tokens behind the blanks at the start. -/
def skipBlanks (ts : List Token) : List Token := ts.dropWhile isBlank

theorem length_skipBlanks_le (ts : List Token) : (skipBlanks ts).length ≤ ts.length :=
  (List.dropWhile_sublist isBlank).length_le

/-- The tokens behind the blanks and line ends at the start. -/
def skipGaps (ts : List Token) : List Token := ts.dropWhile isGap

/-- What a string or a word is as a part of a key: a string on one line is a name, and a word of
letters, digits, underscores and hyphens. -/
def part? : Token → Option Name
  | .string (some s) true => some (.text s)
  | .string _ _ => some .broken
  | .word cs =>
    some (if cs.all fun c => c.isAlphanum || c == '_' || c == '-' then .text (String.ofList cs)
      else .broken)
  | _ => none

/-- The parts of a key behind its first one, each behind a point, and the rest. The last one may be
missing. -/
def moreParts? (ts : List Token) : Option (Key × List Token) :=
  match _h : skipBlanks ts with
  | .dot :: behind =>
    match _h' : skipBlanks behind with
    | [] => some ([.missing], [])
    | .dot :: _ => none
    | t :: later =>
      match part? t with
      | some part => (moreParts? later).map fun (parts, rest) => (part :: parts, rest)
      | none => some ([.missing], t :: later)
  | rest => some ([], rest)
termination_by ts.length
decreasing_by
  have h₁ := length_skipBlanks_le ts
  have h₂ := length_skipBlanks_le behind
  rw [_h] at h₁
  rw [_h'] at h₂
  simp only [List.length_cons] at h₁ h₂
  omega

/-- The key of an entry, and the rest. Its first name may be missing before a point or an equals
sign. -/
def key? : List Token → Option (Key × List Token)
  | .dot :: ts => (moreParts? (.dot :: ts)).map fun (parts, rest) => (.missing :: parts, rest)
  | .equals :: ts => some ([.missing], .equals :: ts)
  | t :: ts => do
    let part ← part? t
    let (parts, rest) ← moreParts? ts
    some (part :: parts, rest)
  | [] => none

/-! ## Values -/

/-- The text of the words and points that stand together, with the blanks between words, and the
rest. -/
def bareText : List Token → List Char × List Token
  | .word cs :: ts => let (more, rest) := bareText ts; (cs ++ more, rest)
  | .dot :: ts => let (more, rest) := bareText ts; ('.' :: more, rest)
  | .blank bs :: .word cs :: ts => let (more, rest) := bareText ts; (bs ++ cs ++ more, rest)
  | ts => ([], ts)

/-- How many arrays and inline tables may be open at a time. -/
def maxDepth : Nat := 80

mutual

/-- A value and the rest. `room` arrays and inline tables may still open; `fuel` bounds the calls,
and twice the number of tokens is enough. -/
def value? (room fuel : Nat) (ts : List Token) : Option (Expression × List Token) :=
  match fuel with
  | 0 => none
  | fuel + 1 =>
    match ts, room with
    | .string s _ :: ts, _ => some (.string s, ts)
    | .openBracket :: ts, room + 1 =>
      (items? room fuel ts).map fun (items, rest) => (.array items, rest)
    | .openBrace :: ts, room + 1 =>
      (entries? room fuel ts).map fun (entries, rest) => (.table entries, rest)
    | .word cs :: ts, _ => let (text, rest) := bareText (.word cs :: ts); some (.bare text, rest)
    | .dot :: ts, _ => let (text, rest) := bareText (.dot :: ts); some (.bare text, rest)
    | _, _ => none

/-- The items of an array up to its end, and the rest. -/
def items? (room fuel : Nat) (ts : List Token) : Option (List Expression × List Token) :=
  match fuel with
  | 0 => none
  | fuel + 1 =>
    match skipGaps ts with
    | .closeBracket :: rest => some ([], rest)
    | ts => do
      let (item, ts) ← value? room fuel ts
      match skipGaps ts with
      | .closeBracket :: rest => some ([item], rest)
      | .comma :: ts =>
        let (items, rest) ← items? room fuel ts
        some (item :: items, rest)
      | _ => none

/-- The entries of an inline table up to its end, and the rest. As in an array, line ends may stand
anywhere but within a key, and a comma behind the last entry. The last entry may end behind its key
or behind its equals sign. -/
def entries? (room fuel : Nat) (ts : List Token) :
    Option (List (Key × Option Expression) × List Token) :=
  match fuel with
  | 0 => none
  | fuel + 1 =>
    match skipGaps ts with
    | .closeBrace :: rest => some ([], rest)
    | ts => do
      let (key, ts) ← key? ts
      match skipGaps ts with
      | .closeBrace :: rest => some ([(key, none)], rest)
      | .equals :: ts =>
        match skipGaps ts with
        | .closeBrace :: rest => some ([(key, none)], rest)
        | ts =>
          let (value, ts) ← value? room fuel ts
          match skipGaps ts with
          | .closeBrace :: rest => some ([(key, some value)], rest)
          | .comma :: ts =>
            let (entries, rest) ← entries? room fuel ts
            some ((key, some value) :: entries, rest)
          | _ => none
      | _ => none

end

/-! ## Statements -/

/-- The key in a header, and the rest. Where no name begins, one is missing. -/
def headerKey? (ts : List Token) : Option (Key × List Token) :=
  match skipBlanks ts with
  | .dot :: _ => none
  | t :: ts => if (part? t).isSome then key? (t :: ts) else some ([.missing], t :: ts)
  | [] => some ([.missing], [])

/-- Whether the token is no line end. -/
def isInLine : Token → Bool
  | .newline => false
  | _ => true

/-- The header with a key, given the tokens behind its key, and the rest. Without its last name it
needs no closing bracket. -/
def header? (inArray : Bool) (key : Key) : List Token → Option (Statement × List Token)
  | .closeBracket :: ts =>
    match inArray, ts with
    | false, rest => some (.header false key, rest)
    | true, .closeBracket :: rest => some (.header true key, rest)
    | true, _ => none
  | ts => if key.isEnded then none else some (.header inArray key, ts.dropWhile isInLine)

/-- The value of a statement, which may be missing at the end of the line, and the rest. -/
def lineValue? : List Token → Option (Expression × List Token)
  | [] => some (.bare [], [])
  | .newline :: ts => some (.bare [], .newline :: ts)
  | ts => value? maxDepth (2 * ts.length + 2) ts

/-- The statement at the start of a line, and the rest. -/
def statement? (ts : List Token) : Option (Statement × List Token) :=
  match ts with
  | .openBracket :: .openBracket :: ts => do
    let (key, ts) ← headerKey? ts
    header? true key ts
  | .openBracket :: ts => do
    let (key, ts) ← headerKey? ts
    header? false key ts
  | ts => do
    let (key, ts) ← key? ts
    match ts with
    | .equals :: ts =>
      let (value, rest) ← lineValue? (skipBlanks ts)
      some (.entry key value, rest)
    | _ => none

/-- The statements of the lines, one a line. `fuel` bounds the lines; the number of tokens and one
more are enough. -/
def statements? (fuel : Nat) (ts : List Token) : Option (List Statement) :=
  match fuel with
  | 0 => none
  | fuel + 1 =>
    match skipGaps ts with
    | [] => some []
    | ts => do
      let (statement, ts) ← statement? ts
      match skipBlanks ts with
      | [] => some [statement]
      | .newline :: ts => (statements? fuel ts).map (statement :: ·)
      | _ => none

/-- The statements of a document. A byte order mark at its start does not count. -/
def read? (text : String) : Option (List Statement) := do
  let cs := match text.toList with
    | '\uFEFF' :: cs => cs
    | cs => cs
  let ts ← Token.scan? [] cs
  statements? (ts.length + 1) ts

end Statement

end FilterSelect.Toml
