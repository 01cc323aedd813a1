import FilterSelect.Proofs.Sql.Lexer
import FilterSelect.Sql.Select

/-!
# Tokens of statements

What the parts of a statement are as tokens, and that their texts are read as these tokens. Every
part is a phrase: a text that gives its tokens in front of anything at which tokens stop. So parts
with a separator between them never run into each other, whatever names and texts they hold.

* `Phrase`, `Closed`: the text gives the tokens where tokens stop behind it, or in front of any
  text at all.
* `Condition.tokens`, `Where.tokens`, `Select.tokens`: the tokens of a condition, a filter, a
  statement.
* `Clause.ind`: induction on a clause, with the hypothesis for every member of a group.
* `Where.phrase`, `Select.phrase`: the text of a filter or a statement is read as its tokens.
-/

namespace FilterSelect.Sql

/-! ## Phrases -/

/-- The text gives the tokens wherever tokens stop behind it. -/
def Phrase (text : String) (ts : List Token) : Prop := ∀ rest, Stops rest → Reads text ts rest

/-- The text gives the tokens whatever is behind it. -/
def Closed (text : String) (ts : List Token) : Prop := ∀ rest, Reads text ts rest

/-- Whether tokens stop where the text starts. -/
def startsApart (text : String) : Bool :=
  text.toList.head?.any fun c => c == ' ' || c == ',' || c == ')'

theorem stops_append {text : String} (h : startsApart text = true) (rest : List Char) :
    Stops (text.toList ++ rest) := by
  unfold startsApart at h
  cases hcs : text.toList with
  | nil => simp [hcs] at h
  | cons c cs =>
    intro d hd
    cases hd
    simpa [hcs, or_assoc] using h

theorem startsApart_append {a : String} (h : startsApart a = true) (b : String) :
    startsApart (a ++ b) = true := by
  unfold startsApart at *
  rw [String.toList_append]
  cases ha : a.toList with
  | nil => simp [ha] at h
  | cons c cs => simpa [ha] using h

section Combinators

variable {a b : String} {ts us : List Token}

theorem Closed.fixed (h : fixedTokens? [] a.toList = some ts) : Closed a ts :=
  fun rest => reads_fixed h rest

theorem Closed.phrase (h : Closed a ts) : Phrase a ts := fun rest _ => h rest

/-- A phrase behind a closed text. -/
theorem Closed.appendPhrase (ha : Closed a ts) (hb : Phrase b us) : Phrase (a ++ b) (ts ++ us) :=
  fun rest hr => (ha _).append (hb rest hr)

/-- A closed text behind a phrase that stops there. -/
theorem Phrase.appendClosed (ha : Phrase a ts) (h : startsApart b = true) (hb : Closed b us) :
    Closed (a ++ b) (ts ++ us) :=
  fun rest => (ha _ (stops_append h rest)).append (hb rest)

theorem Phrase.append (ha : Phrase a ts) (h : startsApart b = true) (hb : Phrase b us) :
    Phrase (a ++ b) (ts ++ us) :=
  fun rest hr => (ha _ (stops_append h rest)).append (hb rest hr)

end Combinators

namespace Phrase

theorem lex?_eq {a : String} {ts : List Token} (h : Phrase a ts) : lex? a = some ts :=
  lex?_of_reads (h [] (by simp [Stops]))

theorem word {a : String} (h : isWord a.toList = true) : Phrase a [.word a] :=
  fun _ hr => reads_word h (hr.not_mem (p := isNameChar) rfl rfl rfl)

theorem name (s : String) : Phrase (quotedName s) [.name s] := fun _ hr =>
  reads_name s fun c hc => by rcases hr c hc with rfl | rfl | rfl <;> decide

theorem text (s : String) : Phrase (literal s) [.text s] := fun _ hr =>
  reads_text s fun c hc => by rcases hr c hc with rfl | rfl | rfl <;> decide

theorem number {numeral : String} (h : IsPlain numeral.toList) :
    Phrase numeral (numberTokens numeral) :=
  fun _ hr => reads_number h hr

/-- Phrases with a separator between them. -/
theorem intercalate {α : Type} {text : α → String} {tokens : α → List Token} {sep : String}
    {us : List Token} (hsep : Closed sep us) (hs : startsApart sep = true) {xs : List α}
    (h : ∀ x ∈ xs, Phrase (text x) (tokens x)) :
    Phrase (sep.intercalate (xs.map text)) (us.intercalate (xs.map tokens)) := by
  induction xs with
  | nil => exact (Closed.fixed rfl).phrase
  | cons x xs ih =>
    have hx := h x List.mem_cons_self
    have ih := ih fun y hy => h y (List.mem_cons_of_mem x hy)
    cases xs with
    | nil => simpa using hx
    | cons y ys =>
      simp only [List.map_cons, String.intercalate_cons_cons, List.intercalate_cons_cons] at ih ⊢
      exact (hx.appendClosed hs hsep).appendPhrase ih

/-- A phrase with others behind it that all start apart. -/
theorem appendJoin {α : Type} {text : α → String} {tokens : α → List Token} {xs : List α}
    (hs : ∀ x ∈ xs, startsApart (text x) = true) (h : ∀ x ∈ xs, Phrase (text x) (tokens x))
    {a : String} {ts : List Token} (ha : Phrase a ts) :
    Phrase (a ++ String.join (xs.map text)) (ts ++ (xs.map tokens).flatten) := by
  induction xs generalizing a ts with
  | nil => simpa using ha
  | cons x xs ih =>
    have hx := ha.append (hs x List.mem_cons_self) (h x List.mem_cons_self)
    have ih := ih (fun y hy => hs y (List.mem_cons_of_mem x hy))
      (fun y hy => h y (List.mem_cons_of_mem x hy)) hx
    simpa only [List.map_cons, String.join_cons, List.flatten_cons, String.append_assoc,
      List.append_assoc] using ih

end Phrase

/-! ## Names without quotes -/

theorem accepts_of_fault?_eq_none {o : Options} (h : o.fault? = none) (s : Setting) :
    o.accepts s = true := by
  have := List.find?_eq_none.mp h s (by cases s <;> simp)
  simpa using this

/-- A usable alias is a bare name, and neither a keyword nor the alias of a join. -/
theorem primaryAlias_of_fault?_eq_none {o : Options} (h : o.fault? = none) :
    isName o.primaryAlias = true ∧ isKeyword o.primaryAlias = false ∧
      isJoinAlias o.primaryAlias = false := by
  simpa [Options.accepts, and_assoc] using accepts_of_fault?_eq_none h .primaryAlias

theorem isWord_primaryAlias {o : Options} (h : o.fault? = none) :
    isWord o.primaryAlias.toList = true :=
  isWord_of_isNameText (primaryAlias_of_fault?_eq_none h).1

theorem toList_joinAlias (position : Nat) :
    (joinAlias position).toList = 'j' :: Nat.toDigits 10 position := by
  rw [joinAlias, String.toList_append, Nat.toString_eq_repr, Nat.toList_repr]
  rfl

theorem isDigit_of_mem_toDigits {n : Nat} {d : Char} (hd : d ∈ Nat.toDigits 10 n) :
    d.isDigit = true :=
  Nat.isDigit_of_mem_toDigits (by decide) (by decide) hd

theorem isWord_joinAlias (position : Nat) : isWord (joinAlias position).toList = true := by
  have hdigits : (Nat.toDigits 10 position).all isNameChar = true :=
    List.all_eq_true.mpr fun d hd => isNameChar_of_isDigit (isDigit_of_mem_toDigits hd)
  rw [toList_joinAlias, isWord, hdigits]
  rfl

theorem isWord_name {o : Options} (h : o.fault? = none) (s : Source) :
    isWord (s.name o).toList = true := by
  cases s with
  | primary => exact isWord_primaryAlias h
  | join position => exact isWord_joinAlias position

/-- The tokens of a dotted path. -/
def pathTokens (path : String) : List Token :=
  [Token.punct '.'].intercalate
    ((path.toList.splitOn '.').map fun part => [.word (String.ofList part)])

theorem tokens?_point (cs : List Char) :
    tokens? ('.' :: cs) = (tokens? cs).map (.punct '.' :: ·) :=
  tokens?_token rfl (token?_punct rfl (by decide) (by decide) cs)

theorem tokens?_parts {parts : List (List Char)} {rest : List Char}
    (hp : ∀ part ∈ parts, isWord part = true) (hr : ∀ c ∈ rest.head?, isNameChar c = false) :
    tokens? (['.'].intercalate parts ++ rest) =
      (tokens? rest).map ([Token.punct '.'].intercalate
        (parts.map fun part => [.word (String.ofList part)]) ++ ·) := by
  induction parts with
  | nil => simp
  | cons part parts ih =>
    have hw := hp part List.mem_cons_self
    have ih := ih fun q hq => hp q (List.mem_cons_of_mem part hq)
    cases parts with
    | nil => simpa using tokens?_word hw hr
    | cons q qs =>
      have hpoint : ∀ c ∈ ('.' :: (['.'].intercalate (q :: qs) ++ rest)).head?,
          isNameChar c = false := by
        intro c hc
        cases hc
        rfl
      simp only [List.map_cons, List.intercalate_cons_cons, List.append_assoc, List.cons_append,
        List.nil_append] at ih ⊢
      rw [tokens?_word hw hpoint, tokens?_point, ih, Option.map_map, Option.map_map]
      rfl

/-- A path is read up to the first character that no word has. -/
theorem reads_path {path : String} {rest : List Char} (h : isPath path = true)
    (hr : ∀ c ∈ rest.head?, isNameChar c = false) : Reads path (pathTokens path) rest := by
  have hp : ∀ part ∈ path.toList.splitOn '.', isWord part = true := fun part hpart =>
    isWord_of_isNameText (List.all_eq_true.mp h part hpart)
  have := tokens?_parts hp hr
  rwa [List.intercalate_splitOn] at this

/-! ## Columns and operands -/

/-- The tokens of a column. -/
def ColumnRef.tokens (o : Options) (c : ColumnRef) : List Token :=
  [.word (c.source.name o), .punct '.', .name c.column]

/-- The tokens of a normalized text. -/
def normalizedTokens (o : Options) (ts : List Token) : List Token :=
  pathTokens o.normalizer ++ [.punct '(', .word "lower", .punct '('] ++ ts ++
    [.punct ')', .punct ')']

/-- The tokens of the compared side of a condition. -/
def Subject.tokens (o : Options) (s : Subject) : List Token :=
  if s.isNormalized then
    normalizedTokens o ([.word "CAST", .punct '('] ++ s.column.tokens o ++
      [.word "AS", .word "TEXT", .punct ')'])
  else s.column.tokens o

/-- The tokens of an operand. -/
def Operand.tokens (o : Options) : Operand → List Token
  | .null => [.word "NULL"]
  | .number numeral => numberTokens numeral
  | .text s => [.text s]
  | .normalizedText s => normalizedTokens o [.text s]

/-- Whether a number is written as its literal. -/
def Operand.IsPlain : Operand → Prop
  | .number numeral => FilterSelect.IsPlain numeral.toList
  | _ => True

section Parts

variable {o : Options} (ho : o.fault? = none)
include ho

theorem ColumnRef.phrase (column : ColumnRef) : Phrase (column.sql o) (column.tokens o) := by
  intro rest hr
  have hname := Phrase.name column.column rest hr
  have hpoint : Reads "." [.punct '.'] ((quotedName column.column).toList ++ rest) :=
    reads_fixed rfl _
  have hword : Reads (column.source.name o) [.word (column.source.name o)]
      (".".toList ++ ((quotedName column.column).toList ++ rest)) := by
    refine reads_word (isWord_name ho column.source) fun c hc => ?_
    cases hc
    rfl
  exact (hword.append hpoint).append hname

theorem closed_normalized {text : String} {ts : List Token} (h : Phrase text ts) :
    Closed (normalized o text) (normalizedTokens o ts) := by
  intro rest
  have hclose : Reads "))" [.punct ')', .punct ')'] rest := reads_fixed rfl _
  have hopen : Reads "(lower(" [.punct '(', .word "lower", .punct '(']
      (text.toList ++ ("))".toList ++ rest)) := reads_fixed rfl _
  have hpath : Reads o.normalizer (pathTokens o.normalizer)
      ("(lower(".toList ++ (text.toList ++ ("))".toList ++ rest))) := by
    refine reads_path (accepts_of_fault?_eq_none ho .normalizer) fun c hc => ?_
    cases hc
    rfl
  exact ((hpath.append hopen).append (h _ (stops_append rfl rest))).append hclose

theorem Subject.phrase (s : Subject) : Phrase (s.sql o) (s.tokens o) := by
  have hcolumn := s.column.phrase ho
  unfold Subject.sql Subject.tokens
  split
  · have hcast : Closed "CAST(" [.word "CAST", .punct '('] := .fixed rfl
    have htype : Closed " AS TEXT)" [.word "AS", .word "TEXT", .punct ')'] := .fixed rfl
    have hall := (hcast.appendPhrase hcolumn).appendClosed rfl htype
    exact (closed_normalized ho hall.phrase).phrase
  · exact hcolumn

theorem Operand.phrase {operand : Operand} (h : operand.IsPlain) :
    Phrase (operand.sql o) (operand.tokens o) := by
  cases operand with
  | null =>
    show Phrase "NULL" [.word "NULL"]
    exact .word (by decide +kernel)
  | number numeral => exact .number h
  | text s => exact .text s
  | normalizedText s => exact (closed_normalized ho (.text s)).phrase

end Parts

/-! ## Conditions -/

/-- The tokens of the sign of a comparison. -/
def Comparison.tokens (c : Comparison) : List Token := c.symbol.toList.map .punct

/-- The tokens of a condition. -/
def Condition.tokens (o : Options) : Condition → List Token
  | .compare subject comparison operand =>
    subject.tokens o ++ comparison.tokens ++ operand.tokens o
  | .isIn subject operands =>
    subject.tokens o ++ [.word "IN", .punct '('] ++
      [Token.punct ','].intercalate (operands.map (Operand.tokens o)) ++ [.punct ')']
  | .never => [.number "1", .punct '=', .number "0"]
  | .isLike column pattern =>
    Subject.tokens o ⟨column, true⟩ ++ [.word "LIKE"] ++ Operand.tokens o (.normalizedText pattern)
  | .isNull column => column.tokens o ++ [.word "IS", .word "NULL"]
  | .isNotNull column => column.tokens o ++ [.word "IS", .word "NOT", .word "NULL"]

/-- What a condition compares with. -/
def Condition.operands : Condition → List Operand
  | .compare _ _ operand => [operand]
  | .isIn _ operands => operands
  | .isLike _ pattern => [.normalizedText pattern]
  | .never | .isNull _ | .isNotNull _ => []

/-- Whether all numbers of a condition are written as their literals. -/
def Condition.IsPlain (c : Condition) : Prop := ∀ operand ∈ c.operands, operand.IsPlain

theorem closed_comparison (c : Comparison) : Closed (" " ++ c.symbol ++ " ") c.tokens := by
  cases c <;> exact .fixed rfl

theorem startsApart_comparison (c : Comparison) : startsApart (" " ++ c.symbol ++ " ") = true := by
  cases c <;> rfl

theorem phrase_never : Phrase "1=0" [.number "1", .punct '=', .number "0"] := by
  intro rest hr
  have hone : Reads "1" [.number "1"] ("=".toList ++ ("0".toList ++ rest)) := by
    have h : AreDigits ['1'] := by simp [AreDigits]
    have hnext : ∀ c ∈ ('=' :: '0' :: rest).head?, c.isDigit = false := by simp
    exact tokens?_digits h hnext rfl
  have hequal : Reads "=" [.punct '='] ("0".toList ++ rest) := reads_fixed rfl _
  have hzero : Reads "0" [.number "0"] rest := by
    have h : AreDigits ['0'] := by simp [AreDigits]
    exact tokens?_number (.whole h) hr
  exact (hone.append hequal).append hzero

theorem Condition.phrase {o : Options} (ho : o.fault? = none) {c : Condition} (h : c.IsPlain) :
    Phrase (c.sql o) (c.tokens o) := by
  cases c with
  | compare subject comparison operand =>
    have hoperand := Operand.phrase ho (h operand (by simp [operands]))
    have hleft := (subject.phrase ho).appendClosed (startsApart_comparison comparison)
      (closed_comparison comparison)
    simpa only [sql, tokens, String.append_assoc] using hleft.appendPhrase hoperand
  | isIn subject operands =>
    have hin : Closed " IN (" [.word "IN", .punct '('] := .fixed rfl
    have hcomma : Closed ", " [.punct ','] := .fixed rfl
    have hclose : Closed ")" [.punct ')'] := .fixed rfl
    have hlist := Phrase.intercalate hcomma rfl fun x hx => Operand.phrase ho (h x hx)
    have hleft := (subject.phrase ho).appendClosed rfl hin
    exact ((hleft.appendPhrase hlist).appendClosed rfl hclose).phrase
  | never => exact phrase_never
  | isLike column pattern =>
    have hlike : Closed " LIKE " [.word "LIKE"] := .fixed rfl
    have hpattern := Operand.phrase ho (h (.normalizedText pattern) (by simp [operands]))
    exact ((Subject.phrase ho ⟨column, true⟩).appendClosed rfl hlike).appendPhrase hpattern
  | isNull column =>
    have his : Closed " IS " [.word "IS"] := .fixed rfl
    have hnull := his.appendPhrase (.word (a := "NULL") (by decide +kernel))
    exact (column.phrase ho).append rfl hnull
  | isNotNull column =>
    have his : Closed " IS NOT " [.word "IS", .word "NOT"] := .fixed rfl
    have hnull := his.appendPhrase (.word (a := "NULL") (by decide +kernel))
    exact (column.phrase ho).append rfl hnull

/-! ## Filters -/

/-- Induction on a clause, with the hypothesis for every clause of a group. -/
@[elab_as_elim]
theorem Clause.ind {motive : Clause → Prop} (condition : ∀ c, motive (.condition c))
    (group : ∀ combinator clauses, (∀ c ∈ clauses, motive c) → motive (.group combinator clauses))
    (c : Clause) : motive c := by
  refine @Clause.rec motive (fun cs => ∀ c ∈ cs, motive c) condition group (by simp)
    (fun c cs hc hcs => ?_) c
  simpa using ⟨hc, hcs⟩

/-- The word between two members. -/
def separatorTokens : Combinator → List Token
  | .and => [.word "AND"]
  | .or => [.word "OR"]

namespace Clause

mutual

/-- The tokens of a clause. -/
def tokens (o : Options) : Clause → List Token
  | .condition c => c.tokens o
  | .group combinator clauses =>
    .punct '(' :: (separatorTokens combinator).intercalate (tokensOf o clauses) ++ [.punct ')']

/-- The tokens of each clause of a group. -/
def tokensOf (o : Options) : List Clause → List (List Token)
  | [] => []
  | c :: cs => c.tokens o :: tokensOf o cs

end

mutual

/-- The conditions of a clause, in order. -/
def conditions : Clause → List Condition
  | .condition c => [c]
  | .group _ clauses => conditionsOf clauses

/-- The conditions of the clauses of a group, in order. -/
def conditionsOf : List Clause → List Condition
  | [] => []
  | c :: cs => c.conditions ++ conditionsOf cs

end

theorem sqls_eq_map (o : Options) (cs : List Clause) : sqls o cs = cs.map (sql o) := by
  induction cs with
  | nil => rfl
  | cons c cs ih => rw [sqls, ih, List.map_cons]

theorem tokensOf_eq_map (o : Options) (cs : List Clause) : tokensOf o cs = cs.map (tokens o) := by
  induction cs with
  | nil => rfl
  | cons c cs ih => rw [tokensOf, ih, List.map_cons]

theorem conditionsOf_eq_flatMap (cs : List Clause) : conditionsOf cs = cs.flatMap conditions := by
  induction cs with
  | nil => rfl
  | cons c cs ih => rw [conditionsOf, ih, List.flatMap_cons]

theorem mem_conditionsOf {cs : List Clause} {c : Clause} (hc : c ∈ cs) {x : Condition}
    (hx : x ∈ c.conditions) : x ∈ conditionsOf cs := by
  rw [conditionsOf_eq_flatMap]
  exact List.mem_flatMap.mpr ⟨c, hc, hx⟩

theorem exists_mem_conditionsOf_iff {cs : List Clause} {p : Condition → Prop} :
    (∃ x ∈ conditionsOf cs, p x) ↔ ∃ c ∈ cs, ∃ x ∈ c.conditions, p x := by
  rw [conditionsOf_eq_flatMap]
  constructor
  · rintro ⟨x, hx, hp⟩
    obtain ⟨c, hc, hx⟩ := List.mem_flatMap.mp hx
    exact ⟨c, hc, x, hx, hp⟩
  · rintro ⟨c, hc, x, hx, hp⟩
    exact ⟨x, List.mem_flatMap.mpr ⟨c, hc, hx⟩, hp⟩

end Clause

theorem closed_separator (c : Combinator) : Closed c.separator (separatorTokens c) := by
  cases c <;> exact .fixed rfl

theorem startsApart_separator (c : Combinator) : startsApart c.separator = true := by
  cases c <;> rfl

theorem Clause.phrase {o : Options} (ho : o.fault? = none) {c : Clause}
    (h : ∀ x ∈ c.conditions, x.IsPlain) : Phrase (c.sql o) (c.tokens o) := by
  induction c using Clause.ind with
  | condition x => exact Condition.phrase ho (h x (by simp [conditions]))
  | group combinator clauses ih =>
    have hopen : Closed "(" [.punct '('] := .fixed rfl
    have hclose : Closed ")" [.punct ')'] := .fixed rfl
    have hmembers := Phrase.intercalate (closed_separator combinator)
      (startsApart_separator combinator)
      fun c hc => ih c hc fun x hx => h x (mem_conditionsOf hc hx)
    rw [sql, tokens, sqls_eq_map, tokensOf_eq_map]
    exact ((hopen.appendPhrase hmembers).appendClosed rfl hclose).phrase

/-- The tokens of a filter. -/
def Where.tokens (o : Options) (w : Where) : List Token :=
  (separatorTokens w.combinator).intercalate (Clause.tokensOf o w.clauses)

/-- Whether all numbers of a filter are written as their literals. -/
def Where.IsPlain (w : Where) : Prop := ∀ x ∈ Clause.conditionsOf w.clauses, x.IsPlain

theorem Where.phrase {o : Options} (ho : o.fault? = none) {w : Where} (h : w.IsPlain) :
    Phrase (w.sql o) (w.tokens o) := by
  rw [sql, tokens, Clause.sqls_eq_map, Clause.tokensOf_eq_map]
  exact .intercalate (closed_separator _) (startsApart_separator _) fun c hc =>
    Clause.phrase ho fun x hx => h x (Clause.mem_conditionsOf hc hx)

/-! ## Statements -/

/-- The tokens of a shown column. -/
def OutputColumn.tokens (o : Options) (c : OutputColumn) : List Token :=
  c.column.tokens o ++ [.word "AS", .name c.output]

/-- The tokens of all columns of a table. -/
def Source.allTokens (o : Options) (s : Source) : List Token :=
  [.word (s.name o), .punct '.', .punct '*']

/-- The tokens of the projection of a statement with so many joins. -/
def Projection.tokens (o : Options) (joinCount : Nat) : Projection → List Token
  | .everything =>
    [Token.punct ','].intercalate
      ((Source.primary :: (List.range joinCount).map .join).map (Source.allTokens o))
  | .columns list => [Token.punct ','].intercalate (list.map (OutputColumn.tokens o))

/-- The tokens of the join at a position. -/
def joinTokens (o : Options) (position : Nat) (j : Join) : List Token :=
  [.word j.type.keyword, .word "JOIN", .name j.targetTable, .word "AS", .word (joinAlias position),
    .word "ON"] ++ ColumnRef.tokens o ⟨.primary, j.sourceColumn⟩ ++ [.punct '='] ++
    ColumnRef.tokens o ⟨.join position, j.targetColumn⟩

namespace Select

/-- The tokens of a statement up to its condition. -/
def headTokens (o : Options) (s : Select) : List Token :=
  .word "SELECT" :: s.projection.tokens o s.joins.length ++
    [.word "FROM", .name s.table, .word "AS", .word o.primaryAlias] ++
    (s.joins.zipIdx.map fun (j, position) => joinTokens o position j).flatten

/-- The tokens of a statement. -/
def tokens (o : Options) (s : Select) : List Token :=
  if s.condition.clauses.isEmpty then s.headTokens o
  else s.headTokens o ++ [.word "WHERE"] ++ s.condition.tokens o

end Select

section Statements

variable {o : Options} (ho : o.fault? = none)
include ho

theorem OutputColumn.phrase (c : OutputColumn) : Phrase (c.sql o) (c.tokens o) := by
  have has : Closed " AS " [.word "AS"] := .fixed rfl
  have h := ((c.column.phrase ho).appendClosed rfl has).appendPhrase (.name c.output)
  simpa [sql, tokens] using h

theorem phrase_all (s : Source) : Phrase (s.name o ++ ".*") (s.allTokens o) := by
  intro rest _
  have hstar : Reads ".*" [.punct '.', .punct '*'] rest := reads_fixed rfl _
  refine Reads.append (reads_word (isWord_name ho s) fun c hc => ?_) hstar
  cases hc
  rfl

theorem Projection.phrase (joinCount : Nat) (p : Projection) :
    Phrase (p.sql o joinCount) (p.tokens o joinCount) := by
  have hcomma : Closed ", " [.punct ','] := .fixed rfl
  cases p with
  | everything => exact .intercalate hcomma rfl fun s _ => phrase_all ho s
  | columns list => exact .intercalate hcomma rfl fun c _ => c.phrase ho

omit ho in
theorem startsApart_join (position : Nat) (j : Join) :
    startsApart (joinSql o position j) = true := by
  simp only [joinSql, String.append_assoc]
  exact startsApart_append rfl _

theorem phrase_join (position : Nat) (j : Join) :
    Phrase (joinSql o position j) (joinTokens o position j) := by
  have htype : Closed (" " ++ j.type.keyword ++ " JOIN ") [.word j.type.keyword, .word "JOIN"] := by
    cases j.type <;> exact .fixed rfl
  have has : Closed " AS " [.word "AS"] := .fixed rfl
  have hon : Closed " ON " [.word "ON"] := .fixed rfl
  have hequal : Closed " = " [.punct '='] := .fixed rfl
  have htable := (htype.appendPhrase (.name j.targetTable)).appendClosed rfl has
  have halias := (htable.appendPhrase (.word (isWord_joinAlias position))).appendClosed rfl hon
  have hsource :=
    (halias.appendPhrase (ColumnRef.phrase ho ⟨.primary, j.sourceColumn⟩)).appendClosed rfl hequal
  have htarget := hsource.appendPhrase (ColumnRef.phrase ho ⟨.join position, j.targetColumn⟩)
  simpa [joinSql, joinTokens, String.append_assoc] using htarget

theorem Select.phrase_head (s : Select) : Phrase (s.headSql o) (s.headTokens o) := by
  have hselect : Closed "SELECT " [.word "SELECT"] := .fixed rfl
  have hfrom : Closed " FROM " [.word "FROM"] := .fixed rfl
  have has : Closed " AS " [.word "AS"] := .fixed rfl
  have hshown :=
    (hselect.appendPhrase (s.projection.phrase ho s.joins.length)).appendClosed rfl hfrom
  have htable := (hshown.appendPhrase (.name s.table)).appendClosed rfl has
  have halias := htable.appendPhrase (.word (isWord_primaryAlias ho))
  have hjoins : ∀ x ∈ s.joins.zipIdx, Phrase (joinSql o x.2 x.1) (joinTokens o x.2 x.1) :=
    fun x _ => phrase_join ho x.2 x.1
  have hstart : ∀ x ∈ s.joins.zipIdx, startsApart (joinSql o x.2 x.1) = true :=
    fun x _ => startsApart_join x.2 x.1
  have hall := halias.appendJoin hstart hjoins
  have htokens : s.headTokens o = .word "SELECT" :: s.projection.tokens o s.joins.length ++
      [.word "FROM", .name s.table, .word "AS", .word o.primaryAlias] ++
      (s.joins.zipIdx.map fun x => joinTokens o x.2 x.1).flatten := rfl
  rw [htokens]
  simp only [List.cons_append, List.nil_append, List.append_assoc] at hall ⊢
  exact hall

/-- A statement is read as its tokens. -/
theorem Select.phrase {s : Select} (h : s.condition.IsPlain) : Phrase (s.sql o) (s.tokens o) := by
  unfold sql tokens
  split
  · exact s.phrase_head ho
  · have hwhere : Closed " WHERE " [.word "WHERE"] := .fixed rfl
    exact ((s.phrase_head ho).appendClosed rfl hwhere).appendPhrase (s.condition.phrase ho h)

end Statements

end FilterSelect.Sql
