import FilterSelect.Proofs.Filter.Tables

/-!
# Nothing of a request is read as SQL

The tokens of a statement are of two kinds. Its data are the names, texts and numbers of the
request, each of them one token that holds it as it is. All other tokens are those of the request's
outline, in which no text of the request occurs: operators, combinators, join types, aliases, and
what kind of thing each value is. So no name and no value can add a token, take one away, or start
a comment.

* `Request.data`: the names, texts and numbers of a request, in the order of its statement.
* `Request.outline`: the request without them.
* `Shows`: tokens have given data and are otherwise those of an outline.
* `Compiler.compile_shows_request`: the tokens of the text of a statement show its request.
-/

namespace FilterSelect

open Sql (Token ColumnRef Condition Clause Operand Source)

/-! ## Data -/

/-- Whether the token holds a name, a text or a number. -/
def Sql.Token.isDatum : Token → Bool
  | .name _ | .text _ | .number _ => true
  | .word _ | .comment | .punct _ => false

/-- The token without what it holds. -/
def Sql.Token.masked : Token → Token
  | .name _ => .name ""
  | .text _ => .text ""
  | .number _ => .number ""
  | t => t

/-- A number literal without its sign. -/
def magnitude (numeral : String) : String :=
  match numeral.toList with
  | '-' :: cs => String.ofList cs
  | cs => String.ofList cs

/-- What a value is compared as: nothing for null, or its number, or its text. -/
def Value.data (v : Value) : List Token :=
  if v.isNull then []
  else match v.numeral? with
    | some numeral => [.number (magnitude numeral)]
    | none => [.text v.toText]

/-- The same for an ordering, where null is a text. -/
def Value.orderingData (v : Value) : List Token :=
  match v.numeral? with
  | some numeral => [.number (magnitude numeral)]
  | none => [.text v.toText]

/-- The values that a membership lists. -/
def Value.members : Value → List Value
  | .list members => members
  | v => [v]

/-- The name and the values of a rule. A membership in an empty list has neither: it asks for
`1=0`. -/
def Rule.data (r : Rule) : List Token :=
  let v := r.operand
  let name := Token.name (Field.ofText r.field).column
  match r.operator.getD .other with
  | .isNull | .isNotNull => [name]
  | .contains => [name, .text ("%" ++ v.toText ++ "%")]
  | .beginsWith => [name, .text (v.toText ++ "%")]
  | .endsWith => [name, .text ("%" ++ v.toText)]
  | .less | .greater | .atMost | .atLeast => name :: v.orderingData
  | .equal | .notEqual | .other => name :: v.data
  | .isIn =>
    if v.members.isEmpty then [.number "1", .number "0"]
    else name :: v.members.flatMap Value.data

/-- The names of a selected column. -/
def SelectedColumn.data (c : SelectedColumn) : List Token :=
  [.name c.column, .name c.shownAs]

/-- The names of a join. -/
def Join.data (j : Join) : List Token :=
  [.name j.targetTable, .name j.sourceColumn, .name j.targetColumn]

/-- The names, texts and numbers of a request, in the order of its statement. -/
def Request.data (r : Request) : List Token :=
  r.columns.flatMap SelectedColumn.data ++ [.name r.table] ++ r.joins.flatMap Join.data ++
    r.filter.completeRules.flatMap Rule.data

/-! ## Outlines -/

/-- What kind of thing a value is. -/
inductive Kind
  | null
  /-- It counts as a number. -/
  | number (negative : Bool)
  | text
  /-- A truth value, a list or a number that is not finite: it is shown as a text. -/
  | shown
  deriving DecidableEq, Repr

/-- The kind of a value. -/
def Value.kind (v : Value) : Kind :=
  if v.isNull then .null
  else match v.numeral?, v with
    | some numeral, _ => .number (numeral.toList.head? == some '-')
    | none, .text _ => .text
    | none, _ => .shown

/-- A rule without its name and values. -/
structure RuleOutline where
  source : Source
  operator : Operator
  kind : Kind
  /-- The kinds of the values that a membership lists. -/
  members : List Kind
  deriving DecidableEq, Repr

/-- A complete rule, or a group of contributing members. -/
inductive FilterOutline
  | rule (x : RuleOutline)
  | group (combinator : Combinator) (members : List FilterOutline)

/-- A request without its names and values. -/
structure Outline where
  /-- The tables of the shown columns; none when all columns are shown. -/
  shown : Option (List Source)
  joins : List JoinType
  combinator : Combinator
  members : List FilterOutline

/-- The outline of a rule. -/
def Rule.outline (s : Scope) (r : Rule) : RuleOutline :=
  ⟨s.fieldTable r.field, r.operator.getD .other, r.operand.kind, r.operand.members.map Value.kind⟩

/-- The group of the given members; nothing when there are none. -/
def FilterOutline.ofMembers? (combinator : Combinator) : List FilterOutline → Option FilterOutline
  | [] => none
  | x :: xs => some (.group combinator (x :: xs))

namespace Node

mutual

/-- The outline of a member, if it contributes. -/
def outline? (s : Scope) : Node → Option FilterOutline
  | .rule r => if r.isComplete then some (.rule (r.outline s)) else none
  | .group combinator members => FilterOutline.ofMembers? combinator (outlines s members)

/-- The outlines of the members that contribute, in order. -/
def outlines (s : Scope) : List Node → List FilterOutline
  | [] => []
  | n :: ns => (n.outline? s).toList ++ outlines s ns

end

end Node

/-- The outline of a request. -/
def Request.outline (r : Request) : Outline where
  shown :=
    if r.columns.isEmpty then none
    else some (r.columns.map fun c => r.scope.tableOf c.table)
  joins := r.joins.map Join.type
  combinator := r.filter.combinator
  members := Node.outlines r.scope r.filter.members

/-! ## Statements of outlines -/

/-- Whether the value counts as a number. -/
def Kind.isNumber : Kind → Bool
  | .number _ => true
  | _ => false

/-- An operand of the kind, for an equality or a membership. -/
def Kind.operand (normalize : Bool) : Kind → Operand
  | .null => .null
  | .number negative => .number (if negative then "-" else "")
  | .text => if normalize then .normalizedText "" else .text ""
  | .shown => .text ""

/-- An operand of the kind, for an ordering. -/
def Kind.orderingOperand (k : Kind) : Operand :=
  if k.isNumber then k.operand false else .text ""

/-- The condition of a rule's outline. -/
def RuleOutline.condition (x : RuleOutline) : Condition :=
  let column : ColumnRef := ⟨x.source, ""⟩
  let normalize := !x.kind.isNumber
  match x.operator with
  | .equal | .other => .compare ⟨column, normalize⟩ .equal (x.kind.operand normalize)
  | .notEqual => .compare ⟨column, normalize⟩ .notEqual (x.kind.operand normalize)
  | .less => .compare ⟨column, false⟩ .less x.kind.orderingOperand
  | .greater => .compare ⟨column, false⟩ .greater x.kind.orderingOperand
  | .atMost => .compare ⟨column, false⟩ .atMost x.kind.orderingOperand
  | .atLeast => .compare ⟨column, false⟩ .atLeast x.kind.orderingOperand
  | .contains | .beginsWith | .endsWith => .isLike column ""
  | .isNull => .isNull column
  | .isNotNull => .isNotNull column
  | .isIn =>
    if x.members.isEmpty then .never
    else
      let normalize := !x.members.all Kind.isNumber
      .isIn ⟨column, normalize⟩ (x.members.map (Kind.operand normalize))

namespace FilterOutline

mutual

/-- The clause of an outline. -/
def clause : FilterOutline → Clause
  | .rule x => .condition x.condition
  | .group combinator members => .group combinator (clauses members)

/-- The clauses of the members of a group. -/
def clauses : List FilterOutline → List Clause
  | [] => []
  | x :: xs => x.clause :: clauses xs

end

end FilterOutline

/-- The statement of an outline, in which all names, texts and numbers are empty. -/
def Outline.statement (x : Outline) : Sql.Select where
  projection :=
    match x.shown with
    | none => .everything
    | some tables => .columns (tables.map fun s => ⟨⟨s, ""⟩, ""⟩)
  table := ""
  joins := x.joins.map fun t => ⟨t, "", "", ""⟩
  condition := ⟨x.combinator, FilterOutline.clauses x.members⟩

/-! ## Tokens that show an outline with its data -/

/-- The tokens hold the data, and what they hold apart they are the tokens `us`; none of them is a
comment. -/
structure Shows (ts data us : List Token) : Prop where
  data : ts.filter Token.isDatum = data
  masked : ts.map Token.masked = us.map Token.masked
  noComment : Token.comment ∉ ts

namespace Shows

variable {ts ts' ds ds' us us' : List Token}

theorem append (h : Shows ts ds us) (h' : Shows ts' ds' us') :
    Shows (ts ++ ts') (ds ++ ds') (us ++ us') where
  data := by rw [List.filter_append, h.data, h'.data]
  masked := by rw [List.map_append, List.map_append, h.masked, h'.masked]
  noComment := by simp [h.noComment, h'.noComment]

/-- Words and punctuation show no data. -/
theorem plain (h : ∀ t ∈ ts, t.isDatum = false ∧ t ≠ .comment) : Shows ts [] ts where
  data := List.filter_eq_nil_iff.mpr fun t ht => by simp [(h t ht).1]
  masked := rfl
  noComment := fun hc => (h _ hc).2 rfl

theorem punct (c : Char) : Shows [.punct c] [] [.punct c] := .plain (by simp [Token.isDatum])

end Shows

/-- Lists of tokens that show outlines, one by one. -/
inductive ShowsAll : List (List Token) → List Token → List (List Token) → Prop
  | nil : ShowsAll [] [] []
  | cons {ts ds us : List Token} {tss : List (List Token)} {dss : List Token}
      {uss : List (List Token)} (h : Shows ts ds us) (h' : ShowsAll tss dss uss) :
      ShowsAll (ts :: tss) (ds ++ dss) (us :: uss)

namespace ShowsAll

theorem singleton {ts ds us : List Token} (h : Shows ts ds us) : ShowsAll [ts] ds [us] := by
  simpa using ShowsAll.cons h .nil

theorem append {tss tss' uss uss' : List (List Token)} {ds ds' : List Token}
    (h : ShowsAll tss ds uss) (h' : ShowsAll tss' ds' uss') :
    ShowsAll (tss ++ tss') (ds ++ ds') (uss ++ uss') := by
  induction h with
  | nil => exact h'
  | cons hx _ ih =>
    rw [List.append_assoc]
    exact .cons hx ih

theorem map {α : Type} {f g : α → List Token} {d : α → List Token} {xs : List α}
    (h : ∀ x ∈ xs, Shows (f x) (d x) (g x)) : ShowsAll (xs.map f) (xs.flatMap d) (xs.map g) := by
  induction xs with
  | nil => exact .nil
  | cons x xs ih =>
    exact .cons (h x List.mem_cons_self) (ih fun y hy => h y (List.mem_cons_of_mem x hy))

theorem data_eq_nil {ds : List Token} {uss : List (List Token)} (h : ShowsAll [] ds uss) :
    ds = [] := by
  cases h
  rfl

theorem length_eq {tss uss : List (List Token)} {ds : List Token} (h : ShowsAll tss ds uss) :
    tss.length = uss.length := by
  induction h with
  | nil => rfl
  | cons _ _ ih => rw [List.length_cons, List.length_cons, ih]

theorem flatten {tss uss : List (List Token)} {ds : List Token} (h : ShowsAll tss ds uss) :
    Shows tss.flatten ds uss.flatten := by
  induction h with
  | nil => exact .plain (by simp)
  | cons hx _ ih => exact hx.append ih

theorem intercalate {tss uss : List (List Token)} {ds sep : List Token} (hsep : Shows sep [] sep)
    (h : ShowsAll tss ds uss) : Shows (sep.intercalate tss) ds (sep.intercalate uss) := by
  induction h with
  | nil => exact .plain (by simp)
  | cons hx hxs ih =>
    cases hxs with
    | nil => simpa using hx
    | cons hy hys =>
      rw [List.intercalate_cons_cons, List.intercalate_cons_cons]
      have := (hx.append hsep).append ih
      rwa [List.append_nil] at this

end ShowsAll

/-! ## Parts of a statement -/

section Parts

variable (o : Options)

theorem shows_path (path : String) :
    Shows (Sql.pathTokens path) [] (Sql.pathTokens path) := by
  have hpart (part : List Char) :
      Shows [.word (String.ofList part)] [] [.word (String.ofList part)] :=
    .plain (by simp [Token.isDatum])
  have hall := ShowsAll.map fun part (_ : part ∈ path.toList.splitOn '.') => hpart part
  rw [List.flatMap_eq_nil_iff.mpr fun _ _ => rfl] at hall
  exact hall.intercalate (.punct '.')

theorem shows_column (c : ColumnRef) :
    Shows (c.tokens o) [.name c.column] (ColumnRef.tokens o ⟨c.source, ""⟩) :=
  ⟨rfl, rfl, by simp [ColumnRef.tokens]⟩

theorem Shows.normalized {ts ds us : List Token} (h : Shows ts ds us) :
    Shows (Sql.normalizedTokens o ts) ds (Sql.normalizedTokens o us) := by
  have hopen : Shows [.punct '(', .word "lower", .punct '('] []
      [.punct '(', .word "lower", .punct '('] := .plain (by simp [Token.isDatum])
  have hclose : Shows [.punct ')', .punct ')'] [] [.punct ')', .punct ')'] :=
    .plain (by simp [Token.isDatum])
  simpa [Sql.normalizedTokens] using
    (((shows_path o.normalizer).append hopen).append h).append hclose

theorem shows_subject (c : ColumnRef) (normalize : Bool) :
    Shows (Sql.Subject.tokens o ⟨c, normalize⟩) [.name c.column]
      (Sql.Subject.tokens o ⟨⟨c.source, ""⟩, normalize⟩) := by
  cases normalize with
  | false => exact shows_column o c
  | true =>
    have hcast : Shows [.word "CAST", .punct '('] [] [.word "CAST", .punct '('] :=
      .plain (by simp [Token.isDatum])
    have htype : Shows [.word "AS", .word "TEXT", .punct ')'] []
        [.word "AS", .word "TEXT", .punct ')'] := .plain (by simp [Token.isDatum])
    exact ((hcast.append (shows_column o c)).append htype).normalized o

theorem shows_text (s : String) : Shows [.text s] [.text s] [.text ""] := ⟨rfl, rfl, by simp⟩

theorem shows_number (numeral : String) :
    Shows (Sql.numberTokens numeral) [.number (magnitude numeral)]
      (Sql.numberTokens (if numeral.toList.head? == some '-' then "-" else "")) := by
  by_cases h : numeral.toList.head? = some '-'
  · obtain ⟨cs, hcs⟩ := List.head?_eq_some_iff.mp h
    have htokens : Sql.numberTokens numeral = [.punct '-', .number (String.ofList cs)] := by
      rw [Sql.numberTokens, hcs]; rfl
    have hmagnitude : magnitude numeral = String.ofList cs := by rw [magnitude, hcs]; rfl
    rw [htokens, hmagnitude, if_pos (by simpa using h)]
    exact ⟨rfl, rfl, by simp⟩
  · have hcs : ∀ cs, numeral.toList ≠ '-' :: cs := fun cs hcs => h (by rw [hcs]; rfl)
    have htokens : Sql.numberTokens numeral = [.number (String.ofList numeral.toList)] := by
      unfold Sql.numberTokens
      split
      · exact absurd ‹_› (hcs _)
      · rfl
    have hmagnitude : magnitude numeral = String.ofList numeral.toList := by
      unfold magnitude
      split
      · exact absurd ‹_› (hcs _)
      · rfl
    rw [htokens, hmagnitude, if_neg (by simpa using h)]
    exact ⟨rfl, rfl, by simp⟩

end Parts

/-! ## Values -/

namespace Value

theorem isNull_of_numeral? {v : Value} {numeral : String} (h : v.numeral? = some numeral) :
    v.isNull = false := by
  cases v with
  | null => cases h
  | _ => rfl

theorem operand_of_numeral? {v : Value} {numeral : String} (h : v.numeral? = some numeral)
    (normalize : Bool) : v.operand normalize = .number numeral := by
  cases v with
  | null => cases h
  | _ => simp [operand, h]

theorem kind_of_numeral? {v : Value} {numeral : String} (h : v.numeral? = some numeral) :
    v.kind = .number (numeral.toList.head? == some '-') := by
  simp [kind, isNull_of_numeral? h, h]

theorem isNumber_kind (v : Value) : v.kind.isNumber = v.isNumeric := by
  unfold isNumeric
  cases h : v.numeral? with
  | some numeral => rw [kind_of_numeral? h]; rfl
  | none => cases v <;> simp [kind, isNull, h, Kind.isNumber]

theorem shows_operand (o : Options) (normalize : Bool) (v : Value) :
    Shows ((v.operand normalize).tokens o) v.data ((v.kind.operand normalize).tokens o) := by
  cases h : v.numeral? with
  | some numeral =>
    have hdata : v.data = [.number (magnitude numeral)] := by
      simp [data, isNull_of_numeral? h, h]
    rw [operand_of_numeral? h, kind_of_numeral? h, hdata]
    exact shows_number numeral
  | none =>
    cases v with
    | null => exact .plain (by simp [Operand.tokens, operand, Token.isDatum])
    | text s =>
      simp only [operand, data, kind, h, isNull, toText, Bool.false_eq_true, if_false]
      cases normalize with
      | false => exact shows_text s
      | true => exact (shows_text s).normalized o
    | _ =>
      simp only [operand, data, kind, h, isNull, Bool.false_eq_true, if_false]
      exact shows_text _

theorem shows_orderingOperand (o : Options) (v : Value) :
    Shows (v.orderingOperand.tokens o) v.orderingData (v.kind.orderingOperand.tokens o) := by
  unfold orderingOperand orderingData Kind.orderingOperand
  rw [isNumber_kind]
  unfold isNumeric
  cases h : v.numeral? with
  | some numeral =>
    rw [kind_of_numeral? h]
    exact shows_number numeral
  | none => exact shows_text _

theorem shows_members (o : Options) (normalize : Bool) (vs : List Value) :
    Shows ([Token.punct ','].intercalate ((vs.map (operand normalize)).map (Operand.tokens o)))
      (vs.flatMap data)
      ([Token.punct ','].intercalate
        (((vs.map kind).map (Kind.operand normalize)).map (Operand.tokens o))) := by
  have hall := ShowsAll.map fun v (_ : v ∈ vs) => v.shows_operand o normalize
  simpa [List.map_map, Function.comp_def] using hall.intercalate (.punct ',')

end Value

/-! ## Rules and filters -/

section Filters

variable (o : Options)

theorem shows_compare (c : ColumnRef) (normalize : Bool) (comparison : Sql.Comparison)
    {x y : Operand} {ds : List Token} (h : Shows (x.tokens o) ds (y.tokens o)) :
    Shows (Condition.tokens o (.compare ⟨c, normalize⟩ comparison x)) (.name c.column :: ds)
      (Condition.tokens o (.compare ⟨⟨c.source, ""⟩, normalize⟩ comparison y)) := by
  have hsign : Shows comparison.tokens [] comparison.tokens :=
    .plain (by cases comparison <;> decide)
  have hleft := (shows_subject o c normalize).append hsign
  exact hleft.append h

theorem shows_isIn (c : ColumnRef) (normalize : Bool) (vs : List Value) :
    Shows (Condition.tokens o (.isIn ⟨c, normalize⟩ (vs.map (Value.operand normalize))))
      (.name c.column :: vs.flatMap Value.data)
      (Condition.tokens o (.isIn ⟨⟨c.source, ""⟩, normalize⟩
        ((vs.map Value.kind).map (Kind.operand normalize)))) := by
  have hin : Shows [.word "IN", .punct '('] [] [.word "IN", .punct '('] :=
    .plain (by simp [Token.isDatum])
  have hleft := (shows_subject o c normalize).append hin
  simpa [Condition.tokens] using
    (hleft.append (Value.shows_members o normalize vs)).append (.punct ')')

theorem shows_isLike (c : ColumnRef) (pattern : String) :
    Shows (Condition.tokens o (.isLike c pattern)) [.name c.column, .text pattern]
      (Condition.tokens o (.isLike ⟨c.source, ""⟩ "")) := by
  have hlike : Shows [.word "LIKE"] [] [.word "LIKE"] := .plain (by simp [Token.isDatum])
  have hpattern := (shows_text pattern).normalized o
  exact ((shows_subject o c true).append hlike).append hpattern

theorem shows_isNull (c : ColumnRef) :
    Shows (Condition.tokens o (.isNull c)) [.name c.column]
      (Condition.tokens o (.isNull ⟨c.source, ""⟩)) :=
  ⟨rfl, rfl, by simp [Condition.tokens, ColumnRef.tokens]⟩

theorem shows_isNotNull (c : ColumnRef) :
    Shows (Condition.tokens o (.isNotNull c)) [.name c.column]
      (Condition.tokens o (.isNotNull ⟨c.source, ""⟩)) :=
  ⟨rfl, rfl, by simp [Condition.tokens, ColumnRef.tokens]⟩

theorem all_isNumber_kind (vs : List Value) :
    (vs.map Value.kind).all Kind.isNumber = vs.all Value.isNumeric := by
  simp [List.all_map, Function.comp_def, Value.isNumber_kind]

/-- A membership in a single value. -/
theorem shows_isIn_single (c : ColumnRef) {v : Value} (hv : v.members = [v])
    (hc : Operator.isIn.condition c v =
      .isIn ⟨c, !v.isNumeric⟩ [v.operand (!v.isNumeric)]) :
    Shows (Condition.tokens o (Operator.isIn.condition c v))
      (if v.members.isEmpty then [.number "1", .number "0"]
        else .name c.column :: v.members.flatMap Value.data)
      (Condition.tokens o (RuleOutline.condition
        ⟨c.source, .isIn, v.kind, v.members.map Value.kind⟩)) := by
  have hall := shows_isIn o c (!List.all [v] Value.isNumeric) [v]
  unfold RuleOutline.condition
  simp only [hv, hc, all_isNumber_kind]
  simpa using hall

/-- A membership lists the members of its value, if there are any. -/
theorem shows_membership (c : ColumnRef) (v : Value) :
    Shows (Condition.tokens o (Operator.isIn.condition c v))
      (if v.members.isEmpty then [.number "1", .number "0"]
        else .name c.column :: v.members.flatMap Value.data)
      (Condition.tokens o (RuleOutline.condition
        ⟨c.source, .isIn, v.kind, v.members.map Value.kind⟩)) := by
  cases v with
  | list members =>
    cases members with
    | nil => exact ⟨rfl, rfl, by simp [Operator.condition, Condition.tokens]⟩
    | cons v vs =>
      have hall := shows_isIn o c (!(v :: vs).all Value.isNumeric) (v :: vs)
      unfold RuleOutline.condition
      simp only [Value.members, all_isNumber_kind]
      exact hall
  | null => exact shows_isIn_single o c rfl rfl
  | bool => exact shows_isIn_single o c rfl rfl
  | int => exact shows_isIn_single o c rfl rfl
  | float => exact shows_isIn_single o c rfl rfl
  | text => exact shows_isIn_single o c rfl rfl

/-- The condition of a rule shows the rule, case by case of what it asks. -/
theorem Rule.shows_condition {s : Scope} {r : Rule} {c : Condition} (h : r.condition s = .ok c) :
    Shows (c.tokens o) r.data ((r.outline s).condition.tokens o) := by
  obtain ⟨column, hcolumn, h⟩ := bind_eq_ok_iff.mp h
  cases h
  cases Scope.column_eq_ok hcolumn
  have hequal := Value.shows_operand o (!r.operand.isNumeric) r.operand
  have hordered := Value.shows_orderingOperand o r.operand
  unfold data outline RuleOutline.condition Operator.condition
  simp only [Value.isNumber_kind]
  cases r.operator.getD .other with
  | equal | other => exact shows_compare o _ _ _ hequal
  | notEqual => exact shows_compare o _ _ _ hequal
  | less | greater | atMost | atLeast => exact shows_compare o _ _ _ hordered
  | contains | beginsWith | endsWith => exact shows_isLike o _ _
  | isNull => exact shows_isNull o _
  | isNotNull => exact shows_isNotNull o _
  | isIn => exact shows_membership o _ _

namespace FilterOutline

theorem clauses_append (xs ys : List FilterOutline) :
    clauses (xs ++ ys) = clauses xs ++ clauses ys := by
  induction xs with
  | nil => rfl
  | cons x xs ih => rw [List.cons_append, clauses, ih]; rfl

end FilterOutline

theorem shows_separator (c : Combinator) :
    Shows (Sql.separatorTokens c) [] (Sql.separatorTokens c) :=
  .plain (by cases c <;> decide)

/-- A group shows its outline when its members do, one by one. -/
theorem shows_ofMembers? (combinator : Combinator) {cs : List Clause} {xs : List FilterOutline}
    {ds : List Token}
    (h : ShowsAll (Clause.tokensOf o cs) ds (Clause.tokensOf o (FilterOutline.clauses xs))) :
    ShowsAll (Clause.tokensOf o (Clause.ofMembers? combinator cs).toList) ds
      (Clause.tokensOf o
        (FilterOutline.clauses (FilterOutline.ofMembers? combinator xs).toList)) := by
  cases cs with
  | nil =>
    cases xs with
    | nil => exact h
    | cons => cases h
  | cons c cs =>
    cases xs with
    | nil => cases h
    | cons x xs =>
      have hmembers := h.intercalate (shows_separator combinator)
      have hall := ((Shows.punct '(').append hmembers).append (.punct ')')
      rw [List.append_nil] at hall
      exact .singleton hall

/-- The clauses of members show the members, if the clause of each member does. -/
theorem shows_clauses_of_forall {s : Scope} {ns : List Node}
    (h : ∀ n ∈ ns, ∀ c, n.clause? s = .ok c → ShowsAll (Clause.tokensOf o c.toList)
      (n.completeRules.flatMap Rule.data)
      (Clause.tokensOf o (FilterOutline.clauses (n.outline? s).toList)))
    {cs : List Clause} (hcs : Node.clauses s ns = .ok cs) :
    ShowsAll (Clause.tokensOf o cs) ((Node.completeRulesOf ns).flatMap Rule.data)
      (Clause.tokensOf o (FilterOutline.clauses (Node.outlines s ns))) := by
  induction ns generalizing cs with
  | nil =>
    cases hcs
    exact .nil
  | cons n ns ih =>
    obtain ⟨c, ds, hc, hds, rfl⟩ := Node.clauses_cons_eq_ok_iff.mp hcs
    have hn := h n List.mem_cons_self c hc
    have ih := ih (fun m hm => h m (List.mem_cons_of_mem n hm)) hds
    rw [Node.outlines, Node.completeRulesOf, FilterOutline.clauses_append, List.flatMap_append]
    simp only [Clause.tokensOf_eq_map, List.map_append] at hn ih ⊢
    exact hn.append ih

theorem Node.shows_clause? {s : Scope} (n : Node) : ∀ c, n.clause? s = .ok c →
    ShowsAll (Clause.tokensOf o c.toList) (n.completeRules.flatMap Rule.data)
      (Clause.tokensOf o (FilterOutline.clauses (n.outline? s).toList)) := by
  induction n using Node.ind with
  | rule r =>
    intro c hc
    rw [clause?_rule] at hc
    rw [outline?, completeRules]
    split at hc
    · rename_i hr
      obtain ⟨x, hx, rfl⟩ := map_eq_ok_iff.mp hc
      simp only [hr, if_true, List.flatMap_singleton]
      exact .singleton (r.shows_condition o hx)
    · rename_i hr
      cases hc
      simp only [hr]
      exact .nil
  | group combinator members ih =>
    intro c hc
    rw [clause?_group] at hc
    obtain ⟨cs, hcs, rfl⟩ := map_eq_ok_iff.mp hc
    rw [outline?, completeRules]
    exact shows_ofMembers? o combinator (shows_clauses_of_forall o ih hcs)

/-- The clauses of a filter show the filter. -/
theorem Group.shows_clauses {s : Scope} {g : Group} {w : Sql.Where} (h : g.condition s = .ok w) :
    w.combinator = g.combinator ∧
      ShowsAll (Clause.tokensOf o w.clauses) (g.completeRules.flatMap Rule.data)
        (Clause.tokensOf o (FilterOutline.clauses (Node.outlines s g.members))) := by
  obtain ⟨cs, hcs, h⟩ := bind_eq_ok_iff.mp h
  cases h
  exact ⟨rfl, shows_clauses_of_forall o (fun n _ => n.shows_clause? o) hcs⟩

end Filters

/-! ## Statements -/

section Statements

variable (o : Options)

theorem shows_projection (r : Request) :
    Shows (r.shown.tokens o r.joins.length) (r.columns.flatMap SelectedColumn.data)
      (r.outline.statement.projection.tokens o r.joins.length) := by
  unfold Request.shown Outline.statement Request.outline
  by_cases hc : r.columns.isEmpty = true
  · simp only [hc, if_true]
    have hsource (s : Source) : Shows (s.allTokens o) [] (s.allTokens o) :=
      .plain (by simp [Source.allTokens, Token.isDatum])
    have hall := ShowsAll.map
      fun s (_ : s ∈ Source.primary :: (List.range r.joins.length).map .join) => hsource s
    rw [List.flatMap_eq_nil_iff.mpr fun _ _ => rfl] at hall
    rw [List.isEmpty_iff.mp hc]
    exact hall.intercalate (.punct ',')
  · simp only [hc]
    have hshown (c : SelectedColumn) : Shows (Sql.OutputColumn.tokens o (c.shown r.scope)) c.data
        (Sql.OutputColumn.tokens o ⟨⟨r.scope.tableOf c.table, ""⟩, ""⟩) :=
      ⟨rfl, rfl, by simp [Sql.OutputColumn.tokens, ColumnRef.tokens]⟩
    have hall := (ShowsAll.map fun c (_ : c ∈ r.columns) => hshown c).intercalate (.punct ',')
    simpa [Sql.Projection.tokens, List.map_map, Function.comp_def] using hall

theorem shows_join (position : Nat) (j : Join) :
    Shows (Sql.joinTokens o position j) j.data (Sql.joinTokens o position ⟨j.type, "", "", ""⟩) :=
  ⟨rfl, rfl, by simp [Sql.joinTokens, ColumnRef.tokens]⟩

theorem shows_joins (position : Nat) (js : List Join) :
    ShowsAll ((js.zipIdx position).map fun (j, k) => Sql.joinTokens o k j) (js.flatMap Join.data)
      (((js.map fun j : Join => (⟨j.type, "", "", ""⟩ : Join)).zipIdx position).map
        fun (j, k) => Sql.joinTokens o k j) := by
  induction js generalizing position with
  | nil => exact .nil
  | cons j js ih => exact .cons (shows_join o position j) (ih (position + 1))

theorem shows_head {r : Request} {s : Sql.Select} (h : r.select = .ok s) :
    Shows (s.headTokens o)
      (r.columns.flatMap SelectedColumn.data ++ [.name r.table] ++ r.joins.flatMap Join.data)
      (r.outline.statement.headTokens o) := by
  obtain ⟨-, -, hp, -, htable, hjoins⟩ := Request.select_eq_ok_iff.mp h
  have hselect : Shows [.word "SELECT"] [] [.word "SELECT"] := .plain (by simp [Token.isDatum])
  have hfrom : Shows [.word "FROM", .name r.table, .word "AS", .word o.primaryAlias] [.name r.table]
      [.word "FROM", .name "", .word "AS", .word o.primaryAlias] := ⟨rfl, rfl, by simp⟩
  have hshown := hselect.append (shows_projection o r)
  have hall := (hshown.append hfrom).append (shows_joins o 0 r.joins).flatten
  unfold Sql.Select.headTokens
  rw [Request.projection_eq_ok hp, htable, hjoins]
  have hlength : r.outline.statement.joins.length = r.joins.length := by
    simp [Request.outline, Outline.statement]
  have hblank : r.outline.statement.joins =
      r.joins.map fun j : Join => (⟨j.type, "", "", ""⟩ : Join) := by
    simp [Request.outline, Outline.statement]
  rw [hlength, hblank]
  exact hall

/-- The tokens of the statement of a request show the request. -/
theorem shows_select {r : Request} {s : Sql.Select} (h : r.select = .ok s) :
    Shows (s.tokens o) r.data (r.outline.statement.tokens o) := by
  obtain ⟨-, -, -, hw, -, -⟩ := Request.select_eq_ok_iff.mp h
  have hhead := shows_head o h
  obtain ⟨hcombinator, hclauses⟩ := r.filter.shows_clauses o hw
  have hlength := hclauses.length_eq
  rw [Clause.tokensOf_eq_map, Clause.tokensOf_eq_map, List.length_map, List.length_map] at hlength
  have hempty : r.outline.statement.condition.clauses.isEmpty = s.condition.clauses.isEmpty := by
    rw [Bool.eq_iff_iff, List.isEmpty_iff_length_eq_zero, List.isEmpty_iff_length_eq_zero, hlength]
    rfl
  unfold Sql.Select.tokens Request.data
  rw [hempty]
  split
  · rename_i hnil
    rw [List.isEmpty_iff.mp hnil] at hclauses
    rw [hclauses.data_eq_nil, List.append_nil]
    exact hhead
  · have hwhere : Shows [.word "WHERE"] [] [.word "WHERE"] := .plain (by simp [Token.isDatum])
    have hcondition := hclauses.intercalate (shows_separator r.filter.combinator)
    have hall := (hhead.append hwhere).append hcondition
    rw [List.append_nil] at hall
    unfold Sql.Where.tokens
    rw [hcombinator]
    exact hall

end Statements

/-- The text of a statement is read without comments, holds the names, texts and numbers of its
request as they are, one token each, and all its other tokens follow from the outline of the
request and the options. -/
theorem Compiler.compile_shows_request {c : Compiler} {r : Request} {sql : String}
    (h : c.compile r = .ok sql) : ∃ ts, Sql.lex? sql = some ts ∧ Token.comment ∉ ts ∧
      ts.filter Token.isDatum = r.data ∧
      ts.map Token.masked = (r.outline.statement.tokens c.options).map Token.masked := by
  obtain ⟨s, hs, rfl⟩ := map_eq_ok_iff.mp h
  have hw := (Request.select_eq_ok_iff.mp hs).2.2.2.1
  have hread := Sql.Select.phrase c.usable (Group.isPlain_condition hw)
  have hshows := shows_select c.options hs
  exact ⟨_, hread.lex?_eq, hshows.noComment, hshows.data, hshows.masked⟩

/-- A request whose names and values hold quotes, comments and separators. -/
def Request.hostile : Request where
  table := "a\"; --"
  joins := [⟨.left, "t'/*", "*/", "\"\""⟩]
  columns := [⟨"t'/*", "x\" AS \"y", "' OR 1=1"⟩]
  filter := ⟨.or, [.rule ⟨"t'/*.b", some .contains, some (.text "it's \\' --")⟩,
    .group .and [.rule ⟨"n", some .equal, some (.int (-5))⟩, .rule ⟨"", some .equal, none⟩]]⟩

theorem Compiler.compile_shows_hostile :
    ∃ sql ts, Compiler.standard.compile .hostile = .ok sql ∧ Sql.lex? sql = some ts ∧
      Token.comment ∉ ts ∧ ts.filter Token.isDatum = [
        .name "x\" AS \"y", .name "' OR 1=1", .name "a\"; --", .name "t'/*", .name "*/",
        .name "\"\"", .name "b", .text "%it's \\' --%", .name "n", .number "5"] ∧
      ts.map Token.masked =
        (Request.hostile.outline.statement.tokens {}).map Token.masked := by
  have hdata : Request.hostile.data = [
      .name "x\" AS \"y", .name "' OR 1=1", .name "a\"; --", .name "t'/*", .name "*/",
      .name "\"\"", .name "b", .text "%it's \\' --%", .name "n", .number "5"] := by
    decide +kernel
  obtain ⟨ts, h⟩ := compile_shows_request (c := .standard) (r := .hostile) rfl
  exact ⟨_, ts, rfl, hdata ▸ h⟩

end FilterSelect
