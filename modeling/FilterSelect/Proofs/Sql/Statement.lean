import FilterSelect.Proofs.Sql.Phrase

/-!
# The tables of an SQL text

A parser for the outer parts of a statement: what it shows, the table it queries, the tables it
joins, each with its alias and the equation that joins it, and its condition. Within the shown
columns and the condition only references count: a qualifier, a point, and a quoted column or a
star. A dotted function name is none.

* `statement?`: the parts of a list of tokens, if they are a statement.
* `references`: the references in a list of tokens.
* `statement?_tokens`: the parts of the tokens of a statement.
* `HasWhereIff`, `Select.hasWhereIff`: whether the text of a statement has a condition.
* `Refers`: tokens have given references, whatever is behind them.
-/

namespace FilterSelect.Sql

/-! ## The parts of a statement -/

/-- A column as a text names it; none stands for all columns. -/
structure Reference where
  qualifier : String
  column : Option String
  deriving DecidableEq, Repr

/-- The references in a list of tokens, in order. -/
def references : List Token → List Reference
  | .word q :: .punct '.' :: .name column :: rest => ⟨q, some column⟩ :: references rest
  | .word q :: .punct '.' :: .punct '*' :: rest => ⟨q, none⟩ :: references rest
  | _ :: rest => references rest
  | [] => []

/-- A joined table: rows are joined where `left` equals `right`. -/
structure JoinItem where
  type : JoinType
  table : String
  name : String
  left : Reference
  right : Reference
  deriving DecidableEq, Repr

/-- The parts of a statement. -/
structure Statement where
  shown : List Token
  table : String
  name : String
  joins : List JoinItem
  condition : List Token
  deriving DecidableEq, Repr

namespace Statement

/-- The aliases that a statement binds. -/
def names (s : Statement) : List String := s.name :: s.joins.map JoinItem.name

/-- All references of a statement. -/
def references (s : Statement) : List Reference :=
  Sql.references s.shown ++ s.joins.flatMap (fun j => [j.left, j.right]) ++
    Sql.references s.condition

end Statement

/-! ## The parser -/

/-- The joined tables at the front, and what follows. -/
def joinItems? : List Token → Option (List JoinItem × List Token)
  | .word type :: ts =>
    match JoinType.ofName? type with
    | none => some ([], .word type :: ts)
    | some type =>
      match ts with
      | .word join :: .name table :: .word as :: .word name :: .word on ::
          .word p :: .punct '.' :: .name x :: .punct '=' ::
          .word q :: .punct '.' :: .name y :: rest =>
        if join = "JOIN" ∧ as = "AS" ∧ on = "ON" then
          (joinItems? rest).map fun (items, rest) =>
            (⟨type, table, name, ⟨p, some x⟩, ⟨q, some y⟩⟩ :: items, rest)
        else none
      | _ => none
  | rest => some ([], rest)

/-- What follows the name of the queried table. -/
def tables? : List Token → Option (String × String × List JoinItem × List Token)
  | .name table :: .word as :: .word name :: rest =>
    if as = "AS" then (joinItems? rest).map fun (items, rest) => (table, name, items, rest)
    else none
  | _ => none

/-- The parts of a statement. -/
def statement? : List Token → Option Statement
  | .word select :: ts =>
    if select = "SELECT" then
      match tables? (ts.dropWhile (· ≠ .word "FROM")).tail with
      | some (table, name, joins, []) =>
        some ⟨ts.takeWhile (· ≠ .word "FROM"), table, name, joins, []⟩
      | some (table, name, joins, .word w :: condition) =>
        if w = "WHERE" then
          some ⟨ts.takeWhile (· ≠ .word "FROM"), table, name, joins, condition⟩
        else none
      | _ => none
    else none
  | _ => none

/-! ## Parsing statements -/

/-- The reference to a column. -/
def ColumnRef.reference (o : Options) (c : ColumnRef) : Reference :=
  ⟨c.source.name o, some c.column⟩

/-- The join at a position as it is read. -/
def joinItem (o : Options) (position : Nat) (j : Join) : JoinItem :=
  ⟨j.type, j.targetTable, joinAlias position, ColumnRef.reference o ⟨.primary, j.sourceColumn⟩,
    ColumnRef.reference o ⟨.join position, j.targetColumn⟩⟩

theorem joinItems?_join (o : Options) (position : Nat) (j : Join) (rest : List Token) :
    joinItems? (joinTokens o position j ++ rest) =
      (joinItems? rest).map fun (items, rest) => (joinItem o position j :: items, rest) := by
  simp only [joinTokens, ColumnRef.tokens, List.cons_append, List.nil_append]
  rw [joinItems?]
  simp [JoinType.ofName?_keyword, joinItem, ColumnRef.reference]

theorem joinItems?_joins (o : Options) (position : Nat) (js : List Join) {rest : List Token}
    (hr : joinItems? rest = some ([], rest)) :
    joinItems? (((js.zipIdx position).map fun (j, k) => joinTokens o k j).flatten ++ rest) =
      some ((js.zipIdx position).map fun (j, k) => joinItem o k j, rest) := by
  induction js generalizing position with
  | nil => exact hr
  | cons j js ih =>
    rw [List.zipIdx_cons, List.map_cons, List.flatten_cons, List.append_assoc, joinItems?_join, ih]
    rfl

/-- A keyword is no alias; the aliases of the joins begin with a `j`. -/
theorem name_ne_of_isKeyword {o : Options} (ho : o.fault? = none) {w : String}
    (hw : isKeyword w = true) (hj : w.toList.head? ≠ some 'j') (s : Source) : s.name o ≠ w := by
  rintro rfl
  cases s with
  | primary =>
    obtain ⟨-, hnokeyword, -⟩ := primaryAlias_of_fault?_eq_none ho
    rw [Source.name, hnokeyword] at hw
    cases hw
  | join position =>
    refine hj ?_
    rw [Source.name, toList_joinAlias]
    rfl

theorem forall_mem_intercalate {p : Token → Prop} {sep : List Token} {tss : List (List Token)}
    (hsep : ∀ t ∈ sep, p t) (h : ∀ ts ∈ tss, ∀ t ∈ ts, p t) : ∀ t ∈ sep.intercalate tss, p t := by
  induction tss with
  | nil => simp
  | cons ts tss ih =>
    have hts := h ts List.mem_cons_self
    have ih := ih fun us hus => h us (List.mem_cons_of_mem ts hus)
    cases tss with
    | nil => simpa using hts
    | cons us uss =>
      rw [List.intercalate_cons_cons]
      intro t ht
      rcases List.mem_append.mp ht with ht | ht
      · rcases List.mem_append.mp ht with ht | ht
        · exact hts t ht
        · exact hsep t ht
      · exact ih t ht

theorem projection_ne_of_isKeyword {o : Options} (ho : o.fault? = none) {w : String}
    (hw : isKeyword w = true) (hj : w.toList.head? ≠ some 'j') (has : w ≠ "AS") (n : Nat)
    (p : Projection) : ∀ t ∈ p.tokens o n, t ≠ .word w := by
  have hcomma : ∀ t ∈ [Token.punct ','], t ≠ .word w := by simp
  cases p with
  | everything =>
    refine forall_mem_intercalate hcomma fun ts hts t ht => ?_
    obtain ⟨s, -, rfl⟩ := List.mem_map.mp hts
    have hname := name_ne_of_isKeyword ho hw hj s
    simp only [Source.allTokens, List.mem_cons, List.not_mem_nil, or_false] at ht
    rcases ht with rfl | rfl | rfl <;> simp [hname]
  | columns list =>
    refine forall_mem_intercalate hcomma fun ts hts t ht => ?_
    obtain ⟨c, -, rfl⟩ := List.mem_map.mp hts
    have hname := name_ne_of_isKeyword ho hw hj c.column.source
    simp only [OutputColumn.tokens, ColumnRef.tokens, List.cons_append, List.nil_append,
      List.mem_cons, List.not_mem_nil, or_false] at ht
    rcases ht with rfl | rfl | rfl | rfl | rfl <;> simp [hname, has.symm]

/-- The parts of a statement as they are read. -/
def Select.parts (o : Options) (s : Select) : Statement where
  shown := s.projection.tokens o s.joins.length
  table := s.table
  name := o.primaryAlias
  joins := s.joins.zipIdx.map fun (j, k) => joinItem o k j
  condition := s.condition.tokens o

/-- The head of a statement, in front of its condition or of nothing. -/
theorem tables?_head {o : Options} (ho : o.fault? = none) (s : Select) {rest : List Token}
    (hr : joinItems? rest = some ([], rest)) :
    ∃ ts, s.headTokens o ++ rest = .word "SELECT" :: ts ∧
      ts.takeWhile (· ≠ .word "FROM") = s.projection.tokens o s.joins.length ∧
      tables? (ts.dropWhile (· ≠ .word "FROM")).tail =
        some (s.table, o.primaryAlias, s.joins.zipIdx.map fun (j, k) => joinItem o k j, rest) := by
  have hshown : ∀ t ∈ s.projection.tokens o s.joins.length, decide (t ≠ .word "FROM") = true := by
    intro t ht
    simpa using projection_ne_of_isKeyword ho (by decide +kernel) (by decide) (by decide) _ _ t ht
  refine ⟨s.projection.tokens o s.joins.length ++ (.word "FROM" :: .name s.table :: .word "AS" ::
    .word o.primaryAlias :: ((s.joins.zipIdx.map fun (j, k) => joinTokens o k j).flatten ++ rest)),
    ?_, ?_, ?_⟩
  · simp [Select.headTokens]
  · exact takeWhile_append_eq hshown (by simp)
  · rw [dropWhile_append_eq hshown (by simp), List.tail_cons, tables?, joinItems?_joins o 0 _ hr]
    simp

theorem statement?_tokens {o : Options} (ho : o.fault? = none) (s : Select) :
    statement? (s.tokens o) = some (s.parts o) := by
  unfold Select.tokens
  split
  · rename_i hempty
    have hcondition : s.condition.tokens o = [] := by
      rw [Where.tokens, List.isEmpty_iff.mp hempty]
      rfl
    have hnil : joinItems? [] = some ([], []) := rfl
    obtain ⟨ts, hts, hshown, htables⟩ := tables?_head ho s hnil
    rw [List.append_nil] at hts
    rw [hts, statement?, hshown, htables, Select.parts, hcondition]
    simp
  · have hwhere : joinItems? (.word "WHERE" :: s.condition.tokens o) =
        some ([], .word "WHERE" :: s.condition.tokens o) := by
      have hname : JoinType.ofName? "WHERE" = none := by decide +kernel
      simp [joinItems?, hname]
    obtain ⟨ts, hts, hshown, htables⟩ := tables?_head ho s hwhere
    rw [List.append_assoc, List.singleton_append, hts, statement?, hshown, htables, Select.parts]
    simp

/-! ## The condition -/

/-- The text is a statement that has a condition exactly if `p`: then the word `WHERE` stands in it
with something behind it, and else the word does not stand in it. -/
def HasWhereIff (sql : String) (p : Prop) : Prop :=
  ∃ ts s, lex? sql = some ts ∧ statement? ts = some s ∧ (.word "WHERE" ∈ ts ↔ p) ∧
    (s.condition ≠ [] ↔ p)

/-- The word `WHERE` is in the tokens of no other part of a statement. -/
theorem where_notMem_headTokens {o : Options} (ho : o.fault? = none) (s : Select) :
    .word "WHERE" ∉ s.headTokens o := by
  have hkeyword : isKeyword "WHERE" = true := by decide +kernel
  have hname (source : Source) : source.name o ≠ "WHERE" :=
    name_ne_of_isKeyword ho hkeyword (by decide) source
  have hprimary : o.primaryAlias ≠ "WHERE" := hname .primary
  intro hmem
  rcases List.mem_append.mp hmem with hmem | hmem
  · rcases List.mem_append.mp hmem with hmem | hmem
    · rcases List.mem_cons.mp hmem with h | hmem
      · simp at h
      · exact projection_ne_of_isKeyword ho hkeyword (by decide) (by decide) _ _ _ hmem rfl
    · simp [hprimary.symm] at hmem
  · obtain ⟨ts, hts, hmem⟩ := List.mem_flatten.mp hmem
    obtain ⟨⟨j, position⟩, -, rfl⟩ := List.mem_map.mp hts
    have htype : j.type.keyword ≠ "WHERE" := by cases j.type <;> decide
    have halias : joinAlias position ≠ "WHERE" := hname (.join position)
    simp [joinTokens, ColumnRef.tokens, (hname _).symm, htype.symm, halias.symm] at hmem

theorem Clause.tokens_ne_nil (o : Options) (c : Clause) : c.tokens o ≠ [] := by
  cases c with
  | condition x =>
    cases x with
    | compare subject comparison operand =>
      cases comparison <;> simp [tokens, Condition.tokens, Comparison.tokens, Comparison.symbol]
    | _ => simp [tokens, Condition.tokens]
  | group => simp [tokens]

theorem Where.tokens_eq_nil_iff {o : Options} {w : Where} : w.tokens o = [] ↔ w.clauses = [] := by
  rw [Where.tokens, Clause.tokensOf_eq_map]
  cases w.clauses with
  | nil => simp
  | cons c cs => cases cs <;> simp [c.tokens_ne_nil o]

/-- The text of a statement has a condition exactly when the statement has a clause. -/
theorem Select.hasWhereIff {o : Options} (ho : o.fault? = none) {s : Select}
    (h : s.condition.IsPlain) : HasWhereIff (s.sql o) (s.condition.clauses ≠ []) := by
  refine ⟨_, _, (Select.phrase ho h).lex?_eq, statement?_tokens ho s, ?_,
    not_congr Where.tokens_eq_nil_iff⟩
  have hhead := where_notMem_headTokens ho s
  unfold Select.tokens
  split
  · rename_i hempty
    simp [hhead, List.isEmpty_iff.mp hempty]
  · rename_i hnonempty
    simpa using hnonempty

/-! ## References -/

/-- The tokens have the references, whatever is behind them that is no point. -/
structure Refers (ts : List Token) (refs : List Reference) : Prop where
  head : ts.head? ≠ some (.punct '.')
  reads : ∀ rest, rest.head? ≠ some (.punct '.') →
    references (ts ++ rest) = refs ++ references rest

theorem references_cons {t : Token} {rest : List Token} (h : rest.head? ≠ some (.punct '.')) :
    references (t :: rest) = references rest := by
  cases rest with
  | nil => cases t <;> simp [references]
  | cons u us =>
    have hu : u ≠ .punct '.' := by simpa using h
    rw [references]
    · rintro q column rest rfl ⟨⟩
      exact hu rfl
    · rintro q rest rfl ⟨⟩
      exact hu rfl

namespace Refers

variable {ts us : List Token} {refs refs' : List Reference}

theorem append (h : Refers ts refs) (h' : Refers us refs') : Refers (ts ++ us) (refs ++ refs') where
  head := by
    have hts := h.head
    have hus := h'.head
    cases ts with
    | nil => exact hus
    | cons t ts => exact hts
  reads rest hr := by
    have hnext : (us ++ rest).head? ≠ some (.punct '.') := by
      have hus := h'.head
      cases us with
      | nil => exact hr
      | cons u us => exact hus
    rw [List.append_assoc, h.reads _ hnext, h'.reads _ hr, List.append_assoc]

/-- Tokens without a point refer to nothing. -/
theorem plain (h : ∀ t ∈ ts, t ≠ .punct '.') : Refers ts [] where
  head := by
    cases ts with
    | nil => simp
    | cons t ts => simpa using h t List.mem_cons_self
  reads rest hr := by
    induction ts with
    | nil => rfl
    | cons t ts ih =>
      have hnext : (ts ++ rest).head? ≠ some (.punct '.') := by
        cases ts with
        | nil => exact hr
        | cons u us => simpa using h u (by simp)
      rw [List.cons_append, references_cons hnext]
      exact ih fun u hu => h u (List.mem_cons_of_mem t hu)

theorem intercalate {α : Type} {sep : List Token} (hsep : Refers sep []) {f : α → List Token}
    {g : α → List Reference} {xs : List α} (h : ∀ x ∈ xs, Refers (f x) (g x)) :
    Refers (sep.intercalate (xs.map f)) (xs.flatMap g) := by
  induction xs with
  | nil => exact .plain (by simp)
  | cons x xs ih =>
    have hx := h x List.mem_cons_self
    have ih := ih fun y hy => h y (List.mem_cons_of_mem x hy)
    cases xs with
    | nil => simpa using hx
    | cons y ys =>
      rw [List.map_cons, List.map_cons, List.intercalate_cons_cons, List.flatMap_cons]
      have hfirst := hx.append hsep
      rw [List.append_nil] at hfirst
      exact hfirst.append ih

theorem eq (h : Refers ts refs) : references ts = refs := by
  have := h.reads [] (by simp)
  rwa [List.append_nil, references, List.append_nil] at this

end Refers

/-- A dotted name of a function is no reference. -/
theorem refers_path (path : String) : Refers (pathTokens path) [] := by
  unfold pathTokens
  generalize path.toList.splitOn '.' = parts
  induction parts with
  | nil => exact .plain (by simp)
  | cons part parts ih =>
    cases parts with
    | nil => exact .plain (by simp)
    | cons q qs =>
      -- A word follows the point, so the point makes no reference of the word in front of it.
      obtain ⟨us, hus⟩ : ∃ us, [Token.punct '.'].intercalate
          ((q :: qs).map fun part => [.word (String.ofList part)]) =
            .word (String.ofList q) :: us := by
        cases qs with
        | nil => exact ⟨[], rfl⟩
        | cons => exact ⟨_, by rw [List.map_cons, List.map_cons, List.intercalate_cons_cons]; rfl⟩
      rw [hus] at ih
      rw [List.map_cons] at hus
      rw [List.map_cons, List.map_cons, List.intercalate_cons_cons, hus]
      refine ⟨by simp, fun rest hr => ?_⟩
      rw [← ih.reads rest hr]
      simp [references]

section Parts

variable (o : Options)

theorem refers_column (c : ColumnRef) : Refers (c.tokens o) [c.reference o] :=
  ⟨by simp [ColumnRef.tokens], fun _ _ => rfl⟩

theorem refers_all (s : Source) : Refers (s.allTokens o) [⟨s.name o, none⟩] :=
  ⟨by simp [Source.allTokens], fun _ _ => rfl⟩

theorem Refers.normalized {ts : List Token} {refs : List Reference} (h : Refers ts refs) :
    Refers (normalizedTokens o ts) refs := by
  have hopen : Refers [.punct '(', .word "lower", .punct '('] [] := .plain (by simp)
  have hclose : Refers [.punct ')', .punct ')'] [] := .plain (by simp)
  simpa [normalizedTokens] using (((refers_path o.normalizer).append hopen).append h).append hclose

theorem refers_subject (s : Subject) : Refers (s.tokens o) [s.column.reference o] := by
  unfold Subject.tokens
  split
  · have hcast : Refers [.word "CAST", .punct '('] [] := .plain (by simp)
    have htype : Refers [.word "AS", .word "TEXT", .punct ')'] [] := .plain (by simp)
    exact ((hcast.append (refers_column o s.column)).append htype).normalized o
  · exact refers_column o s.column

theorem refers_operand (operand : Operand) : Refers (operand.tokens o) [] := by
  cases operand with
  | null => exact .plain (by simp [Operand.tokens])
  | number numeral =>
    refine .plain fun t ht => ?_
    unfold Operand.tokens numberTokens at ht
    simp only [] at ht
    split at ht
    · simp only [List.mem_cons, List.not_mem_nil, or_false] at ht
      rcases ht with rfl | rfl <;> simp
    · simp only [List.mem_cons, List.not_mem_nil, or_false] at ht
      rw [ht]
      simp
  | text s => exact .plain (by simp [Operand.tokens])
  | normalizedText s => exact Refers.normalized o (.plain (by simp))

/-- The column that a condition is about. -/
def Condition.column? : Condition → Option ColumnRef
  | .compare subject _ _ | .isIn subject _ => some subject.column
  | .isLike column _ | .isNull column | .isNotNull column => some column
  | .never => none

theorem refers_condition (c : Condition) :
    Refers (c.tokens o) (c.column?.map (ColumnRef.reference o)).toList := by
  cases c with
  | compare subject comparison operand =>
    have hsign : Refers comparison.tokens [] := .plain (by cases comparison <;> decide)
    exact ((refers_subject o subject).append hsign).append (refers_operand o operand)
  | isIn subject operands =>
    have hin : Refers [.word "IN", .punct '('] [] := .plain (by simp)
    have hcomma : Refers [.punct ','] [] := .plain (by simp)
    have hclose : Refers [.punct ')'] [] := .plain (by simp)
    have hlist := Refers.intercalate hcomma fun x (_ : x ∈ operands) => refers_operand o x
    rw [List.flatMap_eq_nil_iff.mpr fun _ _ => rfl] at hlist
    exact (((refers_subject o subject).append hin).append hlist).append hclose
  | never => exact .plain (by simp [Condition.tokens])
  | isLike column pattern =>
    have hlike : Refers [.word "LIKE"] [] := .plain (by simp)
    exact ((refers_subject o ⟨column, true⟩).append hlike).append (refers_operand o _)
  | isNull column =>
    have hnull : Refers [.word "IS", .word "NULL"] [] := .plain (by simp)
    exact (refers_column o column).append hnull
  | isNotNull column =>
    have hnull : Refers [.word "IS", .word "NOT", .word "NULL"] [] := .plain (by simp)
    exact (refers_column o column).append hnull

theorem refers_separator (c : Combinator) : Refers (separatorTokens c) [] :=
  .plain (by cases c <;> simp [separatorTokens])

/-- The references of conditions, in order. -/
def conditionReferences (cs : List Condition) : List Reference :=
  cs.filterMap fun c => c.column?.map (ColumnRef.reference o)

theorem refers_clause (c : Clause) : Refers (c.tokens o) (conditionReferences o c.conditions) := by
  induction c using Clause.ind with
  | condition x =>
    have hx := refers_condition o x
    cases h : x.column? <;>
      simpa [conditionReferences, Clause.conditions, Clause.tokens, h] using hx
  | group combinator clauses ih =>
    have hopen : Refers [.punct '('] [] := .plain (by simp)
    have hclose : Refers [.punct ')'] [] := .plain (by simp)
    have hmembers := Refers.intercalate (refers_separator combinator) ih
    have hall := (hopen.append hmembers).append hclose
    rw [List.append_nil, List.nil_append] at hall
    rw [Clause.tokens, Clause.conditions, Clause.tokensOf_eq_map, Clause.conditionsOf_eq_flatMap,
      conditionReferences, List.filterMap_flatMap]
    exact hall

/-- The references of a filter are those of its conditions, in order. -/
theorem references_where (w : Where) :
    references (w.tokens o) = conditionReferences o (Clause.conditionsOf w.clauses) := by
  have hclauses := Refers.intercalate (refers_separator w.combinator)
    fun c (_ : c ∈ w.clauses) => refers_clause o c
  rw [Where.tokens, Clause.tokensOf_eq_map, Clause.conditionsOf_eq_flatMap, conditionReferences,
    List.filterMap_flatMap]
  exact hclauses.eq

/-- The references of a projection. -/
def Projection.references (joinCount : Nat) : Projection → List Reference
  | .everything =>
    (Source.primary :: (List.range joinCount).map .join).map fun s => ⟨s.name o, none⟩
  | .columns list => list.map fun c => c.column.reference o

theorem references_projection (joinCount : Nat) (p : Projection) :
    references (p.tokens o joinCount) = p.references o joinCount := by
  have hcomma : Refers [.punct ','] [] := .plain (by simp)
  cases p with
  | everything =>
    have hall := Refers.intercalate hcomma
      fun s (_ : s ∈ Source.primary :: (List.range joinCount).map .join) => refers_all o s
    rw [← List.map_eq_flatMap] at hall
    exact hall.eq
  | columns list =>
    have has (c : OutputColumn) : Refers (c.tokens o) [c.column.reference o] := by
      have hname : Refers [.word "AS", .name c.output] [] := .plain (by simp)
      exact (refers_column o c.column).append hname
    have hall := Refers.intercalate hcomma fun c (_ : c ∈ list) => has c
    rw [← List.map_eq_flatMap] at hall
    exact hall.eq

end Parts

end FilterSelect.Sql
