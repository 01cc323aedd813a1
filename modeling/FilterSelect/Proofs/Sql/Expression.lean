import FilterSelect.Proofs.Sql.Phrase
import Mathlib.Data.List.Forall2

/-!
# Expressions of SQL text

A parser for the condition of a statement, with the precedence of SQL: `AND` binds tighter than
`OR`, and parentheses at the start of an operand group. What stands between is a predicate: a
comparison of two values, a membership, a pattern match or a null test. A value is a column, a
number, a text, null, a cast, or a function of one value; its parentheses do not group. Keywords
have no case, and a single word that is one is no function.

* `parse?`: the expression of a list of tokens, if they are one.
* `Expr.eval`: the truth of an expression when each predicate has a truth value of its own.
* `isOperand_condition`: the tokens of a condition are a predicate.
* `parse?_members`: members with one combinator between them are read as a chain of them.
-/

namespace FilterSelect.Sql

/-! ## Truth -/

/-- A truth value of three-valued logic. -/
inductive Truth
  | no
  | unknown
  | yes
  deriving DecidableEq, Repr

/-- Both hold. -/
def Truth.and : Truth → Truth → Truth
  | .no, _ | _, .no => .no
  | .yes, .yes => .yes
  | _, _ => .unknown

/-- At least one holds. -/
def Truth.or : Truth → Truth → Truth
  | .yes, _ | _, .yes => .yes
  | .no, .no => .no
  | _, _ => .unknown

/-- What a combinator makes of two truth values. -/
def apply : Combinator → Truth → Truth → Truth
  | .and => Truth.and
  | .or => Truth.or

/-- What a combinator makes of many truth values. -/
def combine : Combinator → List Truth → Truth
  | .and, ts => ts.foldr Truth.and .yes
  | .or, ts => ts.foldr Truth.or .no

/-! ## Expressions -/

/-- A condition as it is read. -/
inductive Expr
  /-- A predicate, which has no combinator. -/
  | predicate (ts : List Token)
  | parens (e : Expr)
  | binary (c : Combinator) (e f : Expr)
  deriving DecidableEq, Repr

namespace Expr

/-- The predicates of an expression, in order. -/
def leaves : Expr → List (List Token)
  | .predicate ts => [ts]
  | .parens e => e.leaves
  | .binary _ e f => e.leaves ++ f.leaves

/-- The truth of an expression when the predicate at position `i` has the truth `v i`. `k` is the
position of its first predicate. -/
def eval (v : Nat → Truth) (k : Nat) : Expr → Truth
  | .predicate _ => v k
  | .parens e => e.eval v k
  | .binary c e f => apply c (e.eval v k) (f.eval v (k + e.leaves.length))

/-- The pairs of grouping parentheses from left to right, each as the position of the first
predicate in it and the number of predicates. `k` is the position of the first predicate. -/
def groups (k : Nat) : Expr → List (Nat × Nat)
  | .predicate _ => []
  | .parens e => (k, e.leaves.length) :: e.groups k
  | .binary _ e f => e.groups k ++ f.groups (k + e.leaves.length)

/-- The truths of expressions behind each other. -/
def evals (v : Nat → Truth) (k : Nat) : List Expr → List Truth
  | [] => []
  | e :: es => e.eval v k :: evals v (k + e.leaves.length) es

/-- The grouping parentheses of expressions behind each other. -/
def groupsOf (k : Nat) : List Expr → List (Nat × Nat)
  | [] => []
  | e :: es => e.groups k ++ groupsOf (k + e.leaves.length) es

/-- Operands with the same combinator between them. -/
def chain (c : Combinator) (e : Expr) : List Expr → Expr
  | [] => e
  | f :: es => .binary c e (chain c f es)

theorem leaves_ne_nil (e : Expr) : e.leaves ≠ [] := by
  induction e with
  | predicate ts => simp [leaves]
  | parens e ih => exact ih
  | binary c e f ih _ => simp [leaves, ih]

theorem leaves_chain (c : Combinator) (e : Expr) (es : List Expr) :
    (chain c e es).leaves = (e :: es).flatMap leaves := by
  induction es generalizing e with
  | nil => simp [chain]
  | cons f es ih =>
    rw [chain, leaves, ih]
    rfl

theorem eval_chain (v : Nat → Truth) (k : Nat) (c : Combinator) (e : Expr) (es : List Expr) :
    (chain c e es).eval v k = combine c (evals v k (e :: es)) := by
  induction es generalizing e k with
  | nil => cases c <;> cases h : e.eval v k <;> simp [chain, evals, combine, h, Truth.and, Truth.or]
  | cons f es ih =>
    rw [chain, eval, ih, evals]
    cases c <;> rfl

theorem groups_chain (k : Nat) (c : Combinator) (e : Expr) (es : List Expr) :
    (chain c e es).groups k = groupsOf k (e :: es) := by
  induction es generalizing e k with
  | nil => simp [chain, groupsOf]
  | cons f es ih =>
    rw [chain, groups, ih]
    rfl

theorem evals_append (v : Nat → Truth) (k : Nat) (es fs : List Expr) :
    evals v k (es ++ fs) = evals v k es ++ evals v (k + (es.flatMap leaves).length) fs := by
  induction es generalizing k with
  | nil => simp [evals]
  | cons e es ih => simp [evals, ih, Nat.add_assoc]

theorem groupsOf_append (k : Nat) (es fs : List Expr) :
    groupsOf k (es ++ fs) = groupsOf k es ++ groupsOf (k + (es.flatMap leaves).length) fs := by
  induction es generalizing k with
  | nil => simp [groupsOf]
  | cons e es ih => simp [groupsOf, ih, Nat.add_assoc]

end Expr

/-! ## The parser -/

/-- Whether the token is a word, in any letter case. -/
def Token.isWord (word : String) : Token → Bool
  | .word w => w.toLower == word
  | _ => false

mutual

/-- What follows the value at the front. -/
def value? : List Token → Option (List Token)
  | .number _ :: rest => some rest
  | .punct '-' :: .number _ :: rest => some rest
  | .text _ :: rest => some rest
  | .word _ :: .punct '.' :: .name _ :: rest => some rest
  | .word _ :: .punct '.' :: ts => call? ts
  | .word w :: .punct '(' :: ts =>
    if w.toLower = "cast" then
      match value? ts with
      | some (t :: .word _ :: .punct ')' :: rest) => if t.isWord "as" then some rest else none
      | _ => none
    else if isKeyword w then none
    else match value? ts with
      | some (.punct ')' :: rest) => some rest
      | _ => none
  | .word w :: rest => if w.toLower = "null" then some rest else none
  | _ => none

/-- What follows the rest of a dotted function name and its argument. -/
def call? : List Token → Option (List Token)
  | .word _ :: .punct '.' :: ts => call? ts
  | .word _ :: .punct '(' :: ts =>
    match value? ts with
    | some (.punct ')' :: rest) => some rest
    | _ => none
  | _ => none

end

/-- What follows the values at the front and the parenthesis that closes their list. -/
def values? (ts : List Token) : Option (List Token) :=
  match value? ts with
  | some (.punct ')' :: rest) => some rest
  | some (.punct ',' :: us) => if us.length < ts.length then values? us else none
  | _ => none
termination_by ts.length

/-- What follows the rest of a predicate behind its first value. -/
def test? : List Token → Option (List Token)
  | .punct '=' :: ts => value? ts
  | .punct '!' :: .punct '=' :: ts => value? ts
  | .punct '<' :: .punct '=' :: ts => value? ts
  | .punct '>' :: .punct '=' :: ts => value? ts
  | .punct '<' :: ts => value? ts
  | .punct '>' :: ts => value? ts
  | t :: ts =>
    if t.isWord "like" then value? ts
    else if t.isWord "in" && ts.head? == some (.punct '(') then values? ts.tail
    else if t.isWord "is" then
      match ts with
      | u :: us =>
        if u.isWord "null" then some us
        else if u.isWord "not" && us.head?.any (Token.isWord "null") then some us.tail
        else none
      | [] => none
    else none
  | [] => none

/-- What follows the predicate at the front. -/
def predicate? (ts : List Token) : Option (List Token) := (value? ts).bind test?

/-- How loosely a combinator binds. -/
def rank : Combinator → Nat
  | .and => 1
  | .or => 3

mutual

/-- The operands at the front with a combinator between them, and what follows. -/
def chain? (c : Combinator) (ts : List Token) : Option (Expr × List Token) :=
  match operand? c ts with
  | some (e, t :: us) =>
    if t.isWord c.name then
      if us.length < ts.length then (chain? c us).map fun (f, rest) => (.binary c e f, rest)
      else none
    else some (e, t :: us)
  | result => result
termination_by (ts.length, rank c + 1)

/-- The operand of a combinator at the front, and what follows. -/
def operand? (c : Combinator) (ts : List Token) : Option (Expr × List Token) :=
  match c with
  | .or => chain? .and ts
  | .and => primary? ts
termination_by (ts.length, rank c)
decreasing_by
  · exact Prod.Lex.right _ (by decide)
  · exact Prod.Lex.right _ (by decide)

/-- The predicate or the parentheses at the front, and what follows. -/
def primary? (ts : List Token) : Option (Expr × List Token) :=
  match ts with
  | .punct '(' :: us =>
    match chain? .or us with
    | some (e, .punct ')' :: rest) => some (.parens e, rest)
    | _ => none
  | _ =>
    (predicate? ts).map fun rest => (.predicate (ts.take (ts.length - rest.length)), rest)
termination_by (ts.length, 0)

end

/-- The expression of a list of tokens. -/
def parse? (ts : List Token) : Option Expr :=
  match chain? .or ts with
  | some (e, []) => some e
  | _ => none

-- `AND` binds tighter than `OR`.
example : (lex? "t.\"a\" = 1 OR t.\"b\" = 2 AND t.\"c\" = 3").bind parse? = some (.binary .or
    (.predicate [.word "t", .punct '.', .name "a", .punct '=', .number "1"])
    (.binary .and (.predicate [.word "t", .punct '.', .name "b", .punct '=', .number "2"])
      (.predicate [.word "t", .punct '.', .name "c", .punct '=', .number "3"]))) := by
  cbv

/-! ## Values -/

/-- Whether the tokens in front of `rest` are no name of a function or of a table. -/
def Ends (rest : List Token) : Prop := ∀ t ∈ rest.head?, t ≠ .punct '.' ∧ t ≠ .punct '('

theorem value?_null {rest : List Token} (hr : Ends rest) :
    value? (.word "NULL" :: rest) = some rest := by
  have hnull : "NULL".toLower = "null" := by decide +kernel
  cases rest with
  | nil => simp [value?, hnull]
  | cons t ts =>
    have ht := hr t rfl
    cases t with
    | punct c => simp_all [value?]
    | _ => simp [value?, hnull]

theorem value?_number (numeral : String) (rest : List Token) :
    value? (numberTokens numeral ++ rest) = some rest := by
  unfold numberTokens
  split
  · simp [value?]
  · simp [value?]

theorem value?_column (o : Options) (c : ColumnRef) (rest : List Token) :
    value? (c.tokens o ++ rest) = some rest := by
  simp [ColumnRef.tokens, value?]

/-- A function is called by a single word that is no keyword. -/
theorem value?_apply {f : String} (hf : isKeyword f = false) {ts rest : List Token}
    (h : value? ts = some (.punct ')' :: rest)) :
    value? (.word f :: .punct '(' :: ts) = some rest := by
  have hcast : f.toLower ≠ "cast" := fun he => by
    unfold isKeyword at hf
    rw [he] at hf
    revert hf
    decide
  simp [value?, hcast, hf, h]

theorem call?_path {part : List Char} {parts : List (List Char)} {ts rest : List Token}
    (h : value? ts = some (.punct ')' :: rest)) :
    call? ([Token.punct '.'].intercalate
      ((part :: parts).map fun part => [.word (String.ofList part)]) ++ .punct '(' :: ts) =
      some rest := by
  induction parts generalizing part with
  | nil => simp [call?, h]
  | cons q qs ih =>
    have ih := @ih q
    simp only [List.map_cons, List.intercalate_cons_cons, List.cons_append,
      List.nil_append] at ih ⊢
    rw [call?, ih]

/-- A function is called by its path, if that is no keyword. -/
theorem value?_path {path : String} (hk : isKeyword path = false) {ts rest : List Token}
    (h : value? ts = some (.punct ')' :: rest)) :
    value? (pathTokens path ++ .punct '(' :: ts) = some rest := by
  have hpath : ['.'].intercalate (path.toList.splitOn '.') = path.toList :=
    List.intercalate_splitOn '.'
  unfold pathTokens
  cases hparts : path.toList.splitOn '.' with
  | nil => exact absurd hparts (List.splitOn_ne_nil _ _)
  | cons part parts =>
    rw [hparts] at hpath
    cases parts with
    | nil =>
      rw [List.intercalate_singleton] at hpath
      have happly := value?_apply hk h
      simpa [hpath] using happly
    | cons q qs =>
      have hcall := @call?_path q qs _ _ h
      simp only [List.map_cons, List.intercalate_cons_cons, List.cons_append,
        List.nil_append] at hcall ⊢
      cases qs with
      | nil => simpa [value?] using hcall
      | cons r rs => simpa [value?] using hcall

section Values

variable {o : Options} (hk : isKeyword o.normalizer = false)
include hk

theorem value?_normalized {ts rest : List Token}
    (h : value? (ts ++ .punct ')' :: .punct ')' :: rest) =
      some (.punct ')' :: .punct ')' :: rest)) :
    value? (normalizedTokens o ts ++ rest) = some rest := by
  have hlower : isKeyword "lower" = false := by decide +kernel
  have hinner := value?_path hk (value?_apply hlower h)
  simpa [normalizedTokens] using hinner

theorem value?_subject (s : Subject) (rest : List Token) :
    value? (s.tokens o ++ rest) = some rest := by
  unfold Subject.tokens
  split
  · refine value?_normalized hk ?_
    have hcast : "CAST".toLower = "cast" := by decide +kernel
    have has : Token.isWord "as" (.word "AS") = true := by decide +kernel
    have hcolumn := value?_column o s.column
      (.word "AS" :: .word "TEXT" :: .punct ')' :: .punct ')' :: .punct ')' :: rest)
    simp only [List.append_assoc, List.cons_append, List.nil_append]
    simp [value?, hcast, hcolumn, has]
  · exact value?_column o s.column rest

theorem value?_operand (operand : Operand) {rest : List Token} (hr : Ends rest) :
    value? (operand.tokens o ++ rest) = some rest := by
  cases operand with
  | null => exact value?_null hr
  | number numeral => exact value?_number numeral rest
  | text s => simp [Operand.tokens, value?]
  | normalizedText s => exact value?_normalized hk (by simp [value?])

end Values

/-! ## Predicates -/

theorem values?_last {ts rest : List Token} (h : value? ts = some (.punct ')' :: rest)) :
    values? ts = some rest := by
  rw [values?]
  simp [h]

theorem values?_more {ts us : List Token} (h : value? ts = some (.punct ',' :: us))
    (hlt : us.length < ts.length) : values? ts = values? us := by
  rw [values?]
  simp [h, hlt]

/-- A list of operands up to its closing parenthesis. -/
theorem values?_operands {o : Options} (hk : isKeyword o.normalizer = false) {x : Operand}
    (xs : List Operand) (rest : List Token) :
    values? ([Token.punct ','].intercalate ((x :: xs).map (Operand.tokens o)) ++
      .punct ')' :: rest) = some rest := by
  induction xs generalizing x with
  | nil =>
    have hr : Ends (.punct ')' :: rest) := by simp [Ends]
    exact values?_last (by simpa using value?_operand hk x hr)
  | cons y ys ih =>
    have ih := @ih y
    simp only [List.map_cons, List.intercalate_cons_cons, List.append_assoc] at ih ⊢
    have hx (us : List Token) : value? (x.tokens o ++ .punct ',' :: us) = some (.punct ',' :: us) :=
      value?_operand hk x (by simp [Ends])
    rw [List.singleton_append, values?_more (hx _) (by simp; omega), ih]

theorem test?_comparison (c : Comparison) {ts rest : List Token} (h : value? ts = some rest) :
    test? (c.tokens ++ ts) = some rest := by
  -- The signs `<` and `>` are not the starts of `<=` and `>=`, since no value starts with `=`.
  have hne : ∀ us, ts ≠ .punct '=' :: us := fun us he => by
    rw [he] at h
    simp [value?] at h
  cases c <;> simp [Comparison.tokens, Comparison.symbol, test?, h]

theorem test?_in {ts rest : List Token} (h : values? ts = some rest) :
    test? (.word "IN" :: .punct '(' :: ts) = some rest := by
  have hlike : Token.isWord "like" (.word "IN") = false := by decide +kernel
  have hin : Token.isWord "in" (.word "IN") = true := by decide +kernel
  simp [test?, hlike, hin, h]

theorem test?_like {ts rest : List Token} (h : value? ts = some rest) :
    test? (.word "LIKE" :: ts) = some rest := by
  have hlike : Token.isWord "like" (.word "LIKE") = true := by decide +kernel
  simp [test?, hlike, h]

theorem test?_isNull (rest : List Token) :
    test? (.word "IS" :: .word "NULL" :: rest) = some rest := by
  have hlike : Token.isWord "like" (.word "IS") = false := by decide +kernel
  have hin : Token.isWord "in" (.word "IS") = false := by decide +kernel
  have his : Token.isWord "is" (.word "IS") = true := by decide +kernel
  have hnull : Token.isWord "null" (.word "NULL") = true := by decide +kernel
  simp [test?, hlike, hin, his, hnull]

theorem test?_isNotNull (rest : List Token) :
    test? (.word "IS" :: .word "NOT" :: .word "NULL" :: rest) = some rest := by
  have hlike : Token.isWord "like" (.word "IS") = false := by decide +kernel
  have hin : Token.isWord "in" (.word "IS") = false := by decide +kernel
  have his : Token.isWord "is" (.word "IS") = true := by decide +kernel
  have hnot : Token.isWord "null" (.word "NOT") = false := by decide +kernel
  have hnot' : Token.isWord "not" (.word "NOT") = true := by decide +kernel
  have hnull : Token.isWord "null" (.word "NULL") = true := by decide +kernel
  simp [test?, hlike, hin, his, hnot, hnot', hnull]

/-- Whether a membership lists an operand, without which it is no predicate. -/
def Condition.IsFilled : Condition → Prop
  | .isIn _ operands => operands ≠ []
  | _ => True

/-- The tokens of a condition are a predicate. -/
theorem predicate?_condition {o : Options} (hk : isKeyword o.normalizer = false) {c : Condition}
    (hc : c.IsFilled) {rest : List Token} (hr : Ends rest) :
    predicate? (c.tokens o ++ rest) = some rest := by
  unfold predicate?
  cases c with
  | compare subject comparison operand =>
    simp only [Condition.tokens, List.append_assoc]
    rw [value?_subject hk, Option.bind_some]
    exact test?_comparison comparison (value?_operand hk operand hr)
  | isIn subject operands =>
    simp only [Condition.tokens, List.append_assoc]
    rw [value?_subject hk, Option.bind_some]
    cases operands with
    | nil => exact absurd rfl hc
    | cons x xs => exact test?_in (values?_operands hk xs rest)
  | never =>
    simp [Condition.tokens, value?, test?]
  | isLike column pattern =>
    simp only [Condition.tokens, List.append_assoc]
    rw [value?_subject hk, Option.bind_some]
    exact test?_like (value?_operand hk _ hr)
  | isNull column =>
    simp only [Condition.tokens, List.append_assoc]
    rw [value?_column, Option.bind_some]
    exact test?_isNull rest
  | isNotNull column =>
    simp only [Condition.tokens, List.append_assoc]
    rw [value?_column, Option.bind_some]
    exact test?_isNotNull rest

/-! ## Chains -/

/-- The tokens are an operand of any combinator. -/
def IsOperand (ts : List Token) (e : Expr) : Prop :=
  ∀ rest, Ends rest → primary? (ts ++ rest) = some (e, rest)

/-- Whether a chain ends in front of `rest`: nothing follows, or a closing parenthesis. -/
def Closes (rest : List Token) : Prop := ∀ t ∈ rest.head?, t = .punct ')'

theorem Closes.ends {rest : List Token} (h : Closes rest) : Ends rest := fun t ht => by
  rw [h t ht]
  decide

theorem Closes.isWord {rest : List Token} (h : Closes rest) (word : String) :
    ∀ t ∈ rest.head?, t.isWord word = false := fun t ht => by
  rw [h t ht]
  rfl

theorem pathTokens_head (path : String) : ∃ w ts, pathTokens path = .word w :: ts := by
  unfold pathTokens
  cases hparts : path.toList.splitOn '.' with
  | nil => exact absurd hparts (List.splitOn_ne_nil _ _)
  | cons part parts =>
    cases parts with
    | nil => exact ⟨String.ofList part, [], by simp⟩
    | cons q qs =>
      rw [List.map_cons, List.map_cons, List.intercalate_cons_cons]
      exact ⟨String.ofList part, _, rfl⟩

/-- No condition starts with a parenthesis. -/
theorem Condition.tokens_head (o : Options) (c : Condition) :
    ∃ t ts, c.tokens o = t :: ts ∧ t ≠ .punct '(' := by
  have hsubject (s : Subject) (us : List Token) :
      ∃ t ts, s.tokens o ++ us = t :: ts ∧ t ≠ .punct '(' := by
    unfold Subject.tokens
    split
    · obtain ⟨w, ts, h⟩ := pathTokens_head o.normalizer
      exact ⟨.word w, _, by rw [normalizedTokens, h]; rfl, by simp⟩
    · exact ⟨_, _, rfl, by simp⟩
  cases c with
  | compare subject comparison operand =>
    simpa only [tokens, List.append_assoc] using hsubject subject _
  | isIn subject operands => simpa only [tokens, List.append_assoc] using hsubject subject _
  | never => exact ⟨_, _, rfl, by simp⟩
  | isLike column pattern => simpa only [tokens, List.append_assoc] using hsubject ⟨column, true⟩ _
  | isNull column => exact ⟨_, _, rfl, by simp⟩
  | isNotNull column => exact ⟨_, _, rfl, by simp⟩

theorem isOperand_condition {o : Options} (hk : isKeyword o.normalizer = false) {c : Condition}
    (hc : c.IsFilled) : IsOperand (c.tokens o) (.predicate (c.tokens o)) := by
  intro rest hr
  have hpredicate := predicate?_condition hk hc hr
  obtain ⟨t, ts, htokens, ht⟩ := c.tokens_head o
  have htake : (c.tokens o ++ rest).take ((c.tokens o ++ rest).length - rest.length) =
      c.tokens o := by simp
  unfold primary?
  split
  · rename_i heq
    rw [htokens, List.cons_append] at heq
    cases heq
    exact absurd rfl ht
  · rw [hpredicate, Option.map_some, htake]

/-- The last operand of a chain. -/
theorem chain?_end {c : Combinator} {ts rest : List Token} {e : Expr}
    (h : operand? c ts = some (e, rest)) (hr : ∀ t ∈ rest.head?, t.isWord c.name = false) :
    chain? c ts = some (e, rest) := by
  rw [chain?, h]
  cases rest with
  | nil => rfl
  | cons t us => simp [hr t rfl]

/-- One more operand in front of a chain. -/
theorem chain?_step {c : Combinator} {ts us rest : List Token} {t : Token} {e f : Expr}
    (h : operand? c ts = some (e, t :: us)) (ht : t.isWord c.name = true)
    (hlt : us.length < ts.length) (h' : chain? c us = some (f, rest)) :
    chain? c ts = some (.binary c e f, rest) := by
  rw [chain?, h]
  simp [ht, hlt, h']

/-- An operand of `AND` is one of `OR` where no `AND` follows. -/
theorem operand?_of_primary? {c : Combinator} {ts rest : List Token} {e : Expr}
    (h : primary? ts = some (e, rest))
    (hr : c = .or → ∀ t ∈ rest.head?, t.isWord Combinator.and.name = false) :
    operand? c ts = some (e, rest) := by
  cases c with
  | and => rwa [operand?]
  | or =>
    rw [operand?]
    refine chain?_end ?_ (hr rfl)
    rwa [operand?]

theorem separatorTokens_eq (c : Combinator) :
    ∃ t, separatorTokens c = [t] ∧ t.isWord c.name = true ∧ Ends [t] ∧
      (c = .or → t.isWord Combinator.and.name = false) := by
  cases c with
  | and => exact ⟨.word "AND", rfl, by decide +kernel, by simp [Ends], by simp⟩
  | or => exact ⟨.word "OR", rfl, by decide +kernel, by simp [Ends], fun _ => by decide +kernel⟩

/-- Operands with one combinator between them are read as a chain of them. -/
theorem chain?_members {c : Combinator} {ts : List Token} {e : Expr} {tss : List (List Token)}
    {es : List Expr} (h : IsOperand ts e) (hs : List.Forall₂ IsOperand tss es)
    {rest : List Token} (hr : Closes rest) :
    chain? c ((separatorTokens c).intercalate (ts :: tss) ++ rest) =
      some (.chain c e es, rest) := by
  induction hs generalizing ts e with
  | nil =>
    rw [List.intercalate_singleton]
    exact chain?_end (operand?_of_primary? (h rest hr.ends) fun _ => hr.isWord _) (hr.isWord _)
  | @cons us f tss es hf _ ih =>
    obtain ⟨t, hsep, ht, hends, hand⟩ := separatorTokens_eq c
    have ih := ih hf
    rw [hsep] at ih ⊢
    rw [List.intercalate_cons_cons]
    simp only [List.append_assoc, List.cons_append, List.nil_append] at ih ⊢
    have hfirst := h (t :: ([t].intercalate (us :: tss) ++ rest)) (by simpa [Ends] using hends)
    have hoperand : operand? c (ts ++ t :: ([t].intercalate (us :: tss) ++ rest)) =
        some (e, t :: ([t].intercalate (us :: tss) ++ rest)) :=
      operand?_of_primary? hfirst fun hc => by simpa using hand hc
    exact chain?_step hoperand ht (by simp; omega) ih

/-- The chain of any combinator is an expression. -/
theorem chain?_or_members {c : Combinator} {ts : List Token} {e : Expr} {tss : List (List Token)}
    {es : List Expr} (h : IsOperand ts e) (hs : List.Forall₂ IsOperand tss es)
    {rest : List Token} (hr : Closes rest) :
    chain? .or ((separatorTokens c).intercalate (ts :: tss) ++ rest) =
      some (.chain c e es, rest) := by
  have hchain := chain?_members (c := c) h hs hr
  cases c with
  | or => exact hchain
  | and =>
    refine chain?_end ?_ (hr.isWord _)
    rwa [operand?]

/-- Members of a group in parentheses are an operand. -/
theorem isOperand_parens {c : Combinator} {ts : List Token} {e : Expr} {tss : List (List Token)}
    {es : List Expr} (h : IsOperand ts e) (hs : List.Forall₂ IsOperand tss es) :
    IsOperand (.punct '(' :: (separatorTokens c).intercalate (ts :: tss) ++ [.punct ')'])
      (.parens (.chain c e es)) := by
  intro rest _
  have hclose : Closes (.punct ')' :: rest) := by simp [Closes]
  have hinner := chain?_or_members (c := c) h hs hclose
  simp only [List.cons_append, List.append_assoc, List.nil_append]
  rw [primary?]
  simp [hinner]

/-- Members of a filter are an expression. -/
theorem parse?_members {c : Combinator} {ts : List Token} {e : Expr} {tss : List (List Token)}
    {es : List Expr} (h : IsOperand ts e) (hs : List.Forall₂ IsOperand tss es) :
    parse? ((separatorTokens c).intercalate (ts :: tss)) = some (.chain c e es) := by
  have hend : Closes [] := by simp [Closes]
  have hinner := chain?_or_members (c := c) h hs hend
  rw [List.append_nil] at hinner
  rw [parse?, hinner]

end FilterSelect.Sql
