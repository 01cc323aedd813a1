import FilterSelect.Proofs.Filter.Rules
import FilterSelect.Proofs.Filter.Tables

/-!
# What the options contribute to a statement

The two options are names without quotes, so what they are read as depends on the keywords. A word
is a keyword, in any case, unless a point stands in front of it. Apart from the options' names, all
statements of a request are the same: where the standard alias is bound or qualifies a column, there
stands the alias, and where the standard normalizer is called, the path of the normalizer. The alias
is never a keyword. The first name of the path may be one: then every call is read as that keyword.

* `Lexeme`, `lexemes`: keywords and identifiers told apart.
* `rename`: lexemes with other names in the places of the standard ones.
* `Renames`: tokens that hold the names of the options where others hold the standard ones.
* `renames_select`: the tokens of a statement, with the options and with the standard ones.
* `Compiler.lexemes_compile`: when the lexemes of a statement are renamed standard ones.
-/

namespace FilterSelect

namespace Sql

/-! ## Keywords and identifiers -/

/-- A token whose words are told apart. -/
inductive Lexeme
  | keyword (s : String)
  | identifier (s : String)
  | other (t : Token)
  deriving DecidableEq, Repr

/-- The lexeme of a token: a word behind a point is no keyword. -/
def Token.lexeme (behindPoint : Bool) : Token → Lexeme
  | .word s => if !behindPoint && isKeyword s then .keyword s else .identifier s
  | t => .other t

/-- The lexemes of tokens. `behindPoint` says whether a point stands in front of the first. -/
def lexemes (behindPoint : Bool) : List Token → List Lexeme
  | [] => []
  | t :: ts => t.lexeme behindPoint :: lexemes (t == .punct '.') ts

/-- The keyword that a lexeme is. -/
def Lexeme.keyword? : Lexeme → Option String
  | .keyword s => some s
  | .identifier _ | .other _ => none

/-- The keywords among lexemes, in order. -/
def keywordsOf (xs : List Lexeme) : List String := xs.filterMap Lexeme.keyword?

/-- The names of a dotted path. -/
def pathNames (path : String) : List String := (path.toList.splitOn '.').map String.ofList

/-- The names of a dotted path as identifiers, with points between them. -/
def identifiers (path : String) : List Lexeme :=
  [Lexeme.other (.punct '.')].intercalate ((pathNames path).map fun name => [.identifier name])

/-- Whether the first name of a dotted path is a keyword. -/
def startsWithKeyword (path : String) : Bool := (pathNames path).head?.any isKeyword

/-! ## Renaming -/

/-- Whether the lexeme is a call of the standard normalizer, given the lexeme behind it. -/
def Lexeme.isCalled (next : Option Lexeme) (x : Lexeme) : Bool :=
  x == .identifier ({} : Options).normalizer && next == some (.other (.punct '('))

/-- How often the standard normalizer is called. -/
def calls : List Lexeme → Nat
  | [] => 0
  | x :: xs => (if x.isCalled xs.head? then 1 else 0) + calls xs

/-- What stands for a lexeme between two others: `name` for the standard alias, where it is bound or
qualifies a column, and `function` for the standard normalizer, where it is called. -/
def Lexeme.renamed (name function : List Lexeme) (previous next : Option Lexeme) (x : Lexeme) :
    List Lexeme :=
  if x = .identifier ({} : Options).primaryAlias ∧
      (previous = some (.keyword "AS") ∨ next = some (.other (.punct '.'))) then name
  else if x.isCalled next then function
  else [x]

/-- The lexemes with `name` and `function` in the places of the standard names. `previous` is the
lexeme in front of them. -/
def rename (name function : List Lexeme) (previous : Option Lexeme) : List Lexeme → List Lexeme
  | [] => []
  | x :: xs => x.renamed name function previous xs.head? ++ rename name function (some x) xs

theorem isCalled_iff {next : Option Lexeme} {x : Lexeme} : x.isCalled next = true ↔
    x = .identifier ({} : Options).normalizer ∧ next = some (.other (.punct '(')) := by
  simp [Lexeme.isCalled]

theorem keywordsOf_cons (x : Lexeme) (xs : List Lexeme) :
    keywordsOf (x :: xs) = x.keyword?.toList ++ keywordsOf xs := by
  cases x <;> rfl

theorem keywordsOf_append (xs ys : List Lexeme) :
    keywordsOf (xs ++ ys) = keywordsOf xs ++ keywordsOf ys :=
  List.filterMap_append

section Rename

variable {name function : List Lexeme}

/-- Only the standard names are renamed. -/
theorem renamed_of_ne {x : Lexeme} (ha : x ≠ .identifier ({} : Options).primaryAlias)
    (hn : x ≠ .identifier ({} : Options).normalizer) (previous next : Option Lexeme) :
    x.renamed name function previous next = [x] := by
  simp [Lexeme.renamed, Lexeme.isCalled, ha, hn]

theorem renamed_of_isCalled {next : Option Lexeme} {x : Lexeme} (h : x.isCalled next = true)
    (previous : Option Lexeme) : x.renamed name function previous next = function := by
  obtain ⟨rfl, rfl⟩ := isCalled_iff.mp h
  have hne : ({} : Options).normalizer ≠ ({} : Options).primaryAlias := by decide
  simp [Lexeme.renamed, Lexeme.isCalled, hne]

/-- Names that are no keywords do not change the keywords. -/
theorem keywordsOf_rename (hname : keywordsOf name = []) (hfunction : keywordsOf function = [])
    (previous : Option Lexeme) (xs : List Lexeme) :
    keywordsOf (rename name function previous xs) = keywordsOf xs := by
  induction xs generalizing previous with
  | nil => rfl
  | cons x xs ih =>
    have hx : keywordsOf (x.renamed name function previous xs.head?) = keywordsOf [x] := by
      unfold Lexeme.renamed
      split
      · rename_i h
        rw [hname, h.1]
        rfl
      · split
        · rename_i h
          rw [hfunction, (isCalled_iff.mp h).1]
          rfl
        · rfl
    rw [rename, keywordsOf_append, hx, ih, ← keywordsOf_append, List.singleton_append]

/-- Each call of the standard normalizer brings in the keywords of the function. -/
theorem length_keywordsOf_rename (hname : keywordsOf name = []) (previous : Option Lexeme)
    (xs : List Lexeme) : (keywordsOf (rename name function previous xs)).length =
      (keywordsOf xs).length + calls xs * (keywordsOf function).length := by
  induction xs generalizing previous with
  | nil => simp [rename, calls, keywordsOf]
  | cons x xs ih =>
    have hx : (keywordsOf (x.renamed name function previous xs.head?)).length =
        x.keyword?.toList.length +
          (if x.isCalled xs.head? then 1 else 0) * (keywordsOf function).length := by
      by_cases hcalled : x.isCalled xs.head? = true
      · rw [renamed_of_isCalled hcalled, if_pos hcalled, (isCalled_iff.mp hcalled).1]
        simp [Lexeme.keyword?]
      · rw [if_neg hcalled]
        unfold Lexeme.renamed
        split
        · rename_i h
          rw [hname, h.1]
          simp [Lexeme.keyword?]
        · cases x <;> simp [keywordsOf, Lexeme.keyword?]
    rw [rename, keywordsOf_append, List.length_append, hx, ih, calls, Nat.add_mul, keywordsOf_cons,
      List.length_append]
    omega

/-- The function does not count where none is called. -/
theorem rename_congr {xs : List Lexeme} (h : calls xs = 0) (function' : List Lexeme)
    (previous : Option Lexeme) :
    rename name function previous xs = rename name function' previous xs := by
  induction xs generalizing previous with
  | nil => rfl
  | cons x xs ih =>
    obtain ⟨hx, hxs⟩ : x.isCalled xs.head? = false ∧ calls xs = 0 := by
      simpa [calls] using h
    rw [rename, rename, ih hxs]
    simp [Lexeme.renamed, hx]

end Rename

/-! ## Lexemes of tokens -/

theorem lexeme_of_isKeyword_eq_false {s : String} (h : isKeyword s = false) (behindPoint : Bool) :
    (Token.word s).lexeme behindPoint = .identifier s := by
  simp [Token.lexeme, h]

theorem word_of_lexeme_eq {t : Token} {behindPoint : Bool} {s : String}
    (h : t.lexeme behindPoint = .identifier s) : t = .word s := by
  unfold Token.lexeme at h
  split at h
  · split at h
    · cases h
    · rw [Lexeme.identifier.inj h]
  · cases h

theorem lexemes_append_punct (behindPoint : Bool) (ts : List Token) (c : Char) (us : List Token) :
    lexemes behindPoint (ts ++ .punct c :: us) =
      lexemes behindPoint ts ++ lexemes false (.punct c :: us) := by
  induction ts generalizing behindPoint with
  | nil => rfl
  | cons t ts ih =>
    rw [List.cons_append, lexemes, ih]
    rfl

/-! ## Paths -/

section Paths

variable (path : String)

theorem pathTokens_eq_intercalate :
    pathTokens path = [Token.punct '.'].intercalate ((pathNames path).map fun s => [.word s]) := by
  simp [pathTokens, pathNames, Function.comp_def]

variable {path} in
/-- The first token of a path is its first name. -/
theorem exists_pathTokens_eq_cons {first : String} {rest : List String}
    (h : pathNames path = first :: rest) : ∃ ts, pathTokens path = .word first :: ts := by
  rw [pathTokens_eq_intercalate, h]
  cases rest with
  | nil => exact ⟨_, rfl⟩
  | cons second rest => exact ⟨_, rfl⟩

/-- Behind a point, all names of a path are identifiers. -/
theorem lexemes_true_pathTokens : lexemes true (pathTokens path) = identifiers path := by
  rw [pathTokens_eq_intercalate, identifiers]
  induction pathNames path with
  | nil => rfl
  | cons n ns ih =>
    cases ns with
    | nil => rfl
    | cons m ms =>
      simp only [List.map_cons, List.intercalate_cons_cons] at ih ⊢
      exact congrArg (fun xs => .identifier n :: .other (.punct '.') :: xs) ih

theorem keywordsOf_identifiers : keywordsOf (identifiers path) = [] := by
  rw [identifiers]
  induction pathNames path with
  | nil => rfl
  | cons n ns ih =>
    cases ns with
    | nil => rfl
    | cons m ms =>
      simp only [List.map_cons, List.intercalate_cons_cons] at ih ⊢
      rw [keywordsOf_append, ih]
      rfl

variable {path}

/-- Elsewhere only the first name of a path can be a keyword. -/
theorem lexemes_false_pathTokens (h : startsWithKeyword path = false) :
    lexemes false (pathTokens path) = identifiers path := by
  rw [← lexemes_true_pathTokens]
  cases hnames : pathNames path with
  | nil =>
    rw [pathTokens_eq_intercalate, hnames]
    rfl
  | cons first rest =>
    have hfirst : isKeyword first = false := by simpa [startsWithKeyword, hnames] using h
    obtain ⟨ts, hts⟩ := exists_pathTokens_eq_cons hnames
    rw [hts, lexemes, lexemes, lexeme_of_isKeyword_eq_false hfirst,
      lexeme_of_isKeyword_eq_false hfirst]

theorem keywordsOf_pathTokens_ne_nil (h : startsWithKeyword path = true) :
    keywordsOf (lexemes false (pathTokens path)) ≠ [] := by
  cases hnames : pathNames path with
  | nil => simp [startsWithKeyword, hnames] at h
  | cons first rest =>
    have hfirst : isKeyword first = true := by simpa [startsWithKeyword, hnames] using h
    obtain ⟨ts, hts⟩ := exists_pathTokens_eq_cons hnames
    rw [hts]
    simp [lexemes, Token.lexeme, hfirst, keywordsOf, Lexeme.keyword?]

end Paths

/-! ## Tokens with the names of the options -/

/-- Whether the token is the same whatever the options are, and what is behind it is no part of a
dotted name. -/
def Token.isFixed (t : Token) : Bool :=
  t != .word ({} : Options).primaryAlias && t != .word ({} : Options).normalizer && t != .punct '.'

/-- The second list is the first one with the names of the options for the standard ones. Qualifiers
stand in front of a point, the alias is bound behind `AS`, and the normalizer is called. -/
inductive Renames (o : Options) : List Token → List Token → Prop
  | nil : Renames o [] []
  | fixed {t : Token} {ts us : List Token} (ht : t.isFixed = true) (h : Renames o ts us) :
      Renames o (t :: ts) (t :: us)
  | qualified (s : Source) {t : Token} {ts us : List Token} (ht : t.isFixed = true)
      (h : Renames o ts us) :
      Renames o (.word (s.name {}) :: .punct '.' :: t :: ts)
        (.word (s.name o) :: .punct '.' :: t :: us)
  | bound {ts us : List Token} (h : Renames o ts us) :
      Renames o (.word "AS" :: .word ({} : Options).primaryAlias :: ts)
        (.word "AS" :: .word o.primaryAlias :: us)
  | called {ts us : List Token} (h : Renames o ts us) :
      Renames o (.word ({} : Options).normalizer :: .punct '(' :: ts)
        (pathTokens o.normalizer ++ .punct '(' :: us)

namespace Renames

variable {o : Options} {ts us ts' us' : List Token}

theorem append (h : Renames o ts us) (h' : Renames o ts' us') :
    Renames o (ts ++ ts') (us ++ us') := by
  induction h with
  | nil => exact h'
  | fixed ht _ ih => exact .fixed ht ih
  | qualified s ht _ ih => exact .qualified s ht ih
  | bound _ ih => exact .bound ih
  | called _ ih =>
    rw [List.append_assoc]
    exact .called ih

theorem refl (h : ts.all Token.isFixed = true) : Renames o ts ts := by
  induction ts with
  | nil => exact .nil
  | cons t ts ih =>
    rw [List.all_cons, Bool.and_eq_true] at h
    exact .fixed h.1 (ih h.2)

variable {α : Type} {f g : α → List Token} {xs : List α}

theorem flatten (h : ∀ x ∈ xs, Renames o (f x) (g x)) :
    Renames o (xs.map f).flatten (xs.map g).flatten := by
  induction xs with
  | nil => exact .nil
  | cons x xs ih =>
    exact (h x List.mem_cons_self).append (ih fun y hy => h y (List.mem_cons_of_mem x hy))

theorem intercalate {sep : List Token} (hsep : sep.all Token.isFixed = true)
    (h : ∀ x ∈ xs, Renames o (f x) (g x)) :
    Renames o (sep.intercalate (xs.map f)) (sep.intercalate (xs.map g)) := by
  induction xs with
  | nil => exact .nil
  | cons x xs ih =>
    have hx := h x List.mem_cons_self
    have ih := ih fun y hy => h y (List.mem_cons_of_mem x hy)
    cases xs with
    | nil => simpa using hx
    | cons y ys =>
      simp only [List.map_cons, List.intercalate_cons_cons] at ih ⊢
      exact (hx.append (.refl hsep)).append ih

end Renames

/-! ## Renamed lexemes -/

theorem isFixed_iff {t : Token} : t.isFixed = true ↔ t ≠ .word ({} : Options).primaryAlias ∧
    t ≠ .word ({} : Options).normalizer ∧ t ≠ .punct '.' := by
  simp [Token.isFixed, and_assoc]

theorem isFixed_joinAlias (position : Nat) : (Token.word (joinAlias position)).isFixed = true := by
  have hne {s : String} (hs : s.toList.head? ≠ some 'j') :
      Token.word (joinAlias position) ≠ .word s := by
    rintro ⟨⟩
    exact hs (by rw [toList_joinAlias]; rfl)
  exact isFixed_iff.mpr ⟨hne (by decide), hne (by decide), by simp⟩

theorem lexemes_cons_of_isFixed {t : Token} (ht : t.isFixed = true) (behindPoint : Bool)
    (ts : List Token) :
    lexemes behindPoint (t :: ts) = t.lexeme behindPoint :: lexemes false ts := by
  rw [lexemes, beq_eq_false_iff_ne.mpr (isFixed_iff.mp ht).2.2]

section Fixed

variable {name function : List Lexeme}

/-- A fixed token is not renamed. -/
theorem renamed_of_isFixed {t : Token} (ht : t.isFixed = true) (behindPoint : Bool)
    (previous next : Option Lexeme) :
    (t.lexeme behindPoint).renamed name function previous next = [t.lexeme behindPoint] := by
  obtain ⟨hprimary, hnormalizer, -⟩ := isFixed_iff.mp ht
  exact renamed_of_ne (fun e => hprimary (word_of_lexeme_eq e))
    (fun e => hnormalizer (word_of_lexeme_eq e)) previous next

theorem rename_cons_of_isFixed {t : Token} (ht : t.isFixed = true) (behindPoint : Bool)
    (previous : Option Lexeme) (xs : List Lexeme) :
    rename name function previous (t.lexeme behindPoint :: xs) =
      t.lexeme behindPoint :: rename name function (some (t.lexeme behindPoint)) xs := by
  rw [rename, renamed_of_isFixed ht, List.singleton_append]

theorem rename_cons_punct (c : Char) (previous : Option Lexeme) (xs : List Lexeme) :
    rename name function previous (.other (.punct c) :: xs) =
      .other (.punct c) :: rename name function (some (.other (.punct c))) xs := by
  rw [rename, renamed_of_ne (by simp) (by simp), List.singleton_append]

end Fixed

/-- The standard names are no keywords, and `AS` is one. -/
theorem lexeme_standard :
    (Token.word ({} : Options).primaryAlias).lexeme false =
        .identifier ({} : Options).primaryAlias ∧
      (Token.word ({} : Options).normalizer).lexeme false =
        .identifier ({} : Options).normalizer ∧
      (Token.word "AS").lexeme false = .keyword "AS" := by
  decide +kernel

namespace Renames

variable {o : Options} (ho : o.fault? = none) {ts us : List Token}
include ho

/-- In front of a point each qualifier is renamed to the other. -/
theorem renamed_qualifier (s : Source) (function : List Lexeme) (previous : Option Lexeme) :
    ((Token.word (s.name {})).lexeme false).renamed [.identifier o.primaryAlias] function previous
      (some (.other (.punct '.'))) = [(Token.word (s.name o)).lexeme false] := by
  cases s with
  | primary =>
    obtain ⟨-, hkeyword, -⟩ := primaryAlias_of_fault?_eq_none ho
    rw [Source.name, lexeme_standard.1, Source.name, lexeme_of_isKeyword_eq_false hkeyword]
    simp [Lexeme.renamed]
  | join position => exact renamed_of_isFixed (isFixed_joinAlias position) false _ _

/-- The lexemes are renamed; the path of the normalizer is put in as it is read. -/
theorem lexemes_eq (h : Renames o ts us) (previous : Option Lexeme) :
    lexemes false us = rename [.identifier o.primaryAlias]
      (lexemes false (pathTokens o.normalizer)) previous (lexemes false ts) := by
  obtain ⟨hmain, hnormalizer, has⟩ := lexeme_standard
  -- No piece of the tokens ends in a point, so no point stands in front of the next one.
  induction h generalizing previous with
  | nil => rfl
  | fixed ht _ ih =>
    rw [lexemes_cons_of_isFixed ht, lexemes_cons_of_isFixed ht, rename_cons_of_isFixed ht, ← ih]
  | @qualified s t ts us ht _ ih =>
    have htail (previous : Option Lexeme) : rename [.identifier o.primaryAlias]
        (lexemes false (pathTokens o.normalizer)) previous (lexemes true (t :: ts)) =
          lexemes true (t :: us) := by
      rw [lexemes_cons_of_isFixed ht, rename_cons_of_isFixed ht, ← ih, lexemes_cons_of_isFixed ht]
    show (Token.word (s.name o)).lexeme false :: .other (.punct '.') :: lexemes true (t :: us) =
      rename _ _ previous
        ((Token.word (s.name {})).lexeme false :: .other (.punct '.') :: lexemes true (t :: ts))
    rw [rename, List.head?_cons, renamed_qualifier ho, rename_cons_punct, htail,
      List.singleton_append]
  | @bound ts us _ ih =>
    obtain ⟨-, hkeyword, -⟩ := primaryAlias_of_fault?_eq_none ho
    show (Token.word "AS").lexeme false :: (Token.word o.primaryAlias).lexeme false ::
        lexemes false us =
      rename _ _ previous ((Token.word "AS").lexeme false ::
        (Token.word ({} : Options).primaryAlias).lexeme false :: lexemes false ts)
    rw [hmain, has, lexeme_of_isKeyword_eq_false hkeyword, rename,
      renamed_of_ne (by simp) (by simp), rename, ← ih]
    simp [Lexeme.renamed]
  | @called ts us _ ih =>
    show lexemes false (pathTokens o.normalizer ++ .punct '(' :: us) =
      rename _ _ previous ((Token.word ({} : Options).normalizer).lexeme false ::
        .other (.punct '(') :: lexemes false ts)
    have hparen : lexemes false (.punct '(' :: us) = .other (.punct '(') :: lexemes false us := rfl
    rw [lexemes_append_punct, hparen, hnormalizer, rename, List.head?_cons,
      renamed_of_isCalled (by decide), rename_cons_punct, ← ih]

end Renames

/-! ## Statements -/

section Parts

variable (o : Options)

theorem pathTokens_standard :
    pathTokens ({} : Options).normalizer = [.word ({} : Options).normalizer] := by
  decide +kernel

theorem renames_column (c : ColumnRef) : Renames o (c.tokens {}) (c.tokens o) :=
  .qualified c.source rfl .nil

theorem renames_normalized {ts us : List Token} (h : Renames o ts us) :
    Renames o (normalizedTokens {} ts) (normalizedTokens o us) := by
  have hlower : Renames o [.word "lower", .punct '('] [.word "lower", .punct '('] := .refl rfl
  have hclose : Renames o [.punct ')', .punct ')'] [.punct ')', .punct ')'] := .refl rfl
  have hcalled := (Renames.called hlower).append (h.append hclose)
  rw [normalizedTokens, normalizedTokens, pathTokens_standard]
  simpa only [List.append_assoc, List.cons_append, List.nil_append] using hcalled

theorem renames_subject (s : Subject) : Renames o (s.tokens {}) (s.tokens o) := by
  unfold Subject.tokens
  split
  · have hcast : Renames o [.word "CAST", .punct '('] [.word "CAST", .punct '('] := .refl rfl
    have htype : Renames o [.word "AS", .word "TEXT", .punct ')']
        [.word "AS", .word "TEXT", .punct ')'] := .refl rfl
    exact renames_normalized o ((hcast.append (renames_column o s.column)).append htype)
  · exact renames_column o s.column

theorem isFixed_numberTokens (numeral : String) :
    (numberTokens numeral).all Token.isFixed = true := by
  unfold numberTokens
  split <;> rfl

theorem renames_operand (x : Operand) : Renames o (x.tokens {}) (x.tokens o) := by
  cases x with
  | null => exact .refl rfl
  | number numeral => exact .refl (isFixed_numberTokens numeral)
  | text s => exact .refl rfl
  | normalizedText s => exact renames_normalized o (.refl rfl)

theorem renames_condition (c : Condition) : Renames o (c.tokens {}) (c.tokens o) := by
  cases c with
  | compare subject comparison operand =>
    have hcomparison : Renames o comparison.tokens comparison.tokens :=
      .refl (by cases comparison <;> rfl)
    exact ((renames_subject o subject).append hcomparison).append (renames_operand o operand)
  | isIn subject operands =>
    have hin : Renames o [.word "IN", .punct '('] [.word "IN", .punct '('] := .refl rfl
    have hcomma : [Token.punct ','].all Token.isFixed = true := rfl
    have hlist := Renames.intercalate hcomma fun x (_ : x ∈ operands) => renames_operand o x
    exact (((renames_subject o subject).append hin).append hlist).append (.refl rfl)
  | never => exact .refl rfl
  | isLike column pattern =>
    have hlike : Renames o [.word "LIKE"] [.word "LIKE"] := .refl rfl
    exact ((renames_subject o ⟨column, true⟩).append hlike).append
      (renames_operand o (.normalizedText pattern))
  | isNull column => exact (renames_column o column).append (.refl rfl)
  | isNotNull column => exact (renames_column o column).append (.refl rfl)

theorem isFixed_separatorTokens (c : Combinator) :
    (separatorTokens c).all Token.isFixed = true := by
  cases c <;> rfl

theorem renames_clause (c : Clause) : Renames o (c.tokens {}) (c.tokens o) := by
  induction c using Clause.ind with
  | condition x => exact renames_condition o x
  | group combinator clauses ih =>
    have hopen : Renames o [.punct '('] [.punct '('] := .refl rfl
    have hmembers := Renames.intercalate (isFixed_separatorTokens combinator) ih
    rw [Clause.tokens, Clause.tokens, Clause.tokensOf_eq_map, Clause.tokensOf_eq_map]
    exact (hopen.append hmembers).append (.refl rfl)

theorem renames_where (w : Where) : Renames o (w.tokens {}) (w.tokens o) := by
  rw [Where.tokens, Where.tokens, Clause.tokensOf_eq_map, Clause.tokensOf_eq_map]
  exact .intercalate (isFixed_separatorTokens w.combinator) fun c _ => renames_clause o c

theorem renames_projection (joinCount : Nat) (p : Projection) :
    Renames o (p.tokens {} joinCount) (p.tokens o joinCount) := by
  cases p with
  | everything => exact .intercalate rfl fun s _ => .qualified s rfl .nil
  | columns list =>
    exact .intercalate rfl fun c _ => (renames_column o c.column).append (.refl rfl)

theorem renames_join (position : Nat) (j : Join) :
    Renames o (joinTokens {} position j) (joinTokens o position j) := by
  have htype : (Token.word j.type.keyword).isFixed = true := by cases j.type <;> rfl
  have hbound : Renames o
      [.word j.type.keyword, .word "JOIN", .name j.targetTable, .word "AS",
        .word (joinAlias position), .word "ON"]
      [.word j.type.keyword, .word "JOIN", .name j.targetTable, .word "AS",
        .word (joinAlias position), .word "ON"] :=
    .fixed htype (.fixed rfl (.fixed rfl (.fixed rfl (.fixed (isFixed_joinAlias position)
      (.refl rfl)))))
  have hequal : Renames o [.punct '='] [.punct '='] := .refl rfl
  exact ((hbound.append (renames_column o ⟨.primary, j.sourceColumn⟩)).append hequal).append
    (renames_column o ⟨.join position, j.targetColumn⟩)

theorem renames_head (s : Select) : Renames o (s.headTokens {}) (s.headTokens o) := by
  have htable : Renames o
      [.word "FROM", .name s.table, .word "AS", .word ({} : Options).primaryAlias]
      [.word "FROM", .name s.table, .word "AS", .word o.primaryAlias] :=
    .fixed rfl (.fixed rfl (.bound .nil))
  have hjoins := Renames.flatten fun x (_ : x ∈ s.joins.zipIdx) => renames_join o x.2 x.1
  exact ((Renames.fixed rfl (renames_projection o s.joins.length s.projection)).append
    htable).append hjoins

/-- The tokens of a statement hold the names of the options for the standard ones. -/
theorem renames_select (s : Select) : Renames o (s.tokens {}) (s.tokens o) := by
  unfold Select.tokens
  split
  · exact renames_head o s
  · have hwhere : Renames o [.word "WHERE"] [.word "WHERE"] := .refl rfl
    exact ((renames_head o s).append hwhere).append (renames_where o s.condition)

end Parts

/-- The lexemes are renamed exactly if their keywords are the same, and exactly if the normalizer
is not called or is not read as a keyword. -/
theorem Renames.lexemes_eq_rename_iff {o : Options} (ho : o.fault? = none) {ts us : List Token}
    (h : Renames o ts us) :
    (lexemes false us = rename [.identifier o.primaryAlias] (identifiers o.normalizer) none
        (lexemes false ts) ↔
      startsWithKeyword o.normalizer = false ∨ calls (lexemes false ts) = 0) ∧
    (keywordsOf (lexemes false us) = keywordsOf (lexemes false ts) ↔
      startsWithKeyword o.normalizer = false ∨ calls (lexemes false ts) = 0) := by
  have hlexemes := h.lexemes_eq ho none
  have hrename : startsWithKeyword o.normalizer = false ∨ calls (lexemes false ts) = 0 →
      lexemes false us = rename [.identifier o.primaryAlias] (identifiers o.normalizer) none
        (lexemes false ts) := by
    rintro (hpath | hcalls)
    · rwa [lexemes_false_pathTokens hpath] at hlexemes
    · exact hlexemes.trans (rename_congr hcalls _ _)
  have hkeywords (h : lexemes false us = rename [.identifier o.primaryAlias]
      (identifiers o.normalizer) none (lexemes false ts)) :
      keywordsOf (lexemes false us) = keywordsOf (lexemes false ts) := by
    rw [h, keywordsOf_rename rfl (keywordsOf_identifiers _)]
  have hcalls (h : keywordsOf (lexemes false us) = keywordsOf (lexemes false ts)) :
      startsWithKeyword o.normalizer = false ∨ calls (lexemes false ts) = 0 := by
    have hname : keywordsOf [.identifier o.primaryAlias] = [] := rfl
    have hlength := congrArg (fun xs => (keywordsOf xs).length) hlexemes
    rw [length_keywordsOf_rename hname, h, Nat.left_eq_add, Nat.mul_eq_zero,
      List.length_eq_zero_iff] at hlength
    refine hlength.symm.imp_left fun hnil => ?_
    exact Bool.eq_false_iff.mpr fun hpath => keywordsOf_pathTokens_ne_nil hpath hnil
  exact ⟨⟨fun h => hcalls (hkeywords h), hrename⟩, ⟨hcalls, fun h => hkeywords (hrename h)⟩⟩

end Sql

/-! ## Compiled requests -/

open Sql

theorem Compiler.lex?_compile {c : Compiler} {r : Request} {s : Select} (hs : r.select = .ok s) :
    c.compile r = .ok (s.sql c.options) ∧ lex? (s.sql c.options) = some (s.tokens c.options) := by
  have hw := (Request.select_eq_ok_iff.mp hs).2.2.2.1
  have hread := Select.phrase c.usable (Group.isPlain_condition hw)
  exact ⟨map_eq_ok_iff.mpr ⟨s, hs, rfl⟩, hread.lex?_eq⟩

/-- A request that has a statement has one with all options. Its lexemes are those of the standard
statement, with the alias and the names of the normalizer in the places of the standard names,
exactly if the first name of the normalizer is no keyword or the normalizer is not called. Exactly
then it has the keywords of the standard statement. -/
theorem Compiler.lexemes_compile {c : Compiler} {r : Request} {sql : String}
    (h : c.compile r = .ok sql) : ∃ standard ts us, Compiler.standard.compile r = .ok standard ∧
      lex? standard = some ts ∧ lex? sql = some us ∧
      (lexemes false us = rename [.identifier c.options.primaryAlias]
          (identifiers c.options.normalizer) none (lexemes false ts) ↔
        startsWithKeyword c.options.normalizer = false ∨ calls (lexemes false ts) = 0) ∧
      (keywordsOf (lexemes false us) = keywordsOf (lexemes false ts) ↔
        startsWithKeyword c.options.normalizer = false ∨ calls (lexemes false ts) = 0) := by
  obtain ⟨s, hs, rfl⟩ := map_eq_ok_iff.mp h
  obtain ⟨hcompile, hstandard⟩ := lex?_compile (c := .standard) hs
  obtain ⟨-, hread⟩ := lex?_compile (c := c) hs
  exact ⟨_, _, _, hcompile, hstandard, hread,
    (renames_select c.options s).lexemes_eq_rename_iff c.usable⟩

/-- A request for the rows with a name. -/
def Request.byName : Request where
  table := "users"
  filter := ⟨.and, [.rule ⟨"name", some .equal, some (.text "x")⟩]⟩

/-- Behind a point, the name of a function may be a keyword. -/
theorem Compiler.lexemes_compile_byName : ∃ sql standard ts us,
    Compiler.compile { options := ⟨"u", "public.left"⟩ } .byName = .ok sql ∧
    Compiler.standard.compile .byName = .ok standard ∧
    lex? standard = some ts ∧ lex? sql = some us ∧
    lexemes false us = rename [.identifier "u"]
      [.identifier "public", .other (.punct '.'), .identifier "left"] none (lexemes false ts) := by
  obtain ⟨standard, ts, us, hstandard, hts, hus, hrename, -⟩ :=
    lexemes_compile (c := { options := ⟨"u", "public.left"⟩ }) (r := .byName) rfl
  refine ⟨_, standard, ts, us, rfl, hstandard, hts, hus, ?_⟩
  exact hrename.mpr (.inl (by decide +kernel))

/-- A normalizer whose name is a keyword is taken for it: the statement has a keyword for each call,
and is not the standard one with other names. -/
theorem Compiler.exists_keyword_of_normalizer : ∃ standard sql ts us,
    Compiler.standard.compile .byName = .ok standard ∧
    Compiler.compile { options := ⟨"main", "not"⟩ } .byName = .ok sql ∧
    lex? standard = some ts ∧ lex? sql = some us ∧
    keywordsOf (lexemes false ts) = ["SELECT", "FROM", "AS", "WHERE", "CAST", "AS"] ∧
    keywordsOf (lexemes false us) =
      ["SELECT", "FROM", "AS", "WHERE", "not", "CAST", "AS", "not"] ∧
    lexemes false us ≠ rename [.identifier "main"] [.identifier "not"] none (lexemes false ts) := by
  have hs : Request.byName.select = .ok ⟨.everything, "users", [], ⟨.and,
      [.condition (.compare ⟨⟨.primary, "name"⟩, true⟩ .equal (.normalizedText "x"))]⟩⟩ := rfl
  obtain ⟨hstandard, hts⟩ := lex?_compile (c := .standard) hs
  obtain ⟨hcompile, hus⟩ := lex?_compile (c := { options := ⟨"main", "not"⟩ }) hs
  exact ⟨_, _, _, _, hstandard, hcompile, hts, hus, by decide +kernel, by decide +kernel,
    by decide +kernel⟩

end FilterSelect
