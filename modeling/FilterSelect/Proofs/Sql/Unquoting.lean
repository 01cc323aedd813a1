import FilterSelect.Proofs.Sql.Lexer

/-!
# Quoted tokens are read back

A quoted token is read from its opening mark on: a doubled mark stands for one, and the first mark
that no other follows closes the token. So a reader finds the text and the place where it ends in
front of all that follows, as long as this does not start with the mark itself.

* `unquote?`: the text of the quoted token at the front, and what follows it.
* `closing?_eq_some_iff`: reading up to the closing mark undoes the doubling, and nothing else.
* `closing?_doubled_append`: a mark behind the closing one goes on with the text.
* `prefixDecodable_quotes`: identifiers and literals are read back by this reader.
-/

namespace FilterSelect.Sql

/-- The text of the quoted token at the front, and what follows its closing mark. -/
def unquote? (mark : Char) : List Char → Option (String × List Char)
  | [] => none
  | c :: cs =>
    if c = mark then (closing? mark cs).map fun (text, rest) => (String.ofList text, rest) else none

/-- Quoted texts are read back in front of anything that does not start with their mark. -/
structure PrefixDecodable (mark : Char) (quote : String → String) : Prop where
  /-- A text is read exactly where it stands quoted, and no further mark follows. -/
  unquote?_iff : ∀ (cs : List Char) (text : String) (rest : List Char),
    unquote? mark cs = some (text, rest) ↔
      cs = (quote text).toList ++ rest ∧ ∀ c ∈ rest.head?, c ≠ mark
  /-- Whatever follows, reading does not end before the text does. -/
  isPrefix : ∀ (text : String) (rest : List Char) (text' : String) (rest' : List Char),
    unquote? mark ((quote text).toList ++ rest) = some (text', rest') →
      text.toList <+: text'.toList
  injective : Function.Injective quote

/-! ## The closing mark -/

variable {mark : Char}

/-- Up to the closing mark, the reader takes doubled texts only. -/
theorem eq_of_closing? {cs text rest : List Char} (h : closing? mark cs = some (text, rest)) :
    cs = doubled mark text ++ mark :: rest ∧ ∀ c ∈ rest.head?, c ≠ mark := by
  fun_induction closing? mark cs generalizing text with
  | case1 => cases h
  | case2 =>
    cases h
    simp [doubled]
  | case3 ds ih =>
    obtain ⟨⟨text', rest'⟩, hds, heq⟩ := Option.map_eq_some_iff.mp h
    cases heq
    obtain ⟨rfl, hrest⟩ := ih hds
    exact ⟨by simp [doubled_cons], hrest⟩
  | case4 d ds hd =>
    cases h
    simpa [doubled] using hd
  | case5 c cs hc ih =>
    obtain ⟨⟨text', rest'⟩, hcs, heq⟩ := Option.map_eq_some_iff.mp h
    cases heq
    obtain ⟨rfl, hrest⟩ := ih hcs
    exact ⟨by simp [doubled_cons, hc], hrest⟩

theorem closing?_eq_some_iff {cs text rest : List Char} :
    closing? mark cs = some (text, rest) ↔
      cs = doubled mark text ++ mark :: rest ∧ ∀ c ∈ rest.head?, c ≠ mark := by
  refine ⟨eq_of_closing?, ?_⟩
  rintro ⟨rfl, hrest⟩
  exact closing?_doubled mark text hrest

/-- A mark behind the closing one is taken together with it, and reading goes on. -/
theorem closing?_doubled_append (text rest : List Char) :
    closing? mark (doubled mark text ++ mark :: mark :: rest) =
      (closing? mark rest).map fun (more, rest) => (text ++ mark :: more, rest) := by
  induction text with
  | nil => simp [doubled, closing?]
  | cons c cs ih =>
    rw [doubled_cons]
    by_cases hc : c = mark
    · subst hc
      simp [closing?, ih, Function.comp_def]
    · simp [hc, closing?_cons_of_ne, ih, Function.comp_def]

theorem isPrefix_of_closing? {text rest text' rest' : List Char}
    (h : closing? mark (doubled mark text ++ mark :: rest) = some (text', rest')) :
    text <+: text' := by
  by_cases hrest : ∀ c ∈ rest.head?, c ≠ mark
  · rw [closing?_doubled mark text hrest] at h
    cases h
    exact List.prefix_rfl
  · obtain ⟨ds, rfl⟩ : ∃ ds, rest = mark :: ds := by
      cases rest with
      | nil => simp at hrest
      | cons d ds => exact ⟨ds, by simpa using hrest⟩
    rw [closing?_doubled_append] at h
    obtain ⟨⟨more, rest''⟩, -, heq⟩ := Option.map_eq_some_iff.mp h
    cases heq
    exact List.prefix_append _ _

/-! ## Quoted texts -/

theorem toList_quotedBy_append (text : String) (rest : List Char) :
    (quotedBy mark text).toList ++ rest = mark :: (doubled mark text.toList ++ mark :: rest) := by
  simp [quotedBy]

theorem unquote?_cons (cs : List Char) : unquote? mark (mark :: cs) =
    (closing? mark cs).map fun (text, rest) => (String.ofList text, rest) :=
  if_pos rfl

theorem unquote?_eq_some_iff {cs : List Char} {text : String} {rest : List Char} :
    unquote? mark cs = some (text, rest) ↔
      cs = (quotedBy mark text).toList ++ rest ∧ ∀ c ∈ rest.head?, c ≠ mark := by
  rw [toList_quotedBy_append]
  constructor
  · intro h
    cases cs with
    | nil => cases h
    | cons c cs =>
      by_cases hc : c = mark
      · subst hc
        rw [unquote?_cons] at h
        obtain ⟨⟨text', rest'⟩, hcs, heq⟩ := Option.map_eq_some_iff.mp h
        cases heq
        simpa using closing?_eq_some_iff.mp hcs
      · rw [unquote?, if_neg hc] at h
        cases h
  · rintro ⟨rfl, hrest⟩
    rw [unquote?_cons, closing?_eq_some_iff.mpr ⟨rfl, hrest⟩]
    simp

theorem prefixDecodable_quotedBy (mark : Char) : PrefixDecodable mark (quotedBy mark) where
  unquote?_iff _ _ _ := unquote?_eq_some_iff
  isPrefix text rest text' rest' h := by
    rw [toList_quotedBy_append, unquote?_cons] at h
    obtain ⟨⟨cs, rest''⟩, hcs, heq⟩ := Option.map_eq_some_iff.mp h
    cases heq
    simpa using isPrefix_of_closing? hcs
  injective text text' h := by
    -- Both texts are what is read from the same token.
    have hread (s : String) : unquote? mark (quotedBy mark s).toList = some (s, []) :=
      unquote?_eq_some_iff.mpr ⟨by simp, by simp⟩
    have heq := (hread text).symm.trans (h ▸ hread text')
    exact (Prod.mk.inj (Option.some.inj heq)).1

/-- Identifiers are read back up to their double quotes, literals up to their single quotes. -/
theorem prefixDecodable_quotes :
    PrefixDecodable '"' quotedName ∧ PrefixDecodable '\'' literal :=
  ⟨prefixDecodable_quotedBy '"', prefixDecodable_quotedBy '\''⟩

/-- Marks at both ends of a name, and a word behind the token. -/
example : unquote? '"' "\"\"\"a\"\"\"AS".toList = some ("\"a\"", ['A', 'S']) := by decide +kernel

end FilterSelect.Sql
