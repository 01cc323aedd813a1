import FilterSelect.Proofs.Number.Plain
import FilterSelect.Proofs.Text.Trim
import FilterSelect.Sql.Name
import FilterSelect.Sql.Quoted

/-!
# Tokens of SQL text

A lexer for SQL that knows nothing of statements. Words are `[A-Za-z_][A-Za-z0-9_]*`, numbers are
unsigned digits with an optional fraction, a quoted token holds the text that it stands for, and a
backslash is an ordinary character. Comments run from `--` to the end of the line, or from `/*` to
the next `*/`. All other printable ASCII characters are punctuation, one character a token.
Anything else outside quotes is no SQL.

* `lex?`: the tokens of a text.
* `Reads text ts rest`: a text in front of `rest` gives the tokens `ts`, then those of `rest`.
* `reads_name`, `reads_text`: a quoted token is read back, whatever it holds, before any text that
  does not start with its mark.
* `reads_fixed`: a text of words and punctuation that ends where no other text can extend it.
-/

namespace FilterSelect.Sql

/-! ## The lexer -/

/-- A token of an SQL text. -/
inductive Token
  | word (s : String)
  /-- An identifier in double quotes, without them. -/
  | name (s : String)
  /-- A literal in single quotes, without them. -/
  | text (s : String)
  | number (s : String)
  | comment
  | punct (c : Char)
  deriving DecidableEq, Repr

/-- Whether `c` only separates tokens. -/
def isSpace (c : Char) : Bool := c == ' ' || (0x09 ≤ c.toNat && c.toNat ≤ 0x0D)

/-- Whether `c` is a token of its own: printable, and no part of a word or a quoted token. -/
def isPunct (c : Char) : Bool :=
  0x21 ≤ c.toNat && c.toNat ≤ 0x7E && !isNameChar c && c != '"' && c != '\''

/-- The text up to the closing mark, and what follows the mark. A doubled mark stands for one. -/
def closing? (mark : Char) : List Char → Option (List Char × List Char)
  | [] => none
  | c :: cs =>
    if c = mark then
      match cs with
      | [] => some ([], [])
      | d :: ds =>
        if d = mark then (closing? mark ds).map fun (s, rest) => (mark :: s, rest)
        else some ([], d :: ds)
    else (closing? mark cs).map fun (s, rest) => (c :: s, rest)

/-- The fraction at the front: a point and at least one digit. -/
def fraction : List Char → List Char × List Char
  | '.' :: d :: cs =>
    if d.isDigit then ('.' :: d :: cs.takeWhile Char.isDigit, cs.dropWhile Char.isDigit)
    else ([], '.' :: d :: cs)
  | cs => ([], cs)

/-- What follows the first `*/`. -/
def commentEnd? : List Char → Option (List Char)
  | [] => none
  | '*' :: '/' :: rest => some rest
  | _ :: rest => commentEnd? rest

/-- The token that starts with `c`, and what follows it. -/
def token? (c : Char) (cs : List Char) : Option (Token × List Char) :=
  if isNameStart c then
    some (.word (String.ofList (c :: cs.takeWhile isNameChar)), cs.dropWhile isNameChar)
  else if c.isDigit then
    let (part, rest) := fraction (cs.dropWhile Char.isDigit)
    some (.number (String.ofList (c :: cs.takeWhile Char.isDigit ++ part)), rest)
  else if c = '"' then (closing? '"' cs).map fun (s, rest) => (.name (String.ofList s), rest)
  else if c = '\'' then (closing? '\'' cs).map fun (s, rest) => (.text (String.ofList s), rest)
  else if c = '-' && cs.head? == some '-' then some (.comment, cs.dropWhile (· != '\n'))
  else if c = '/' && cs.head? == some '*' then
    (commentEnd? cs.tail).map fun rest => (.comment, rest)
  else if isPunct c then some (.punct c, cs)
  else none

theorem length_closing?_le {mark : Char} {cs s rest : List Char}
    (h : closing? mark cs = some (s, rest)) : rest.length ≤ cs.length := by
  fun_induction closing? mark cs generalizing s with
  | case1 => cases h
  | case2 => simp_all
  | case3 ds ih =>
    obtain ⟨⟨s', r'⟩, hs, he⟩ := Option.map_eq_some_iff.mp h
    cases he
    have := ih hs
    simp only [List.length_cons]
    omega
  | case4 => cases h; simp
  | case5 c cs _ ih =>
    obtain ⟨⟨s', r'⟩, hs, he⟩ := Option.map_eq_some_iff.mp h
    cases he
    have := ih hs
    simp only [List.length_cons]
    omega

theorem length_fraction_le (cs : List Char) : (fraction cs).2.length ≤ cs.length := by
  fun_cases fraction cs with
  | case1 d cs =>
    have := (List.dropWhile_sublist Char.isDigit (l := cs)).length_le
    simp only [List.length_cons]
    omega
  | case2 => simp
  | case3 => simp

theorem length_commentEnd?_le {cs rest : List Char} (h : commentEnd? cs = some rest) :
    rest.length ≤ cs.length := by
  fun_induction commentEnd? cs with
  | case1 => cases h
  | case2 => cases h; simp only [List.length_cons]; omega
  | case3 _ cs _ ih =>
    have := ih h
    simp only [List.length_cons]
    omega

theorem length_token?_le {c : Char} {cs rest : List Char} {t : Token}
    (h : token? c cs = some (t, rest)) : rest.length ≤ cs.length := by
  have hd (p : Char → Bool) : (cs.dropWhile p).length ≤ cs.length :=
    (List.dropWhile_sublist p).length_le
  unfold token? at h
  split at h
  · cases h; exact hd _
  split at h
  · cases h; exact Nat.le_trans (length_fraction_le _) (hd _)
  split at h
  · obtain ⟨⟨s, r⟩, hs, he⟩ := Option.map_eq_some_iff.mp h
    cases he; exact length_closing?_le hs
  split at h
  · obtain ⟨⟨s, r⟩, hs, he⟩ := Option.map_eq_some_iff.mp h
    cases he; exact length_closing?_le hs
  split at h
  · cases h; exact hd _
  split at h
  · obtain ⟨r, hr, he⟩ := Option.map_eq_some_iff.mp h
    cases he
    have := length_commentEnd?_le hr
    simp only [List.length_tail] at this
    omega
  split at h
  · cases h; exact Nat.le_refl _
  · cases h

/-- The tokens of a text. -/
def tokens? : List Char → Option (List Token)
  | [] => some []
  | c :: cs =>
    if isSpace c then tokens? cs
    else
      match _h : token? c cs with
      | none => none
      | some (t, rest) => (tokens? rest).map (t :: ·)
termination_by cs => cs.length
decreasing_by
  · simp
  · have := length_token?_le ‹_›
    simp only [List.length_cons]
    omega

/-- The tokens of an SQL text; none when it has a quoted token or a comment without an end, or a
character that starts no token. -/
def lex? (sql : String) : Option (List Token) := tokens? sql.toList

example : lex? "a.\"b\"\"--\" <= 'it''s' -- c" = some
    [.word "a", .punct '.', .name "b\"--", .punct '<', .punct '=', .text "it's", .comment] := by
  cbv

/-! ## Reading a text in front of another -/

/-- Reading `text` in front of `rest` gives `ts`, and then the tokens of `rest`. -/
def Reads (text : String) (ts : List Token) (rest : List Char) : Prop :=
  tokens? (text.toList ++ rest) = (tokens? rest).map (ts ++ ·)

/-- Whether no token that ends in front of `rest` goes on there: nothing follows, or a blank, a
comma or a closing parenthesis. -/
def Stops (rest : List Char) : Prop := ∀ c ∈ rest.head?, c = ' ' ∨ c = ',' ∨ c = ')'

theorem Reads.append {a b : String} {ts us : List Token} {rest : List Char}
    (ha : Reads a ts (b.toList ++ rest)) (hb : Reads b us rest) :
    Reads (a ++ b) (ts ++ us) rest := by
  unfold Reads at *
  rw [String.toList_append, List.append_assoc, ha, hb, Option.map_map]
  congr 1
  funext vs
  exact (List.append_assoc ts us vs).symm

theorem lex?_of_reads {text : String} {ts : List Token} (h : Reads text ts []) :
    lex? text = some ts := by
  unfold Reads at h
  rw [List.append_nil] at h
  unfold lex?
  rw [h, tokens?]
  simp

theorem tokens?_space {c : Char} (h : isSpace c = true) (cs : List Char) :
    tokens? (c :: cs) = tokens? cs := by
  rw [tokens?, if_pos h]

theorem tokens?_token {c : Char} {cs rest : List Char} {t : Token} (hc : isSpace c = false)
    (h : token? c cs = some (t, rest)) : tokens? (c :: cs) = (tokens? rest).map (t :: ·) := by
  rw [tokens?, if_neg (by simp [hc])]
  split
  · rename_i hn
    rw [h] at hn
    cases hn
  · rename_i hs
    rw [h] at hs
    cases hs
    rfl

/-! ## Characters -/

theorem isDigit_iff (c : Char) : c.isDigit = true ↔ 48 ≤ c.toNat ∧ c.toNat ≤ 57 := by
  simp [Char.isDigit, UInt32.le_iff_toNat_le]

theorem isAlpha_iff (c : Char) :
    c.isAlpha = true ↔ (65 ≤ c.toNat ∧ c.toNat ≤ 90) ∨ (97 ≤ c.toNat ∧ c.toNat ≤ 122) := by
  unfold Char.isAlpha Char.isUpper Char.isLower
  simp [UInt32.le_iff_toNat_le]

theorem eq_underscore_iff (c : Char) : c = '_' ↔ c.toNat = 95 := Char.toNat_inj.symm

theorem isNameStart_iff (c : Char) : isNameStart c = true ↔
    (65 ≤ c.toNat ∧ c.toNat ≤ 90) ∨ (97 ≤ c.toNat ∧ c.toNat ≤ 122) ∨ c.toNat = 95 := by
  simp [isNameStart, isAlpha_iff, eq_underscore_iff, or_assoc]

theorem isNameChar_iff (c : Char) : isNameChar c = true ↔
    (48 ≤ c.toNat ∧ c.toNat ≤ 57) ∨ (65 ≤ c.toNat ∧ c.toNat ≤ 90) ∨
      (97 ≤ c.toNat ∧ c.toNat ≤ 122) ∨ c.toNat = 95 := by
  simp only [isNameChar, Char.isAlphanum, Bool.or_eq_true, isAlpha_iff, isDigit_iff, beq_iff_eq,
    eq_underscore_iff]
  omega

theorem isSpace_of_isNameChar {c : Char} (h : isNameChar c = true) : isSpace c = false := by
  rw [isNameChar_iff] at h
  have hc : c ≠ ' ' := fun e => by subst e; revert h; decide
  simp only [isSpace, Bool.or_eq_false_iff, beq_eq_false_iff_ne, ne_eq, hc, not_false_eq_true,
    Bool.and_eq_false_iff, decide_eq_false_iff_not, true_and]
  omega

theorem isNameChar_of_isNameStart {c : Char} (h : isNameStart c = true) : isNameChar c = true := by
  rw [isNameStart_iff] at h
  rw [isNameChar_iff]
  omega

theorem isNameChar_of_isDigit {c : Char} (h : c.isDigit = true) : isNameChar c = true := by
  rw [isDigit_iff] at h
  rw [isNameChar_iff]
  omega

theorem isNameStart_of_isDigit {c : Char} (h : c.isDigit = true) : isNameStart c = false := by
  rw [isDigit_iff] at h
  rw [← Bool.not_eq_true, isNameStart_iff]
  omega

/-- A character that ends every token is none of a class that has no blank, comma or closing
parenthesis. -/
theorem Stops.not_mem {rest : List Char} (h : Stops rest) {p : Char → Bool} (h₁ : p ' ' = false)
    (h₂ : p ',' = false) (h₃ : p ')' = false) : ∀ c ∈ rest.head?, p c = false := by
  intro c hc
  rcases h c hc with rfl | rfl | rfl
  · exact h₁
  · exact h₂
  · exact h₃

/-! ## Words -/

/-- Whether the characters are those of one word. -/
def isWord : List Char → Bool
  | [] => false
  | c :: cs => isNameStart c && cs.all isNameChar

theorem isWord_of_isNameText {cs : List Char} (h : isNameText cs = true) : isWord cs = true := by
  cases cs with
  | nil => cases h
  | cons c cs =>
    simp only [isNameText, Bool.and_eq_true] at h
    simp [isWord, h.1.1, h.1.2]

/-- A word is read up to the first character that no word has. -/
theorem tokens?_word {w rest : List Char} (hw : isWord w = true)
    (hr : ∀ c ∈ rest.head?, isNameChar c = false) :
    tokens? (w ++ rest) = (tokens? rest).map (.word (String.ofList w) :: ·) := by
  cases w with
  | nil => cases hw
  | cons c cs =>
    simp only [isWord, Bool.and_eq_true, List.all_eq_true] at hw
    have hs := isSpace_of_isNameChar (isNameChar_of_isNameStart hw.1)
    have ht : token? c (cs ++ rest) = some (.word (String.ofList (c :: cs)), rest) := by
      unfold token?
      rw [if_pos hw.1, takeWhile_append_eq hw.2 hr, dropWhile_append_eq hw.2 hr]
    exact tokens?_token hs ht

theorem reads_word {w : String} {rest : List Char} (hw : isWord w.toList = true)
    (hr : ∀ c ∈ rest.head?, isNameChar c = false) : Reads w [.word w] rest := by
  unfold Reads
  rw [tokens?_word hw hr, String.ofList_toList]
  rfl

/-! ## Numbers -/

theorem fraction_of_head_ne {rest : List Char} (hr : ∀ c ∈ rest.head?, c ≠ '.') :
    fraction rest = ([], rest) := by
  cases rest with
  | nil => rfl
  | cons c cs => simp [fraction, hr c rfl]

theorem fraction_append {ds rest : List Char} (hd : AreDigits ds)
    (hr : ∀ c ∈ rest.head?, c.isDigit = false) :
    fraction ('.' :: ds ++ rest) = ('.' :: ds, rest) := by
  obtain ⟨hne, hd⟩ := hd
  cases ds with
  | nil => exact absurd rfl hne
  | cons d ds =>
    have hds : ∀ c ∈ ds, c.isDigit = true := fun c hc => hd c (List.mem_cons_of_mem d hc)
    simp only [fraction, List.cons_append]
    rw [if_pos (hd d List.mem_cons_self), takeWhile_append_eq hds hr, dropWhile_append_eq hds hr]

/-- Digits, and the fraction behind them, are one number. -/
theorem tokens?_digits {cs part rest tail : List Char} (hc : AreDigits cs)
    (ht : ∀ c ∈ tail.head?, c.isDigit = false) (hf : fraction tail = (part, rest)) :
    tokens? (cs ++ tail) = (tokens? rest).map (.number (String.ofList (cs ++ part)) :: ·) := by
  obtain ⟨hne, hc⟩ := hc
  cases cs with
  | nil => exact absurd rfl hne
  | cons c cs =>
    have hd := hc c List.mem_cons_self
    have hcs : ∀ c ∈ cs, c.isDigit = true := fun d hd => hc d (List.mem_cons_of_mem c hd)
    have htok : token? c (cs ++ tail) =
        some (.number (String.ofList (c :: cs ++ part)), rest) := by
      unfold token?
      rw [if_neg (by simp [isNameStart_of_isDigit hd]), if_pos hd, takeWhile_append_eq hcs ht,
        dropWhile_append_eq hcs ht, hf]
    exact tokens?_token (isSpace_of_isNameChar (isNameChar_of_isDigit hd)) htok

theorem tokens?_number {cs rest : List Char} (hc : IsUnsigned cs) (hr : Stops rest) :
    tokens? (cs ++ rest) = (tokens? rest).map (.number (String.ofList cs) :: ·) := by
  have hdigit := hr.not_mem (p := Char.isDigit) rfl rfl rfl
  cases hc with
  | whole h =>
    have hpoint : ∀ c ∈ rest.head?, c ≠ '.' := fun c hc => by
      rcases hr c hc with rfl | rfl | rfl <;> decide
    simpa using tokens?_digits h hdigit (fraction_of_head_ne hpoint)
  | @fraction cs ds h h' =>
    rw [List.append_assoc]
    exact tokens?_digits h (by simp) (fraction_append h' hdigit)

/-- The tokens of a number literal: a minus is one of its own. -/
def numberTokens (numeral : String) : List Token :=
  match numeral.toList with
  | '-' :: cs => [.punct '-', .number (String.ofList cs)]
  | cs => [.number (String.ofList cs)]

/-- A minus in front of a digit starts no comment. -/
theorem token?_minus {cs rest : List Char} (hc : IsUnsigned cs) :
    token? '-' (cs ++ rest) = some (.punct '-', cs ++ rest) := by
  obtain ⟨c, ds, rfl, hd⟩ := hc.exists_digit
  have hne : c ≠ '-' := fun e => by subst e; cases hd
  have h : ((c :: ds ++ rest).head? == some '-') = false := by simp [hne]
  unfold token?
  rw [h]
  rfl

theorem reads_number {numeral : String} {rest : List Char} (hn : IsPlain numeral.toList)
    (hr : Stops rest) : Reads numeral (numberTokens numeral) rest := by
  unfold Reads numberTokens
  generalize numeral.toList = cs at hn
  cases hn with
  | unsigned h =>
    rw [tokens?_number h hr]
    split
    · obtain ⟨c, ds, he, hd⟩ := h.exists_digit
      cases he
      cases hd
    · rfl
  | negative h =>
    rw [List.cons_append, tokens?_token rfl (token?_minus h), tokens?_number h hr, Option.map_map]
    rfl

/-! ## Texts that stand by themselves -/

/-- The word that was read, if any. -/
def pendingWord (w : List Char) : List Token := if w.isEmpty then [] else [.word (String.ofList w)]

/-- The tokens of a text whose words and punctuation no following text can extend; none when it is
no such text. `w` is the word that is being read. -/
def fixedTokens? (w : List Char) : List Char → Option (List Token)
  | [] => if w.isEmpty then some [] else none
  | c :: cs =>
    if isNameChar c then if isWord (w ++ [c]) then fixedTokens? (w ++ [c]) cs else none
    else if isSpace c then (fixedTokens? [] cs).map (pendingWord w ++ ·)
    else if isPunct c && c != '-' && c != '/' then
      (fixedTokens? [] cs).map (pendingWord w ++ .punct c :: ·)
    else none

theorem token?_punct {c : Char} (h : isPunct c = true) (h₁ : c ≠ '-') (h₂ : c ≠ '/')
    (cs : List Char) : token? c cs = some (.punct c, cs) := by
  have hp := h
  simp only [isPunct, Bool.and_eq_true, Bool.not_eq_true', bne_iff_ne] at hp
  obtain ⟨⟨⟨-, hname⟩, hq⟩, hq'⟩ := hp
  have hs : isNameStart c = false := by
    cases hc : isNameStart c
    · rfl
    · rw [isNameChar_of_isNameStart hc] at hname
      cases hname
  have hd : c.isDigit = false := by
    cases hc : c.isDigit
    · rfl
    · rw [isNameChar_of_isDigit hc] at hname
      cases hname
  simp [token?, hs, hd, hq, hq', h₁, h₂, h]

theorem tokens?_pendingWord {w rest : List Char} (hw : w = [] ∨ isWord w = true)
    (hr : ∀ c ∈ rest.head?, isNameChar c = false) :
    tokens? (w ++ rest) = (tokens? rest).map (pendingWord w ++ ·) := by
  rcases hw with rfl | hw
  · simp [pendingWord]
  · rw [tokens?_word hw hr]
    cases w with
    | nil => cases hw
    | cons => rfl

/-- The invariant of reading a text that stands by itself: the word read so far is a word. -/
theorem tokens?_fixed {w cs : List Char} {ts : List Token} (hw : w = [] ∨ isWord w = true)
    (h : fixedTokens? w cs = some ts) (rest : List Char) :
    tokens? (w ++ (cs ++ rest)) = (tokens? rest).map (ts ++ ·) := by
  induction cs generalizing w ts with
  | nil =>
    simp only [fixedTokens?] at h
    split at h
    · rename_i he
      cases h
      simp [List.isEmpty_iff.mp he]
    · cases h
  | cons c cs ih =>
    simp only [fixedTokens?] at h
    split at h
    · split at h
      · rename_i hc
        simpa using ih (.inr hc) h
      · cases h
    rename_i hc
    rw [Bool.not_eq_true] at hc
    rw [tokens?_pendingWord hw (by simpa using hc), List.cons_append]
    split at h
    · rename_i hs
      obtain ⟨us, hus, rfl⟩ := Option.map_eq_some_iff.mp h
      have := ih (.inl rfl) hus
      rw [List.nil_append] at this
      rw [tokens?_space hs, this, Option.map_map]
      simp [Function.comp_def]
    rename_i hs
    rw [Bool.not_eq_true] at hs
    split at h
    · rename_i hp
      simp only [Bool.and_eq_true, bne_iff_ne] at hp
      obtain ⟨us, hus, rfl⟩ := Option.map_eq_some_iff.mp h
      have := ih (.inl rfl) hus
      rw [List.nil_append] at this
      rw [tokens?_token hs (token?_punct hp.1.1 hp.1.2 hp.2 _), this, Option.map_map,
        Option.map_map]
      simp [Function.comp_def]
    · cases h

theorem reads_fixed {text : String} {ts : List Token} (h : fixedTokens? [] text.toList = some ts)
    (rest : List Char) : Reads text ts rest :=
  tokens?_fixed (.inl rfl) h rest

/-! ## Quoted tokens -/

theorem doubled_cons (mark c : Char) (cs : List Char) :
    doubled mark (c :: cs) = (if c = mark then [mark, mark] else [c]) ++ doubled mark cs := rfl

theorem closing?_cons_of_ne {mark c : Char} (hc : c ≠ mark) (cs : List Char) :
    closing? mark (c :: cs) = (closing? mark cs).map fun (s, rest) => (c :: s, rest) := by
  cases cs <;> simp [closing?, hc]

/-- A quoted text is read back up to its own closing mark. -/
theorem closing?_doubled (mark : Char) (text : List Char) {rest : List Char}
    (hr : ∀ c ∈ rest.head?, c ≠ mark) :
    closing? mark (doubled mark text ++ mark :: rest) = some (text, rest) := by
  induction text with
  | nil =>
    cases rest with
    | nil => simp [doubled, closing?]
    | cons d ds => simp [doubled, closing?, hr d rfl]
  | cons c cs ih =>
    rw [doubled_cons]
    by_cases hc : c = mark
    · subst hc
      simp [closing?, ih]
    · simp [hc, closing?_cons_of_ne, ih]

/-- A quoted identifier is read back as the name, whatever the name holds. -/
theorem reads_name (name : String) {rest : List Char} (hr : ∀ c ∈ rest.head?, c ≠ '"') :
    Reads (quotedName name) [.name name] rest := by
  have ht : token? '"' (doubled '"' name.toList ++ '"' :: rest) = some (.name name, rest) := by
    show (closing? '"' _).map _ = _
    rw [closing?_doubled _ _ hr]
    simp
  unfold Reads quotedName quotedBy
  rw [String.toList_ofList, List.append_assoc]
  exact tokens?_token rfl ht

/-- A string literal is read back as the text, whatever the text holds. -/
theorem reads_text (text : String) {rest : List Char} (hr : ∀ c ∈ rest.head?, c ≠ '\'') :
    Reads (literal text) [.text text] rest := by
  have ht : token? '\'' (doubled '\'' text.toList ++ '\'' :: rest) = some (.text text, rest) := by
    show (closing? '\'' _).map _ = _
    rw [closing?_doubled _ _ hr]
    simp
  unfold Reads literal quotedBy
  rw [String.toList_ofList, List.append_assoc]
  exact tokens?_token rfl ht

end FilterSelect.Sql
