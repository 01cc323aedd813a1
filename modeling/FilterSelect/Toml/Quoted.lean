import FilterSelect.Number.Numeral

/-!
# Strings of a TOML document

A string stands between quotes of one kind. Double quotes allow escapes and single ones do not;
three in a row open a string of several lines, which three in a row close.

* `Quoted.cut`: where the string ends, and the text it stands for.
-/

namespace FilterSelect.Toml.Quoted

/-! ## Characters -/

/-- A space or a tab. -/
def isSpace (c : Char) : Bool := c == ' ' || c == '\t'

/-- Whether a string or a comment may hold the character as it stands: no control character but
the tab. -/
def isPlain (c : Char) : Bool := c == '\t' || (0x20 ≤ c.toNat && c.toNat ≠ 0x7F)

/-- A line end, and the rest. -/
def lineEnd? : List Char → Option (List Char)
  | '\n' :: cs => some cs
  | '\r' :: '\n' :: cs => some cs
  | _ => none

theorem length_lt_of_lineEnd? {cs rest : List Char} (h : lineEnd? cs = some rest) :
    rest.length < cs.length := by
  unfold lineEnd? at h
  split at h
  · simp only [Option.some.injEq] at h; rw [← h, List.length_cons]; omega
  · simp only [Option.some.injEq] at h; rw [← h, List.length_cons, List.length_cons]; omega
  · simp at h

/-! ## The inside -/

/-- The inside of a string without escapes. Line ends stay as they are. -/
def plain? (lines : Bool) (done : List Char) : List Char → Option (List Char)
  | [] => some done.reverse
  | '\r' :: '\n' :: cs => if lines then plain? lines ('\n' :: '\r' :: done) cs else none
  | '\n' :: cs => if lines then plain? lines ('\n' :: done) cs else none
  | c :: cs => if isPlain c then plain? lines (c :: done) cs else none

/-- The character of an escape with a single letter. -/
def shortEscape? : Char → Option Char
  | 'b' => some '\x08'
  | 't' => some '\t'
  | 'n' => some '\n'
  | 'f' => some '\x0c'
  | 'r' => some '\r'
  | 'e' => some '\x1b'
  | '"' => some '"'
  | '\\' => some '\\'
  | _ => none

/-- How many hexadecimal digits follow the letter of a long escape. -/
def longEscape? : Char → Option Nat
  | 'x' => some 2
  | 'u' => some 4
  | 'U' => some 8
  | _ => none

/-- The character with a code point in hexadecimal. -/
def codePoint? (digits : List Char) : Option Char :=
  match Numeral.number? 16 digits with
  | some n => if n < 0xD800 || (0xE000 ≤ n && n < 0x110000) then some (Char.ofNat n) else none
  | none => none

/-- The text behind the blanks and line ends at the start. -/
def afterGap : List Char → List Char
  | [] => []
  | '\r' :: '\n' :: cs => afterGap cs
  | c :: cs => if isSpace c || c == '\n' then afterGap cs else c :: cs

theorem length_afterGap_le (cs : List Char) : (afterGap cs).length ≤ cs.length := by
  fun_induction afterGap cs <;> grind

/-- The text behind a line end that a backslash takes away, with all blanks and line ends that
follow it. -/
def continued? (cs : List Char) : Option (List Char) :=
  (lineEnd? (cs.dropWhile isSpace)).map afterGap

theorem length_le_of_continued? {cs rest : List Char} (h : continued? cs = some rest) :
    rest.length ≤ cs.length := by
  obtain ⟨line, hl, rfl⟩ := Option.map_eq_some_iff.1 h
  have h₁ := length_lt_of_lineEnd? hl
  have h₂ := (List.dropWhile_sublist (l := cs) isSpace).length_le
  have h₃ := length_afterGap_le line
  omega

/-- What an escape stands for, given the text behind its backslash, and the rest. In a string of
several lines it may stand for nothing and take a line end away. -/
def escape? (lines : Bool) : List Char → Option (List Char × List Char)
  | [] => none
  | c :: cs =>
    match shortEscape? c, longEscape? c with
    | some e, _ => some ([e], cs)
    | none, some count =>
      if cs.length < count then none
      else (codePoint? (cs.take count)).map fun e => ([e], cs.drop count)
    | none, none => if lines then (continued? (c :: cs)).map fun rest => ([], rest) else none

theorem length_le_of_escape? {lines : Bool} {cs done rest : List Char}
    (h : escape? lines cs = some (done, rest)) : rest.length ≤ cs.length := by
  unfold escape? at h
  split at h
  · simp at h
  · split at h
    · simp_all
    · split at h
      · simp at h
      · obtain ⟨_, _, h⟩ := Option.map_eq_some_iff.1 h
        simp only [Prod.mk.injEq] at h
        rw [← h.2, List.length_drop, List.length_cons]; omega
    · split at h
      · obtain ⟨_, hc, h⟩ := Option.map_eq_some_iff.1 h
        simp only [Prod.mk.injEq] at h
        rw [← h.2]; exact length_le_of_continued? hc
      · simp at h

/-- The inside of a string with escapes. -/
def unescape? (lines : Bool) (done : List Char) : List Char → Option (List Char)
  | [] => some done.reverse
  | '\\' :: cs =>
    match _h : escape? lines cs with
    | some (e, rest) => unescape? lines (e.reverse ++ done) rest
    | none => none
  | '\r' :: '\n' :: cs => if lines then unescape? lines ('\n' :: '\r' :: done) cs else none
  | '\n' :: cs => if lines then unescape? lines ('\n' :: done) cs else none
  | c :: cs => if isPlain c then unescape? lines (c :: done) cs else none
termination_by cs => cs.length
decreasing_by
  · have := length_le_of_escape? _h; simp only [List.length_cons]; omega
  all_goals simp only [List.length_cons]; omega

/-- The text without the line end at its start. -/
def withoutLineEnd (cs : List Char) : List Char := (lineEnd? cs).getD cs

/-! ## The end -/

/-- The inside of a string on one line, and the text behind it. The string has no end when the line
ends first; the line end then stays. With `escapes`, a backslash takes a mark or a backslash that
follows it along, and `escaped` says that one comes before. `body` is what came before, last
first. -/
def closing (mark : Char) (escapes escaped : Bool) (body : List Char) :
    List Char → Option (List Char) × List Char
  | [] => (none, [])
  | c :: cs =>
    if escaped && (c = mark || c = '\\') then closing mark escapes false (c :: body) cs
    else if c = mark then (some body.reverse, cs)
    else if c = '\n' then (none, c :: cs)
    else closing mark escapes (escapes && c = '\\') (c :: body) cs

/-- The inside of a string of several lines, and the text behind the three marks that close it. One
or two marks more belong to the string. -/
def closingThree (mark : Char) (escapes escaped : Bool) (body : List Char) :
    List Char → Option (List Char) × List Char
  | [] => (none, [])
  | c :: cs =>
    if escaped && (c = mark || c = '\\') then closingThree mark escapes false (c :: body) cs
    else if c = mark && cs.take 2 = [mark, mark] then
      let further := ((cs.drop 2).take 2).takeWhile (· = mark)
      (some (body.reverse ++ further), cs.drop (2 + further.length))
    else closingThree mark escapes (escapes && c = '\\') (c :: body) cs

theorem length_closing_le (mark : Char) (escapes escaped : Bool) (body cs : List Char) :
    (closing mark escapes escaped body cs).2.length ≤ cs.length := by
  fun_induction closing mark escapes escaped body cs <;> grind

theorem length_closingThree_le (mark : Char) (escapes escaped : Bool) (body cs : List Char) :
    (closingThree mark escapes escaped body cs).2.length ≤ cs.length := by
  fun_induction closingThree mark escapes escaped body cs <;> grind

/-- Whether the string whose first mark comes before the text has several lines. -/
def hasLines (mark : Char) (cs : List Char) : Bool := cs.take 2 = [mark, mark]

/-- The text of the string whose first mark comes before a text, and what is behind the string. It
has no text when it has no end or holds what a string may not hold. -/
def cut (mark : Char) (cs : List Char) : Option (List Char) × List Char :=
  let escapes := mark == '"'
  let decode (lines : Bool) := if escapes then unescape? lines [] else plain? lines []
  if hasLines mark cs then
    let (inside, rest) := closingThree mark escapes false [] (cs.drop 2)
    (inside.bind fun inside => decode true (withoutLineEnd inside), rest)
  else
    let (inside, rest) := closing mark escapes false [] cs
    (inside.bind (decode false), rest)

theorem length_cut_le (mark : Char) (cs : List Char) : (cut mark cs).2.length ≤ cs.length := by
  unfold cut
  split
  · have := length_closingThree_le mark (mark == '"') false [] (cs.drop 2)
    simp only [List.length_drop] at this ⊢
    omega
  · exact length_closing_le mark (mark == '"') false [] cs

end FilterSelect.Toml.Quoted
