import FilterSelect.Json.Number

/-!
# The tokens of a JSON text

A text is cut into tokens at once: brackets, commas and colons, strings, and words. A word is as
long a run of letters, or of the characters of numbers, as there is. Blanks between tokens are
spaces, tabs, line feeds and carriage returns, and nothing else.
-/

namespace FilterSelect.Json

/-- A token of a JSON text. -/
inductive Token
  | openArray
  | closeArray
  | openObject
  | closeObject
  | comma
  | colon
  | string (s : String)
  /-- A number, a truth value or null. -/
  | scalar (value : Json)

namespace Token

/-! ## Strings -/

/-- Cuts a text behind the mark that closes a string. A backslash takes the next character with
it. `body` is what came before, last first. -/
def closing? (body : List Char) : List Char → Option (List Char × List Char)
  | [] => none
  | '"' :: cs => some (body.reverse, cs)
  | '\\' :: c :: cs => closing? (c :: '\\' :: body) cs
  | c :: cs => closing? (c :: body) cs

/-- What follows a string is shorter than the text it was cut from. -/
theorem length_lt_of_closing? {body cs inside rest : List Char}
    (h : closing? body cs = some (inside, rest)) : rest.length < cs.length := by
  fun_induction closing? body cs <;> grind

/-- The character of an escape with a single letter. -/
def shortEscape? : Char → Option Char
  | '"' => some '"'
  | '\\' => some '\\'
  | '/' => some '/'
  | 'b' => some '\x08'
  | 'f' => some '\x0c'
  | 'n' => some '\n'
  | 'r' => some '\r'
  | 't' => some '\t'
  | _ => none

/-- The first half of a surrogate pair. -/
def isHighSurrogate (unit : Nat) : Bool := 0xD800 ≤ unit && unit < 0xDC00

/-- The second half of a surrogate pair. -/
def isLowSurrogate (unit : Nat) : Bool := 0xDC00 ≤ unit && unit < 0xE000

/-- The character of a surrogate pair. -/
def pairChar (high low : Nat) : Char :=
  Char.ofNat (0x10000 + (high - 0xD800) * 0x400 + (low - 0xDC00))

/-- The characters that the inside of a string stands for. Control characters have to be escaped,
and the halves of a surrogate pair may not stand alone. `done` is what came before, last first. -/
def unescape? (done : List Char) : List Char → Option (List Char)
  | [] => some done.reverse
  | '\\' :: 'u' :: a :: b :: c :: d :: cs =>
    match Numeral.number? 16 [a, b, c, d] with
    | none => none
    | some unit =>
      if isHighSurrogate unit then
        match cs with
        | '\\' :: 'u' :: a :: b :: c :: d :: cs =>
          match Numeral.number? 16 [a, b, c, d] with
          | none => none
          | some low => if isLowSurrogate low then unescape? (pairChar unit low :: done) cs else none
        | _ => none
      else if isLowSurrogate unit then none
      else unescape? (Char.ofNat unit :: done) cs
  | '\\' :: c :: cs =>
    match shortEscape? c with
    | none => none
    | some e => unescape? (e :: done) cs
  | c :: cs => if c.toNat < 0x20 || c = '\\' then none else unescape? (c :: done) cs

/-! ## Words and marks -/

/-- The characters that numbers are written with. -/
def isNumberChar (c : Char) : Bool :=
  c.isDigit || c == '-' || c == '+' || c == '.' || c == 'e' || c == 'E'

/-- The value of a word of letters. -/
def name? (word : List Char) : Option Json :=
  if word = ['n', 'u', 'l', 'l'] then some .null
  else if word = ['t', 'r', 'u', 'e'] then some (.bool true)
  else if word = ['f', 'a', 'l', 's', 'e'] then some (.bool false)
  else none

/-- The token of a single character. -/
def mark? : Char → Option Token
  | '[' => some .openArray
  | ']' => some .closeArray
  | '{' => some .openObject
  | '}' => some .closeObject
  | ',' => some .comma
  | ':' => some .colon
  | _ => none

/-- Whether a character may stand between tokens. -/
def isSpace (c : Char) : Bool := c == ' ' || c == '\n' || c == '\t' || c == '\r'

theorem length_dropWhile_lt (p : Char → Bool) (c : Char) (cs : List Char) (h : p c = true) :
    ((c :: cs).dropWhile p).length < (c :: cs).length := by
  have := (List.dropWhile_sublist (l := cs) p).length_le
  simp [h]; omega

/-- The tokens of a text; none when some part of it is no token. `done` is what came before, last
first. -/
def scan? (done : List Token) : List Char → Option (List Token)
  | [] => some done.reverse
  | c :: cs =>
    if isSpace c then scan? done cs
    else if c = '"' then
      match _h : closing? [] cs with
      | none => none
      | some (inside, rest) =>
        match unescape? [] inside with
        | none => none
        | some s => scan? (.string (String.ofList s) :: done) rest
    else if _h : isNumberChar c && c ≠ 'e' && c ≠ 'E' then
      match Number.read? ((c :: cs).takeWhile isNumberChar) with
      | none => none
      | some n => scan? (.scalar (.number n) :: done) ((c :: cs).dropWhile isNumberChar)
    else if _h : c.isAlpha then
      match name? ((c :: cs).takeWhile Char.isAlpha) with
      | none => none
      | some v => scan? (.scalar v :: done) ((c :: cs).dropWhile Char.isAlpha)
    else match mark? c with
      | none => none
      | some t => scan? (t :: done) cs
termination_by cs => cs.length
decreasing_by
  · simp
  · have := length_lt_of_closing? _h; simp only [List.length_cons]; omega
  · exact length_dropWhile_lt _ _ _ (by simp_all)
  · exact length_dropWhile_lt _ _ _ _h
  · simp

end Token

end FilterSelect.Json
