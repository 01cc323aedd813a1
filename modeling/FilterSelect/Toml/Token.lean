import FilterSelect.Toml.Quoted

/-!
# The tokens of a TOML document

Marks, strings, words and line ends. A word is a run of characters up to the next mark, blank or
line end, whatever they are; points stand alone, since they separate keys and digits alike. Only at
the start of a token does a quote open a string. Comments are dropped: a line end follows each of
them, or nothing. What a string or a word holds is not looked at before it is used.

* `Token.scan?`: the tokens of a document; none when a comment or a line end is broken.
-/

namespace FilterSelect.Toml

/-- A token of a TOML document. -/
inductive Token
  | dot
  | equals
  | comma
  | openBracket
  | closeBracket
  | openBrace
  | closeBrace
  /-- Spaces and tabs. -/
  | blank (cs : List Char)
  | newline
  /-- A string; none when it is broken. Only one on a single line can be a key. -/
  | string (s : Option String) (singleLine : Bool)
  | word (cs : List Char)

namespace Token

open Quoted

/-- Whether the character may stand in a word: it is no mark, blank or part of a line end, and
begins no comment. -/
def isWordChar (c : Char) : Bool :=
  !(['.', '=', ',', '[', ']', '\x7b', '\x7d', ' ', '\t', '#', '\r', '\n'].contains c)

/-- The token of a single character. -/
def mark? : Char → Option Token
  | '.' => some .dot
  | '=' => some .equals
  | ',' => some .comma
  | '[' => some .openBracket
  | ']' => some .closeBracket
  | '{' => some .openBrace
  | '}' => some .closeBrace
  | '\n' => some .newline
  | _ => none

/-- The tokens of a text. `done` is what came before, last first. -/
def scan? (done : List Token) : List Char → Option (List Token)
  | [] => some done.reverse
  | c :: cs =>
    if isSpace c then scan? (.blank (c :: cs.takeWhile isSpace) :: done) (cs.dropWhile isSpace)
    else if c = '#' then
      let rest := cs.dropWhile isPlain
      if rest.isEmpty || (lineEnd? rest).isSome then scan? done rest else none
    else if c = '"' || c = '\'' then
      let token := .string ((cut c cs).1.map String.ofList) (!hasLines c cs)
      scan? (token :: done) (cut c cs).2
    else if isWordChar c then
      scan? (.word (c :: cs.takeWhile isWordChar) :: done) (cs.dropWhile isWordChar)
    else if c = '\r' then
      match cs with
      | '\n' :: cs => scan? (.newline :: done) cs
      | _ => none
    else match mark? c with
      | some t => scan? (t :: done) cs
      | none => none
termination_by cs => cs.length
decreasing_by
  · have := (List.dropWhile_sublist (l := cs) isSpace).length_le; simp only [List.length_cons]; omega
  · have := (List.dropWhile_sublist (l := cs) isPlain).length_le; simp only [List.length_cons]; omega
  · have := length_cut_le c cs; simp only [List.length_cons]; omega
  · have := (List.dropWhile_sublist (l := cs) isWordChar).length_le; simp only [List.length_cons]; omega
  · simp only [List.length_cons]; omega
  · simp only [List.length_cons]; omega

end Token

end FilterSelect.Toml
