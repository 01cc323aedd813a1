import FilterSelect.Text.Unprintable
import FilterSelect.Text.Extending

/-!
# Quoted text in messages

A message shows a text between double quotes, so that its ends and its invisible characters can
be seen: five characters and the quotes have a backslash form, and a character that would not be
seen on its own is given by its code point in hexadecimal.
-/

namespace FilterSelect.Text

/-- Whether `c` is written by its code point: it leaves no mark, or attaches to its neighbour. -/
def isHidden (c : Char) : Bool :=
  if 0x20 ≤ c.toNat && c.toNat < 0x7F then false
  else unprintable.contains c || fillers.contains c || extending.contains c

/-- The form of one character within the quotes. -/
def escaped (c : Char) : List Char :=
  match c with
  | '\x00' => ['\\', '0']
  | '\t' => ['\\', 't']
  | '\n' => ['\\', 'n']
  | '\r' => ['\\', 'r']
  | '"' => ['\\', '"']
  | '\\' => ['\\', '\\']
  | c =>
    if isHidden c then ['\\', 'u', '\x7b'] ++ Nat.toDigits 16 c.toNat ++ ['\x7d'] else [c]

/-- The text between double quotes, each character in its escaped form. -/
def quoted (s : String) : String :=
  String.ofList ('"' :: s.toList.flatMap escaped ++ ['"'])

end FilterSelect.Text
