import FilterSelect.Json.Number

/-!
# Writing JSON

Compact text: no blanks, members in the order of the document. The arrays and objects that are
still open are kept on a stack, so nesting has no limit.
-/

namespace FilterSelect.Json

namespace Writer

/-- The form of a character within a string: quotes, backslashes and control characters are
escaped. -/
def escaped (c : Char) : List Char :=
  match c with
  | '"' => ['\\', '"']
  | '\\' => ['\\', '\\']
  | '\x08' => ['\\', 'b']
  | '\t' => ['\\', 't']
  | '\n' => ['\\', 'n']
  | '\x0c' => ['\\', 'f']
  | '\r' => ['\\', 'r']
  | c =>
    if c.toNat < 0x20 then
      ['\\', 'u', '0', '0', Nat.digitChar (c.toNat / 16), Nat.digitChar (c.toNat % 16)]
    else [c]

/-- A string between quotes. -/
def stringText (s : String) : String := String.ofList ('"' :: s.toList.flatMap escaped ++ ['"'])

/-- What remains to be written of an array or object that is open. -/
inductive Frame
  | items (rest : List Json)
  | members (rest : Members)

mutual

/-- The number of values in a document. -/
def weight : Json → Nat
  | .array items => 1 + itemsWeight items
  | .object members => 1 + membersWeight members
  | _ => 1

/-- The number of values in the items of an array. -/
def itemsWeight : List Json → Nat
  | [] => 0
  | v :: vs => weight v + 1 + itemsWeight vs

/-- The number of values in the members of an object. -/
def membersWeight : List (String × Json) → Nat
  | [] => 0
  | (_, v) :: ms => weight v + 1 + membersWeight ms

end

/-- The number of values that a frame still holds, and one for its end. -/
def Frame.weight : Frame → Nat
  | .items rest => itemsWeight rest + 1
  | .members rest => membersWeight rest + 1

/-- The number of values that the open frames still hold, and one for each end. -/
def stackWeight : List Frame → Nat
  | [] => 0
  | frame :: stack => frame.weight + stackWeight stack

/-- The text of a scalar, or the opening bracket of an array or object with the frame it leaves. -/
def opened : Json → String × Option Frame
  | .null => ("null", none)
  | .bool b => (if b then "true" else "false", none)
  | .number n => (n.text, none)
  | .string s => (stringText s, none)
  | .array items => ("[", some (.items items))
  | .object members => ("\x7b", some (.members members))

theorem weight_of_opened {v : Json} {frame : Frame} (h : (opened v).2 = some frame) :
    frame.weight = weight v := by
  cases v <;> simp_all [opened, weight] <;> subst h <;> simp [Frame.weight] <;> omega

/-- Writes what the open frames still hold, innermost first. `comma` tells whether a value came
before in the innermost frame. -/
def close (out : String) (comma : Bool) : List Frame → String
  | [] => out
  | .items [] :: stack => close (out ++ "]") true stack
  | .members [] :: stack => close (out ++ "\x7d") true stack
  | .items (v :: vs) :: stack =>
    let out := if comma then out ++ "," else out
    match _h : opened v with
    | (text, none) => close (out ++ text) true (.items vs :: stack)
    | (text, some frame) => close (out ++ text) false (frame :: .items vs :: stack)
  | .members ((k, v) :: ms) :: stack =>
    let out := (if comma then out ++ "," else out) ++ stringText k ++ ":"
    match _h : opened v with
    | (text, none) => close (out ++ text) true (.members ms :: stack)
    | (text, some frame) => close (out ++ text) false (frame :: .members ms :: stack)
termination_by stack => stackWeight stack
decreasing_by
  · simp only [stackWeight, Frame.weight]; omega
  · simp only [stackWeight, Frame.weight]; omega
  · simp only [stackWeight, Frame.weight, itemsWeight]; omega
  · simp only [stackWeight, weight_of_opened (congrArg Prod.snd _h)]
    simp only [Frame.weight, itemsWeight]; omega
  · simp only [stackWeight, Frame.weight, membersWeight]; omega
  · simp only [stackWeight, weight_of_opened (congrArg Prod.snd _h)]
    simp only [Frame.weight, membersWeight]; omega

end Writer

/-- The text of a document. -/
def text (v : Json) : String :=
  match Writer.opened v with
  | (text, none) => text
  | (text, some frame) => Writer.close text false [frame]

end FilterSelect.Json
