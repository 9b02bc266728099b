import FormulaLatex.Json.Basic

/-! Writing a JSON value as text, on one line or with one item or member a line. -/

namespace FormulaLatex.Json

/-- A character inside a string. Quotes, backslashes and control characters are escaped, the
last by a letter where there is one and else by lower-case hexadecimal digits; all other
characters stand for themselves.
-/
def escapeChar (c : Char) : List Char :=
  if c = '"' then ['\\', '"']
  else if c = '\\' then ['\\', '\\']
  else if c = '\x08' then ['\\', 'b']
  else if c = '\x0c' then ['\\', 'f']
  else if c = '\n' then ['\\', 'n']
  else if c = '\r' then ['\\', 'r']
  else if c = '\t' then ['\\', 't']
  else if c.toNat < 0x20 then
    ['\\', 'u', '0', '0', (c.toNat / 16).digitChar, (c.toNat % 16).digitChar]
  else [c]

/-- A text as a string, with its quotes. -/
def quote (text : String) : String :=
  String.ofList ('"' :: text.toList.flatMap escapeChar ++ ['"'])

/-- An unreadable string: half of a surrogate pair. -/
def unreadableText : String :=
  "\"\\ud800\""

mutual

/-- A value on one line, without any space. -/
def compact : Json → String
  | .null => "null"
  | .bool true => "true"
  | .bool false => "false"
  | .natural value => Nat.repr value
  | .number text => text
  | .string text => quote text
  | .array items => "[" ++ ",".intercalate (compactItems items) ++ "]"
  | .object members => "\x7b" ++ ",".intercalate (compactMembers members) ++ "\x7d"
  | .unreadable => unreadableText

/-- Items on one line each. -/
def compactItems : List Json → List String
  | [] => []
  | item :: rest => item.compact :: compactItems rest

/-- Members on one line each. -/
def compactMembers : List (String × Json) → List String
  | [] => []
  | (name, value) :: rest => (quote name ++ ":" ++ value.compact) :: compactMembers rest

end

/-- Lines between two brackets, each at the depth `indent` and all but the last followed by
a comma. Without any lines the brackets are written next to each other.
-/
def bracketed (opening closing : String) (indent : Nat) (lines : List String) : String :=
  let newLine := fun depth : Nat => "\n" ++ String.ofList (List.replicate (2 * depth) ' ')
  if lines.isEmpty then opening ++ closing
  else
    opening ++ newLine (indent + 1) ++ ("," ++ newLine (indent + 1)).intercalate lines ++
      newLine indent ++ closing

mutual

/-- A value with one item or member a line, indented by two spaces for each array or object
around it.
-/
def prettyAt (indent : Nat) : Json → String
  | .array items => bracketed "[" "]" indent (prettyItems (indent + 1) items)
  | .object members => bracketed "\x7b" "\x7d" indent (prettyMembers (indent + 1) members)
  | scalar => scalar.compact

/-- Items at a depth. -/
def prettyItems (indent : Nat) : List Json → List String
  | [] => []
  | item :: rest => item.prettyAt indent :: prettyItems indent rest

/-- Members at a depth. -/
def prettyMembers (indent : Nat) : List (String × Json) → List String
  | [] => []
  | (name, value) :: rest =>
      (quote name ++ ": " ++ value.prettyAt indent) :: prettyMembers indent rest

end

/-- A value with one item or member a line. -/
def pretty (value : Json) : String :=
  value.prettyAt 0

end FormulaLatex.Json
