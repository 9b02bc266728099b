import FormulaLatex.Json.Basic
import FormulaLatex.Json.Lexeme

/-! Reading a JSON value from text. Lexemes are read one after another and without going
back: a reading holds the arrays and objects that are still open, so nesting has no limit.
-/

namespace FormulaLatex.Json

/-- The members of an object in writing, the latest first. A name may lack a text. -/
abbrev Members := List (Option String × Json)

/-- An array or object that is still open around the value at hand, with the items or
members before that value, the latest first. In an object the value has a name.
-/
inductive Enclosure
  | array (items : List Json)
  | object (members : Members) (name : Option String)
  deriving Repr

/-- What a reading waits for. -/
inductive Phase
  /-- A value is due. -/
  | value
  /-- An array has just begun: a value, or its end. -/
  | firstItem
  /-- An object has just begun: the name of a member, or its end. -/
  | firstMember
  /-- The name of one more member is due. -/
  | member (members : Members)
  /-- The colon after the name of a member is due. -/
  | colon (members : Members) (name : Option String)
  /-- A value has been read: whatever may follow it. -/
  | continuation (value : Json)
  deriving Repr

/-- The state of reading: the open arrays and objects, the innermost first, and what is
waited for.
-/
structure Reading where
  enclosures : List Enclosure := []
  phase : Phase := .value
  deriving Repr

namespace Reading

/-- The members themselves, unless the name of one has no text. -/
def named? : Members → Option (List (String × Json))
  | [] => some []
  | (some name, value) :: rest => (named? rest).map ((name, value) :: ·)
  | (none, _) :: _ => none

/-- The object with given members, which is unreadable if the name of one has no text. -/
def objectOf (members : Members) : Json :=
  (named? members).elim .unreadable .object

/-- The value of a lexeme that is one by itself. -/
def scalar? : Lexeme → Option Json
  | .null => some .null
  | .bool value => some (.bool value)
  | .natural value => some (.natural value)
  | .number text => some (.number text)
  | .string text? => some (text?.elim .unreadable .string)
  | _ => none

/-- The reading after a lexeme at the place of a value. -/
def begin? (enclosures : List Enclosure) (lexeme : Lexeme) : Option Reading :=
  match lexeme with
  | .beginArray => some ⟨.array [] :: enclosures, .firstItem⟩
  | .beginObject => some ⟨enclosures, .firstMember⟩
  | _ => (scalar? lexeme).map fun value => ⟨enclosures, .continuation value⟩

/-- The reading after a lexeme at the place of the name of a member. -/
def name? (enclosures : List Enclosure) (members : Members) : Lexeme → Option Reading
  | .string text? => some ⟨enclosures, .colon members text?⟩
  | _ => none

/-- The reading after a lexeme that follows a value. -/
def extend? (enclosures : List Enclosure) (value : Json) (lexeme : Lexeme) : Option Reading :=
  match lexeme, enclosures with
  | .comma, .array items :: outer => some ⟨.array (value :: items) :: outer, .value⟩
  | .comma, .object members name :: outer => some ⟨outer, .member ((name, value) :: members)⟩
  | .endArray, .array items :: outer =>
      some ⟨outer, .continuation (.array (value :: items).reverse)⟩
  | .endObject, .object members name :: outer =>
      some ⟨outer, .continuation (objectOf ((name, value) :: members).reverse)⟩
  | _, _ => none

/-- The reading after one more lexeme, unless the lexeme cannot stand there. -/
def step? (reading : Reading) (lexeme : Lexeme) : Option Reading :=
  match reading.phase, reading.enclosures, lexeme with
  | .firstItem, .array [] :: outer, .endArray => some ⟨outer, .continuation (.array [])⟩
  | .value, enclosures, _ | .firstItem, enclosures, _ => begin? enclosures lexeme
  | .firstMember, enclosures, .endObject => some ⟨enclosures, .continuation (.object [])⟩
  | .firstMember, enclosures, _ => name? enclosures [] lexeme
  | .member members, enclosures, _ => name? enclosures members lexeme
  | .colon members name, enclosures, .colon => some ⟨.object members name :: enclosures, .value⟩
  | .colon _ _, _, _ => none
  | .continuation value, enclosures, _ => extend? enclosures value lexeme

/-- The value that has been read when the lexemes end, unless something is still open. -/
def finish? (reading : Reading) : Option Json :=
  match reading.phase, reading.enclosures with
  | .continuation value, [] => some value
  | _, _ => none

end Reading

/-- The value that a list of lexemes writes, if it writes one. -/
def ofLexemes? (lexemes : List Lexeme) : Option Json := do
  (← lexemes.foldlM Reading.step? {}).finish?

/-- The value that a text writes, if it writes one. -/
def ofText? (text : String) : Option Json := do
  ofLexemes? (← lexemes? text.toList)

end FormulaLatex.Json
