/-! JSON values. A natural number that is written with digits alone is kept apart from every
other number, of which only the spelling is kept. Objects keep their members in the order in
which they are written, repeated names included.
-/

namespace FormulaLatex

/-- A JSON value. A value is `unreadable` when it is well formed but has no meaning as a
text: a string with half of an escaped surrogate pair, or an object with a member so named.
-/
inductive Json
  | null
  | bool (value : Bool)
  | natural (value : Nat)
  | number (text : String)
  | string (text : String)
  | array (items : List Json)
  | object (members : List (String × Json))
  | unreadable
  deriving Inhabited, Repr

end FormulaLatex
