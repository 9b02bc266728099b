import FormulaLatex.Json.Basic

/-! Records in JSON. A record is an object with a member for each field, where members with
other names have no meaning, or an array of the values of its first fields.
-/

namespace FormulaLatex.Json

/-- The value of the member with a given name, if there is one. Nothing comes back if the
name is repeated.
-/
def uniqueMember? (members : List (String × Json)) (name : String) : Option (Option Json) :=
  match members.filter fun entry => entry.1 == name with
  | [] => some none
  | [entry] => some (some entry.2)
  | _ => none

/-- The values of the fields of a record in the order of their names, where a field without a
value is left to its default.
-/
def fields? (names : List String) : Json → Option (List (Option Json))
  | .object members => names.mapM (uniqueMember? members)
  | .array items =>
      if items.length ≤ names.length then
        some (items.map some ++ List.replicate (names.length - items.length) none)
      else none
  | _ => none

/-- What a field means, given its default and how its value is read. -/
def fieldOr {α : Type} (default : α) (read? : Json → Option α) : Option Json → Option α
  | none => some default
  | some value => read? value

/-- The truth value that a value is. -/
def toBool? : Json → Option Bool
  | .bool value => some value
  | _ => none

/-- The natural number below a bound that a value is. -/
def toNatBelow? (bound : Nat) : Json → Option Nat
  | .natural value => if value < bound then some value else none
  | _ => none

/-- The choice that a value names: a string, or an object with a null under the name. -/
def toChoice? {α : Type} (choices : List (String × α)) : Json → Option α
  | .string name | .object [(name, .null)] => choices.lookup name
  | _ => none

end FormulaLatex.Json
