import FormulaLatex.Json.OfText
import FormulaLatex.Proofs.Json.Spelling

/-! Written JSON is read back. Reading the lexemes of a value gives the value, whatever is still
open around it, so its text, on one line or many, describes it.
-/

namespace FormulaLatex.Json

open Reading

-----------------------------------------------------------------------------------------
-- One lexeme at a time
-----------------------------------------------------------------------------------------

theorem foldlM_cons {lexeme : Lexeme} {reading next : Reading}
    (step : reading.step? lexeme = some next) (rest : List Lexeme)
    : (lexeme :: rest).foldlM step? reading = rest.foldlM step? next := by
  rw [List.foldlM_cons, step]
  rfl

/-- No value begins with the end of an array. -/
theorem exists_spell_cons (value : Json)
    : ∃ first more, value.spell = first :: more ∧ first ≠ .endArray := by
  cases value <;> exact ⟨_, _, rfl, nofun⟩

theorem intercalate_cons_eq_append (first : List Lexeme) (groups : List (List Lexeme))
    : ∃ more, [Lexeme.comma].intercalate (first :: groups) = first ++ more := by
  cases groups with
  | nil => exact ⟨[], by simp⟩
  | cons second groups =>
      rw [List.intercalate_cons_cons, List.append_assoc]
      exact ⟨_, rfl⟩

/-- The first item of an array is read as any other value. -/
theorem foldlM_firstItem (outer : List Enclosure) (item : Json) (rest : List Lexeme)
    : (item.spell ++ rest).foldlM step? ⟨.array [] :: outer, .firstItem⟩
        = (item.spell ++ rest).foldlM step? ⟨.array [] :: outer, .value⟩ := by
  obtain ⟨first, more, same, other⟩ := exists_spell_cons item
  have alike : step? ⟨.array [] :: outer, .firstItem⟩ first
      = step? ⟨.array [] :: outer, .value⟩ first := by
    cases first <;> first | rfl | contradiction
  rw [same, List.cons_append, List.foldlM_cons, List.foldlM_cons, alike]

/-- The first member of an object is read as any other member. -/
theorem foldlM_firstMember (enclosures : List Enclosure) (name : Option String)
    (rest : List Lexeme)
    : (Lexeme.string name :: rest).foldlM step? ⟨enclosures, .firstMember⟩
        = (Lexeme.string name :: rest).foldlM step? ⟨enclosures, .member []⟩ := by
  rw [List.foldlM_cons, List.foldlM_cons]
  rfl

/-- The members of an object in writing. -/
def Reading.written (members : List (String × Json)) : Members :=
  members.map fun member => (some member.1, member.2)

theorem objectOf_written (members : List (String × Json))
    : objectOf (written members) = .object members := by
  have named : named? (written members) = some members := by
    induction members with
    | nil => rfl
    | cons member rest ih =>
        rw [written, List.map_cons, ← written, named?, ih]
        rfl
  rw [objectOf, named]
  rfl

-----------------------------------------------------------------------------------------
-- Whole values
-----------------------------------------------------------------------------------------

mutual

/-- The lexemes of a value are read as the value, whatever is open around it. -/
theorem foldlM_spell (value : Json) (enclosures : List Enclosure) (rest : List Lexeme)
    : (value.spell ++ rest).foldlM step? ⟨enclosures, .value⟩
        = rest.foldlM step? ⟨enclosures, .continuation value⟩ := by
  cases value with
  | array items =>
      simp only [spell, List.cons_append, List.append_assoc, List.nil_append]
      refine (foldlM_cons rfl _).trans ?_
      cases items with
      | nil => exact foldlM_cons rfl rest
      | cons item items =>
          obtain ⟨more, same⟩ := intercalate_cons_eq_append item.spell (spellItems items)
          have read := foldlM_spellItems (item :: items) (List.cons_ne_nil _ _) enclosures [] rest
          rw [spellItems, same, List.append_assoc] at read ⊢
          rw [foldlM_firstItem]
          exact read
  | object members =>
      simp only [spell, List.cons_append, List.append_assoc, List.nil_append]
      refine (foldlM_cons rfl _).trans ?_
      cases members with
      | nil => exact foldlM_cons rfl rest
      | cons member members =>
          obtain ⟨more, same⟩ := intercalate_cons_eq_append
            (.string (some member.1) :: .colon :: member.2.spell) (spellMembers members)
          have read := foldlM_spellMembers (member :: members) (List.cons_ne_nil _ _)
            enclosures [] rest
          rw [spellMembers, same, List.append_assoc, List.cons_append] at read ⊢
          rw [foldlM_firstMember, ← objectOf_written]
          exact read
  | null => exact foldlM_cons rfl rest
  | bool value => exact foldlM_cons rfl rest
  | natural value => exact foldlM_cons rfl rest
  | number text => exact foldlM_cons rfl rest
  | string text => exact foldlM_cons rfl rest
  | unreadable => exact foldlM_cons rfl rest

theorem foldlM_spellItems (items : List Json) (some : items ≠ []) (outer : List Enclosure)
    (held : List Json) (rest : List Lexeme)
    : ([Lexeme.comma].intercalate (spellItems items) ++ (Lexeme.endArray :: rest)).foldlM step?
          ⟨.array held :: outer, .value⟩
        = rest.foldlM step? ⟨outer, .continuation (.array (held.reverse ++ items))⟩ := by
  cases items with
  | nil => contradiction
  | cons item items =>
      cases items with
      | nil =>
          rw [spellItems, spellItems, List.intercalate_singleton, foldlM_spell item]
          rw [foldlM_cons rfl, List.reverse_cons]
      | cons second items =>
          have read := foldlM_spellItems (second :: items) (List.cons_ne_nil _ _) outer
            (item :: held) rest
          rw [List.reverse_cons, List.append_assoc] at read
          rw [spellItems, spellItems, List.intercalate_cons_cons, ← spellItems, List.append_assoc,
            List.append_assoc, foldlM_spell item, List.singleton_append, foldlM_cons rfl]
          exact read

theorem foldlM_spellMembers (members : List (String × Json)) (some : members ≠ [])
    (outer : List Enclosure) (held : Members) (rest : List Lexeme)
    : ([Lexeme.comma].intercalate (spellMembers members) ++ (Lexeme.endObject :: rest)).foldlM step?
          ⟨outer, .member held⟩
        = rest.foldlM step?
            ⟨outer, .continuation (objectOf (held.reverse ++ written members))⟩ := by
  cases members with
  | nil => contradiction
  | cons member members =>
      obtain ⟨name, value⟩ := member
      cases members with
      | nil =>
          rw [spellMembers, spellMembers, List.intercalate_singleton, List.cons_append,
            foldlM_cons rfl, List.cons_append, foldlM_cons rfl, foldlM_spell value]
          rw [foldlM_cons rfl, List.reverse_cons]
          rfl
      | cons second members =>
          have read := foldlM_spellMembers (second :: members) (List.cons_ne_nil _ _) outer
            ((Option.some name, value) :: held) rest
          rw [List.reverse_cons, List.append_assoc] at read
          rw [spellMembers, spellMembers, List.intercalate_cons_cons, ← spellMembers,
            List.append_assoc, List.append_assoc, List.cons_append, foldlM_cons rfl,
            List.cons_append, foldlM_cons rfl, foldlM_spell value, List.singleton_append,
            foldlM_cons rfl]
          exact read

end

theorem ofLexemes?_spell (value : Json) : ofLexemes? value.spell = some value := by
  have read := foldlM_spell value [] []
  rw [List.append_nil] at read
  rw [ofLexemes?, read]
  rfl

/-- A text that consists of the lexemes of a value describes the value. -/
theorem ofText?_of_spells {text : String} {value : Json}
    (spells : Spells text.toList value.spell)
    : ofText? text = some value := by
  have read : lexemes? text.toList = some value.spell := by
    have whole := spells [] nofun
    simpa [lexemes?] using whole
  rw [ofText?, read]
  exact ofLexemes?_spell value

/-- A value can be read from its text on one line. -/
theorem ofText?_compact {value : Json} (numbers : value.spellable = true)
    : ofText? value.compact = some value :=
  ofText?_of_spells (spells_value value numbers).1

/-- A value can be read from its text with one item or member a line. -/
theorem ofText?_pretty {value : Json} (numbers : value.spellable = true)
    : ofText? value.pretty = some value :=
  ofText?_of_spells ((spells_value value numbers).2 0)

end FormulaLatex.Json
