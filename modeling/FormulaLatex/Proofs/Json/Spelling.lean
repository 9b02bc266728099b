import Mathlib.Data.List.Forall2
import FormulaLatex.Proofs.Json.Numbers
import FormulaLatex.Proofs.Json.Strings

/-! The lexemes of a JSON value. On one line or with one item a line, the text that is written for
a value consists of them.
-/

namespace FormulaLatex.Json

-----------------------------------------------------------------------------------------
-- Lexemes of a value
-----------------------------------------------------------------------------------------

mutual

/-- The lexemes that write a value. -/
def spell : Json → List Lexeme
  | .null => [.null]
  | .bool value => [.bool value]
  | .natural value => [.natural value]
  | .number text => [.number text]
  | .string text => [.string (some text)]
  | .array items => .beginArray :: [Lexeme.comma].intercalate (spellItems items) ++ [.endArray]
  | .object members =>
      .beginObject :: [Lexeme.comma].intercalate (spellMembers members) ++ [.endObject]
  | .unreadable => [.string none]

/-- The lexemes of each item. -/
def spellItems : List Json → List (List Lexeme)
  | [] => []
  | item :: rest => item.spell :: spellItems rest

/-- The lexemes of each member. -/
def spellMembers : List (String × Json) → List (List Lexeme)
  | [] => []
  | (name, value) :: rest => (.string (some name) :: .colon :: value.spell) :: spellMembers rest

end

mutual

/-- Whether every number that is not natural has a spelling that is read as this number. -/
def spellable : Json → Bool
  | .number text => numberLexeme? text.toList == some (.number text, [])
  | .array items => allSpellable items
  | .object members => membersSpellable members
  | _ => true

/-- Whether this holds of every item. -/
def allSpellable : List Json → Bool
  | [] => true
  | item :: rest => item.spellable && allSpellable rest

/-- Whether this holds of the value of every member. -/
def membersSpellable : List (String × Json) → Bool
  | [] => true
  | (_, value) :: rest => value.spellable && membersSpellable rest

end

-----------------------------------------------------------------------------------------
-- Reading lexemes one after another
-----------------------------------------------------------------------------------------

/-- A text consists of given lexemes, whatever may follow it. -/
def Spells (text : List Char) (lexemes : List Lexeme) : Prop :=
  ∀ rest, Stops rest → lexemes? (text ++ rest) = (lexemes? rest).map (lexemes ++ ·)

theorem lexemes?_space {c : Char} (space : isSpace c = true) (rest : List Char)
    : lexemes? (c :: rest) = lexemes? rest := by
  rw [lexemes?, if_pos space]

theorem lexemes?_gap {gap : List Char} (space : ∀ c ∈ gap, isSpace c = true)
    (rest : List Char)
    : lexemes? (gap ++ rest) = lexemes? rest := by
  induction gap with
  | nil => rfl
  | cons c gap ih =>
      obtain ⟨first, others⟩ := List.forall_mem_cons.mp space
      rw [List.cons_append, lexemes?_space first, ih others]

theorem lexemes?_cons {c : Char} {tail rest : List Char} {lexeme : Lexeme}
    (visible : isSpace c = false) (read : lexeme? (c :: tail) = some (lexeme, rest))
    : lexemes? (c :: tail) = (lexemes? rest).map (lexeme :: ·) := by
  rw [lexemes?, if_neg (Bool.eq_false_iff.mp visible)]
  split
  · rename_i failed
    rw [read] at failed
    cases failed
  · rename_i found
    rw [read] at found
    cases found
    rfl

/-- A character is a lexeme by itself, whatever follows it. -/
def Marks (mark : Char) (lexeme : Lexeme) : Prop :=
  ∀ rest, lexemes? (mark :: rest) = (lexemes? rest).map (lexeme :: ·)

theorem marks_beginArray : Marks '[' .beginArray := fun _ => lexemes?_cons rfl rfl

theorem marks_endArray : Marks ']' .endArray := fun _ => lexemes?_cons rfl rfl

theorem marks_beginObject : Marks '\x7b' .beginObject := fun _ => lexemes?_cons rfl rfl

theorem marks_endObject : Marks '\x7d' .endObject := fun _ => lexemes?_cons rfl rfl

theorem marks_colon : Marks ':' .colon := fun _ => lexemes?_cons rfl rfl

theorem marks_comma : Marks ',' .comma := fun _ => lexemes?_cons rfl rfl

theorem lexemes?_quote (text : String) (rest : List Char)
    : lexemes? ((quote text).toList ++ rest)
        = (lexemes? rest).map (.string (some text) :: ·) := by
  have read := lexeme?_quote text rest
  simp only [quote, String.toList_ofList, List.cons_append] at read ⊢
  exact lexemes?_cons rfl read

/-- What is read as a number by itself is one lexeme, if nothing continues it. -/
theorem spells_of_numberLexeme? {text : List Char} {lexeme : Lexeme}
    (number : numberLexeme? text = some (lexeme, []))
    : Spells text [lexeme] := by
  intro rest stops
  have found : numberLexeme? (text ++ rest) = some (lexeme, rest) := by
    rw [numberLexeme?_append stops, number]
    rfl
  cases text with
  | nil => cases number
  | cons c text =>
      exact lexemes?_cons (isSpace_of_numberLexeme? found) (lexeme?_of_numberLexeme? found)

-----------------------------------------------------------------------------------------
-- Written values
-----------------------------------------------------------------------------------------

theorem Stops.gap {gap : List Char} (space : ∀ c ∈ gap, isSpace c = true) {rest : List Char}
    (stops : Stops rest)
    : Stops (gap ++ rest) := by
  cases gap with
  | nil => exact stops
  | cons c gap =>
      intro d first
      obtain rfl : c = d := by simpa using first
      exact Or.inl (space c List.mem_cons_self)

/-- Parts with a comma and space between them are written as their lexemes with commas between
them.
-/
theorem spells_intercalate {gap : List Char} (space : ∀ c ∈ gap, isSpace c = true)
    {parts : List (List Char)} {groups : List (List Lexeme)}
    (aligned : List.Forall₂ Spells parts groups)
    : Spells ((',' :: gap).intercalate parts) ([Lexeme.comma].intercalate groups) := by
  induction aligned with
  | nil => exact fun rest _ => by simp
  | @cons part group parts groups first others ih =>
      cases others with
      | nil => simpa using first
      | @cons second other parts groups _ _ =>
          intro rest stops
          rw [List.intercalate_cons_cons, List.intercalate_cons_cons]
          simp only [List.append_assoc, List.cons_append, List.nil_append]
          rw [first _ (by simp [Stops]), marks_comma, lexemes?_gap space, ih rest stops]
          simp only [Option.map_map]
          rfl

/-- Parts between brackets are written as their lexemes between those of the brackets. -/
theorem spells_bracketed {opening closing : Char} {first last : Lexeme}
    (opens : Marks opening first) (closes : Marks closing last)
    (ends : closing = ']' ∨ closing = '\x7d') {gap before after : List Char}
    (space : ∀ c ∈ gap, isSpace c = true) (spaceBefore : ∀ c ∈ before, isSpace c = true)
    (spaceAfter : ∀ c ∈ after, isSpace c = true)
    {parts : List (List Char)} {groups : List (List Lexeme)}
    (aligned : List.Forall₂ Spells parts groups)
    : Spells (opening :: before ++ (',' :: gap).intercalate parts ++ after ++ [closing])
        (first :: [Lexeme.comma].intercalate groups ++ [last]) := by
  intro rest _
  have stops : Stops (after ++ closing :: rest) := by
    refine Stops.gap spaceAfter fun c same => ?_
    obtain rfl : closing = c := by simpa using same
    exact Or.inr (Or.inr ends)
  simp only [List.append_assoc, List.cons_append, List.nil_append]
  rw [opens, lexemes?_gap spaceBefore, spells_intercalate space aligned _ stops,
    lexemes?_gap spaceAfter, closes]
  simp only [Option.map_map]
  congr 1

/-- A member is written as its name, a colon and its value, with space before the value or not. -/
theorem spells_member {value : List Char} {lexemes : List Lexeme} (name : String)
    (spells : Spells value lexemes) {gap : List Char} (space : ∀ c ∈ gap, isSpace c = true)
    : Spells ((quote name).toList ++ ':' :: gap ++ value)
        (.string (some name) :: .colon :: lexemes) := by
  intro rest stops
  simp only [List.append_assoc, List.cons_append]
  rw [lexemes?_quote, marks_colon, lexemes?_gap space, spells rest stops]
  simp only [Option.map_map]
  rfl

theorem isSpace_nothing : ∀ c ∈ ([] : List Char), isSpace c = true := nofun

/-- Indentation is space. -/
theorem isSpace_newLine (depth : Nat)
    : ∀ c ∈ '\n' :: List.replicate (2 * depth) ' ', isSpace c = true := by
  intro c member
  rcases List.mem_cons.mp member with rfl | blank
  · rfl
  · rw [List.eq_of_mem_replicate blank]
    rfl

theorem spells_lines {opening closing : String} {begins ends : Char} {first last : Lexeme}
    (openingText : opening.toList = [begins]) (closingText : closing.toList = [ends])
    (opens : Marks begins first) (closes : Marks ends last)
    (bracket : ends = ']' ∨ ends = '\x7d') (indent : Nat) {lines : List String}
    {groups : List (List Lexeme)}
    (aligned : List.Forall₂ Spells (lines.map String.toList) groups)
    : Spells (bracketed opening closing indent lines).toList
        (first :: [Lexeme.comma].intercalate groups ++ [last]) := by
  rw [bracketed]
  cases lines with
  | nil =>
      cases aligned
      simpa [openingText, closingText] using
        spells_bracketed opens closes bracket isSpace_nothing isSpace_nothing isSpace_nothing .nil
  | cons line lines =>
      have spelled := spells_bracketed opens closes bracket (isSpace_newLine (indent + 1))
        (isSpace_newLine (indent + 1)) (isSpace_newLine indent) aligned
      simpa [openingText, closingText, String.toList_intercalate] using spelled

mutual

/-- A value is written as its lexemes, on one line or with one item or member a line. -/
theorem spells_value (value : Json) (numbers : value.spellable = true)
    : Spells value.compact.toList value.spell
      ∧ ∀ indent, Spells (value.prettyAt indent).toList value.spell := by
  cases value with
  | null =>
      have spelled : Spells "null".toList [.null] := fun _ _ => lexemes?_cons rfl rfl
      exact ⟨spelled, fun _ => spelled⟩
  | bool value =>
      have spelled : Spells (Json.bool value).compact.toList [.bool value] := by
        cases value <;> exact fun _ _ => lexemes?_cons rfl rfl
      exact ⟨spelled, fun _ => spelled⟩
  | natural value =>
      have spelled : Spells (Nat.repr value).toList [.natural value] := by
        rw [Nat.toList_repr]
        exact spells_of_numberLexeme? (numberLexeme?_toDigits value)
      exact ⟨spelled, fun _ => spelled⟩
  | number text =>
      have spelled : Spells text.toList [.number text] :=
        spells_of_numberLexeme? (eq_of_beq numbers)
      exact ⟨spelled, fun _ => spelled⟩
  | string text =>
      have spelled : Spells (quote text).toList [.string (some text)] :=
        fun rest _ => lexemes?_quote text rest
      exact ⟨spelled, fun _ => spelled⟩
  | array items =>
      rw [spellable] at numbers
      obtain ⟨compact, pretty⟩ := spells_items items numbers
      constructor
      · have spelled := spells_bracketed marks_beginArray marks_endArray (Or.inl rfl)
          isSpace_nothing isSpace_nothing isSpace_nothing compact
        simpa [Json.compact, spell, String.toList_intercalate] using spelled
      · intro indent
        rw [prettyAt]
        exact spells_lines rfl rfl marks_beginArray marks_endArray (Or.inl rfl) indent
          (pretty (indent + 1))
  | object members =>
      rw [spellable] at numbers
      obtain ⟨compact, pretty⟩ := spells_members members numbers
      constructor
      · have spelled := spells_bracketed marks_beginObject marks_endObject (Or.inr rfl)
          isSpace_nothing isSpace_nothing isSpace_nothing compact
        simpa [Json.compact, spell, String.toList_intercalate] using spelled
      · intro indent
        rw [prettyAt]
        exact spells_lines rfl rfl marks_beginObject marks_endObject (Or.inr rfl) indent
          (pretty (indent + 1))
  | unreadable =>
      have spelled : Spells unreadableText.toList [.string none] :=
        fun _ _ => lexemes?_cons rfl rfl
      exact ⟨spelled, fun _ => spelled⟩

theorem spells_items (items : List Json) (numbers : allSpellable items = true)
    : List.Forall₂ Spells ((compactItems items).map String.toList) (spellItems items)
      ∧ ∀ indent,
          List.Forall₂ Spells ((prettyItems indent items).map String.toList)
            (spellItems items) := by
  cases items with
  | nil => exact ⟨.nil, fun _ => .nil⟩
  | cons item rest =>
      rw [allSpellable, Bool.and_eq_true] at numbers
      obtain ⟨compact, pretty⟩ := spells_value item numbers.1
      obtain ⟨compactRest, prettyRest⟩ := spells_items rest numbers.2
      exact ⟨.cons compact compactRest, fun indent => .cons (pretty indent) (prettyRest indent)⟩

theorem spells_members (members : List (String × Json))
    (numbers : membersSpellable members = true)
    : List.Forall₂ Spells ((compactMembers members).map String.toList) (spellMembers members)
      ∧ ∀ indent,
          List.Forall₂ Spells ((prettyMembers indent members).map String.toList)
            (spellMembers members) := by
  cases members with
  | nil => exact ⟨.nil, fun _ => .nil⟩
  | cons member rest =>
      obtain ⟨name, value⟩ := member
      rw [membersSpellable, Bool.and_eq_true] at numbers
      obtain ⟨compact, pretty⟩ := spells_value value numbers.1
      obtain ⟨compactRest, prettyRest⟩ := spells_members rest numbers.2
      constructor
      · refine .cons ?_ compactRest
        simpa using spells_member name compact isSpace_nothing
      · intro indent
        refine .cons ?_ (prettyRest indent)
        have gap : ∀ c ∈ [' '], isSpace c = true := by
          intro c member
          rw [List.mem_singleton.mp member]
          rfl
        simpa using spells_member name (pretty indent) gap

end

end FormulaLatex.Json
