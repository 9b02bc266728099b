import FormulaLatex.Proofs.Latex.Escaping
import FormulaLatex.Proofs.Latex.Nesting

/-! Escaped text stays text. Read as LaTeX it consists of characters without a meaning of their own,
of signs that a backslash makes into such characters, and of commands that end with an empty group;
so wherever it stands, a group around it is closed by what comes after it and by nothing in it.
-/

namespace FormulaLatex.Latex

open Latex.Symbol

-----------------------------------------------------------------------------------------
-- What escaped text consists of
-----------------------------------------------------------------------------------------

/-- The characters with a meaning of their own in LaTeX text, the backslash and braces apart. -/
def specials : List Char :=
  ['#', '$', '%', '&', '_', '^', '~']

/-- The characters that a backslash makes into text. The caret and tilde are not among them: after a
backslash these are accents on what follows.
-/
def signs : List Char :=
  ['#', '$', '%', '&', '_', '\x7b', '\x7d']

/-- The commands that stand for a character and end with an empty group: one is a name, the others
are accents with nothing below them.
-/
def characterCommands : List (List Char) :=
  ["textbackslash".toList, "^".toList, "~".toList]

/-- Symbols in which no special character stands for itself, no brace stands but in the empty groups
that end commands, and a sign can only be a character of text.
-/
inductive TextOnly : List Symbol → Prop
  | nil : TextOnly []
  | character {c : Char} {rest : List Symbol} (plain : c ∉ ['\\', '^', '~'] ++ signs)
    (others : TextOnly rest)
    : TextOnly (.character c :: rest)
  | sign {c : Char} {rest : List Symbol} (special : c ∈ signs)
    (others : TextOnly rest)
    : TextOnly (.control [c] :: rest)
  | command {name : List Char} {rest : List Symbol} (known : name ∈ characterCommands)
    (others : TextOnly rest)
    : TextOnly (.control name :: .character '\x7b' :: .character '\x7d' :: rest)

/-- The symbols that are written for a character. -/
def escapedSymbols (c : Char) : List Symbol :=
  if c = '\\' then
    [.control "textbackslash".toList, .character '\x7b', .character '\x7d']
  else if c = '^' ∨ c = '~' then [.control [c], .character '\x7b', .character '\x7d']
  else if c ∈ signs then [.control [c]]
  else [.character c]

/-- What is written for a character is read as its symbols, whatever follows it. -/
theorem ofText?_escapeChar (c : Char) (rest : List Char)
    : ofText? (escapeChar c ++ rest) = (ofText? rest).map (escapedSymbols c ++ ·) := by
  by_cases backslash : c = '\\'
  · have letter : 't'.isAlpha = true := by
      decide
    have command := ofText?_letters letter ("extbackslash\x7b\x7d".toList ++ rest)
    rw [backslash]
    refine command.trans ?_
    simp [ofText?_character, escapedSymbols, Option.map_map, Function.comp_def]
  · by_cases accent : c = '^' ∨ c = '~'
    · have noLetter : ¬ c.isAlpha = true := by
        rcases accent with rfl | rfl <;> decide
      have written : escapeChar c = ['\\', c, '\x7b', '\x7d'] := by
        rcases accent with rfl | rfl <;> rfl
      have symbols : escapedSymbols c = [.control [c], .character '\x7b', .character '\x7d'] := by
        rw [escapedSymbols, if_neg backslash, if_pos accent]
      rw [written, symbols]
      refine (ofText?_sign noLetter ('\x7b' :: '\x7d' :: rest)).trans ?_
      simp [ofText?_character, Option.map_map, Function.comp_def]
    · obtain ⟨noCaret, noTilde⟩ := not_or.mp accent
      rw [escapeChar, ← signs, escapedSymbols, if_neg backslash, if_neg backslash, if_neg noCaret,
        if_neg noTilde, if_neg accent]
      split
      · rename_i special
        have noLetters : (signs.all fun sign => !sign.isAlpha) = true := by
          decide
        have noLetter := List.all_eq_true.mp noLetters c special
        exact ofText?_sign (by simpa using noLetter) rest
      · exact ofText?_character backslash rest

/-- Escaped text is read as the symbols of its characters, whatever follows it. -/
theorem ofText?_flatMap_escapeChar (text rest : List Char)
    : ofText? (text.flatMap escapeChar ++ rest)
        = (ofText? rest).map (text.flatMap escapedSymbols ++ ·) := by
  induction text with
  | nil => simp
  | cons c text ih =>
      rw [List.flatMap_cons, List.append_assoc, ofText?_escapeChar, ih, Option.map_map,
        List.flatMap_cons]
      simp [Function.comp_def]

theorem TextOnly.escapedSymbols_append (c : Char) {rest : List Symbol} (textOnly : TextOnly rest)
    : TextOnly (escapedSymbols c ++ rest) := by
  unfold escapedSymbols
  split
  · exact .command (by decide) textOnly
  · rename_i noBackslash
    split
    · rename_i accent
      refine .command ?_ textOnly
      rcases accent with rfl | rfl <;> decide
    · rename_i noAccent
      split
      · rename_i special
        exact .sign special textOnly
      · rename_i noSpecial
        exact .character (by simp_all) textOnly

theorem textOnly_flatMap_escapedSymbols (text : List Char)
    : TextOnly (text.flatMap escapedSymbols) := by
  induction text with
  | nil => exact .nil
  | cons c text ih =>
      rw [List.flatMap_cons]
      exact ih.escapedSymbols_append c

/-- No special character stands for itself. -/
theorem TextOnly.not_mem_of_mem_specials {symbols : List Symbol} (textOnly : TextOnly symbols)
    {c : Char} (special : c ∈ specials)
    : .character c ∉ symbols := by
  induction textOnly with
  | nil => exact List.not_mem_nil
  | character plain _ ih =>
      simp only [List.mem_cons, character.injEq, not_or]
      refine ⟨?_, ih⟩
      rintro rfl
      have covered : (specials.all fun c => (['\\', '^', '~'] ++ signs).contains c) = true := by
        decide
      exact plain (List.contains_iff_mem.mp (List.all_eq_true.mp covered _ special))
  | sign _ _ ih => simpa using ih
  | command _ _ ih =>
      have noBrace : '\x7b' ∉ specials ∧ '\x7d' ∉ specials := by
        decide
      simp only [List.mem_cons, reduceCtorEq, character.injEq, not_or, not_false_eq_true, true_and]
      exact ⟨fun same => noBrace.1 (same ▸ special), fun same => noBrace.2 (same ▸ special), ih⟩

-----------------------------------------------------------------------------------------
-- Groups
-----------------------------------------------------------------------------------------

/-- The symbols before the brace that closes a group and those after it, given those after the brace
that opens the group. `depth` is the number of groups in it that are open.
-/
def closeGroup? (depth : Nat) : List Symbol → Option (List Symbol × List Symbol)
  | [] => none
  | symbol :: rest =>
      let within := fun inner : List Symbol × List Symbol => (symbol :: inner.1, inner.2)
      if symbol = .character '\x7b' then (closeGroup? (depth + 1) rest).map within
      else if symbol = .character '\x7d' then
        match depth with
        | 0 => some ([], rest)
        | depth + 1 => (closeGroup? depth rest).map within
      else (closeGroup? depth rest).map within

theorem closeGroup?_cons_of_noBrace {symbol : Symbol} (noOpening : symbol ≠ .character '\x7b')
    (noClosing : symbol ≠ .character '\x7d') (depth : Nat) (rest : List Symbol)
    : closeGroup? depth (symbol :: rest)
        = (closeGroup? depth rest).map fun inner => (symbol :: inner.1, inner.2) := by
  rw [closeGroup?.eq_def]
  dsimp only
  rw [if_neg noOpening, if_neg noClosing]

theorem closeGroup?_control (name : List Char) (depth : Nat) (rest : List Symbol)
    : closeGroup? depth (.control name :: rest)
        = (closeGroup? depth rest).map fun inner => (.control name :: inner.1, inner.2) := by
  apply closeGroup?_cons_of_noBrace <;> nofun

/-- An empty group neither closes nor leaves open a group around it. -/
theorem closeGroup?_emptyGroup (depth : Nat) (rest : List Symbol)
    : closeGroup? depth (.character '\x7b' :: .character '\x7d' :: rest)
        = (closeGroup? depth rest).map fun inner =>
            (.character '\x7b' :: .character '\x7d' :: inner.1, inner.2) := by
  have opened : closeGroup? (depth + 1) (.character '\x7d' :: rest)
      = (closeGroup? depth rest).map fun inner => (.character '\x7d' :: inner.1, inner.2) := rfl
  rw [closeGroup?.eq_def]
  dsimp only
  rw [if_pos rfl, opened, Option.map_map]
  rfl

/-- A group in which such symbols stand is closed by what comes after them. -/
theorem TextOnly.closeGroup?_append {symbols : List Symbol} (textOnly : TextOnly symbols)
    (depth : Nat) (rest : List Symbol)
    : closeGroup? depth (symbols ++ rest)
        = (closeGroup? depth rest).map fun inner => (symbols ++ inner.1, inner.2) := by
  induction textOnly with
  | nil => simp
  | @character c others plain _ ih =>
      have noBrace : Symbol.character c ≠ .character '\x7b'
          ∧ Symbol.character c ≠ .character '\x7d' := by
        constructor <;> rintro ⟨⟩ <;> exact plain (by decide)
      rw [List.cons_append, closeGroup?_cons_of_noBrace noBrace.1 noBrace.2, ih, Option.map_map]
      rfl
  | sign _ _ ih =>
      rw [List.cons_append, closeGroup?_control, ih, Option.map_map]
      rfl
  | command _ _ ih =>
      rw [List.cons_append, closeGroup?_control, List.cons_append,
        List.cons_append, closeGroup?_emptyGroup, ih, Option.map_map, Option.map_map]
      rfl

-----------------------------------------------------------------------------------------
-- Escaping as an encoding
-----------------------------------------------------------------------------------------

/-- The text that is escaped can be recovered. -/
theorem unescape_escapeText (text : String)
    : String.ofList (unescape (escapeText text).toList) = text := by
  rw [escapeText, String.toList_ofList, unescape_flatMap_escapeChar, String.ofList_toList]

theorem escapeText_append (text other : String)
    : escapeText (text ++ other) = escapeText text ++ escapeText other := by
  simp [escapeText, String.toList_append, List.flatMap_append, String.ofList_append]

/-- Escaping is a faithful encoding: texts are escaped piece by piece and can be recovered, and
wherever escaped text stands it is read as symbols that are only text. None of the special
characters stands for itself in them, and a group around them, however deep, is closed by what comes
after them.
-/
theorem escapeText_faithful (text other : String)
    : escapeText (text ++ other) = escapeText text ++ escapeText other
      ∧ String.ofList (unescape (escapeText text).toList) = text
      ∧ Function.Injective escapeText
      ∧ ∃ symbols,
          (∀ rest,
            ofText? ((escapeText text).toList ++ rest) = (ofText? rest).map (symbols ++ ·))
          ∧ TextOnly symbols
          ∧ (∀ c ∈ specials, .character c ∉ symbols)
          ∧ ∀ depth after,
              closeGroup? depth (symbols ++ after)
                = (closeGroup? depth after).map fun inner =>
                    (symbols ++ inner.1, inner.2) := by
  have textOnly := textOnly_flatMap_escapedSymbols text.toList
  refine ⟨escapeText_append text other, unescape_escapeText text, ?_, _, fun rest => ?_, textOnly,
    fun _ special => textOnly.not_mem_of_mem_specials special, textOnly.closeGroup?_append⟩
  · have recovers : Function.LeftInverse (fun latex : String =>
        String.ofList (unescape latex.toList)) escapeText :=
      unescape_escapeText
    exact recovers.injective
  · rw [escapeText, String.toList_ofList]
    exact ofText?_flatMap_escapeChar text.toList rest

end FormulaLatex.Latex
