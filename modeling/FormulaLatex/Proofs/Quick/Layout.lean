import FormulaLatex.Proofs.Text.Division
import FormulaLatex.Quick.Call

/-! Text laid out by its parentheses. A text whose parentheses are balanced is a sequence of
groups, with stretches without parentheses before, between and after them, and inside a group it
is such a text again. There is only one way to lay it out.
-/

namespace FormulaLatex.Quick

open Text

/-- How many groups are open after a text, if `depth` of them are open before it and the text
closes none but what is open.
-/
def openAfter? (opening closing : Char) : Nat → List Char → Option Nat
  | depth, [] => some depth
  | depth, c :: rest =>
      if c = opening then openAfter? opening closing (depth + 1) rest
      else if c = closing then
        match depth with
        | 0 => none
        | depth + 1 => openAfter? opening closing depth rest
      else openAfter? opening closing depth rest

/-- Whether every opening character of a text has a closing one after it, and the other way
round.
-/
def Balanced (opening closing : Char) (text : List Char) : Prop :=
  openAfter? opening closing 0 text = some 0

instance (opening closing : Char) : DecidablePred (Balanced opening closing) :=
  fun _ => inferInstanceAs (Decidable (_ = _))

-----------------------------------------------------------------------------------------
-- Stretches
-----------------------------------------------------------------------------------------

theorem plain_append_injective {front other rest otherRest : List Char}
    (plain : ∀ c ∈ front, isParenthesis c = false)
    (otherPlain : ∀ c ∈ other, isParenthesis c = false)
    (stops : ∀ c ∈ rest.head?, isParenthesis c = true)
    (otherStops : ∀ c ∈ otherRest.head?, isParenthesis c = true)
    (same : front ++ rest = other ++ otherRest)
    : front = other ∧ rest = otherRest := by
  refine append_injective_of_stops (p := fun c => !isParenthesis c) ?_ ?_ ?_ ?_ same
  · simpa using plain
  · simpa using otherPlain
  · simpa using stops
  · simpa using otherStops

/-- A text without parentheses. -/
@[ext]
structure Stretch where
  chars : List Char
  plain : ∀ c ∈ chars, isParenthesis c = false

namespace Stretch

def empty : Stretch :=
  ⟨[], by simp⟩

instance : Append Stretch where
  append front back :=
    ⟨front.chars ++ back.chars, List.forall_mem_append.mpr ⟨front.plain, back.plain⟩⟩

@[simp]
theorem chars_empty : empty.chars = [] :=
  rfl

@[simp]
theorem chars_append (front back : Stretch)
    : (front ++ back).chars = front.chars ++ back.chars :=
  rfl

/-- A text has one beginning up to its first parenthesis. -/
theorem append_injective {front other : Stretch} {rest otherRest : List Char}
    (stops : ∀ c ∈ rest.head?, isParenthesis c = true)
    (otherStops : ∀ c ∈ otherRest.head?, isParenthesis c = true)
    (same : front.chars ++ rest = other.chars ++ otherRest)
    : front = other ∧ rest = otherRest := by
  obtain ⟨chars, rests⟩ :=
    plain_append_injective front.plain other.plain stops otherStops same
  exact ⟨Stretch.ext chars, rests⟩

end Stretch

-----------------------------------------------------------------------------------------
-- Layouts
-----------------------------------------------------------------------------------------

/-- A text laid out by its parentheses: what stands before its first group, that group, and the
rest; or no group at all.
-/
inductive Layout
  | last (stretch : Stretch)
  | group (heading : Stretch) (inner rest : Layout)

namespace Layout

/-- The text that is laid out. -/
def text : Layout → List Char
  | last stretch => stretch.chars
  | group heading inner rest => heading.chars ++ '(' :: (inner.text ++ ')' :: rest.text)

/-- How many groups there are, inside others or not. -/
def size : Layout → Nat
  | last _ => 0
  | group _ inner rest => inner.size + rest.size + 1

/-- The layout of a text with a stretch before it. -/
def prepend (front : Stretch) : Layout → Layout
  | last stretch => last (front ++ stretch)
  | group heading inner rest => group (front ++ heading) inner rest

@[simp]
theorem text_prepend (front : Stretch) (layout : Layout)
    : (layout.prepend front).text = front.chars ++ layout.text := by
  cases layout <;> simp [prepend, text]

@[simp]
theorem size_prepend (front : Stretch) (layout : Layout)
    : (layout.prepend front).size = layout.size := by
  cases layout <;> rfl

/-- Whether a text can follow a layout: it is empty, or it closes a group around the layout. -/
def Closes (rest : List Char) : Prop :=
  ∀ c ∈ rest.head?, c = ')'

theorem closes_nil : Closes [] := by
  simp [Closes]

theorem closes_cons (rest : List Char) : Closes (')' :: rest) := by
  simp [Closes]

theorem Closes.stops {rest : List Char} (closes : Closes rest)
    : ∀ c ∈ rest.head?, isParenthesis c = true := by
  intro c first
  rw [closes c first]
  rfl

theorem text_append_injective {layout other : Layout} {rest otherRest : List Char}
    (closes : Closes rest) (otherCloses : Closes otherRest)
    (same : layout.text ++ rest = other.text ++ otherRest)
    : layout = other ∧ rest = otherRest := by
  have opens : ∀ tail : List Char, ∀ c ∈ ('(' :: tail).head?, isParenthesis c = true := by
    simp [isParenthesis]
  induction layout generalizing other rest otherRest with
  | last stretch =>
      cases other with
      | last otherStretch =>
          obtain ⟨rfl, tails⟩ := Stretch.append_injective closes.stops otherCloses.stops same
          exact ⟨rfl, tails⟩
      | group heading inner after =>
          simp only [text, List.append_assoc, List.cons_append] at same
          obtain ⟨_, rfl⟩ := Stretch.append_injective closes.stops (opens _) same
          exact absurd (closes '(' rfl) (by decide)
  | group heading inner after innerIh afterIh =>
      cases other with
      | last otherStretch =>
          simp only [text, List.append_assoc, List.cons_append] at same
          obtain ⟨_, rfl⟩ := Stretch.append_injective (opens _) otherCloses.stops same
          exact absurd (otherCloses '(' rfl) (by decide)
      | group otherHeading otherInner otherAfter =>
          simp only [text, List.append_assoc, List.cons_append] at same
          obtain ⟨rfl, inside⟩ := Stretch.append_injective (opens _) (opens _) same
          obtain ⟨rfl, outside⟩ := innerIh (closes_cons _) (closes_cons _) (List.cons.inj inside).2
          obtain ⟨rfl, tails⟩ := afterIh closes otherCloses (List.cons.inj outside).2
          exact ⟨rfl, tails⟩

/-- A text is laid out in one way. -/
theorem text_injective {layout other : Layout} (same : layout.text = other.text)
    : layout = other := by
  refine (text_append_injective closes_nil closes_nil ?_).1
  rw [same]

/-- A text that closes `depth` groups is a layout, and after each of their ends another one. -/
theorem exists_of_openAfter? {text : List Char} {depth : Nat}
    (balanced : openAfter? '(' ')' depth text = some 0)
    : ∃ (first : Layout) (more : List Layout), more.length = depth
      ∧ text = first.text ++ more.flatMap fun layout => ')' :: layout.text := by
  induction text generalizing depth with
  | nil =>
      obtain rfl := Option.some.inj balanced
      exact ⟨last .empty, [], rfl, rfl⟩
  | cons c rest ih =>
      rw [openAfter?.eq_def] at balanced
      dsimp only at balanced
      by_cases opening : c = '('
      · subst opening
        rw [if_pos rfl] at balanced
        obtain ⟨inner, more, lengths, shape⟩ := ih balanced
        obtain ⟨after, more, rfl⟩ := List.exists_cons_of_length_eq_add_one lengths
        refine ⟨group .empty inner after, more, Nat.succ.inj lengths, ?_⟩
        simp [Layout.text, shape]
      rw [if_neg opening] at balanced
      by_cases closing : c = ')'
      · subst closing
        rw [if_pos rfl] at balanced
        cases depth with
        | zero => cases balanced
        | succ depth =>
            obtain ⟨after, more, lengths, shape⟩ := ih balanced
            refine ⟨last .empty, after :: more, congrArg Nat.succ lengths, ?_⟩
            simp [Layout.text, shape]
      · rw [if_neg closing] at balanced
        obtain ⟨first, more, lengths, shape⟩ := ih balanced
        have plain : ∀ d ∈ [c], isParenthesis d = false := by
          simp [isParenthesis, opening, closing]
        refine ⟨first.prepend ⟨[c], plain⟩, more, lengths, ?_⟩
        simp [shape]

/-- A text with balanced parentheses can be laid out in exactly one way. -/
theorem existsUnique_of_balanced {text : List Char} (balanced : Balanced '(' ')' text)
    : ∃! layout : Layout, layout.text = text := by
  obtain ⟨layout, more, lengths, shape⟩ := exists_of_openAfter? balanced
  obtain rfl := List.length_eq_zero_iff.mp lengths
  refine ⟨layout, by simp [shape], fun other same => text_injective ?_⟩
  simp [same, shape]

end Layout

end FormulaLatex.Quick
