import FormulaLatex.Text.Blank
import FormulaLatex.Text.WordCharacter

/-! Calls that are recognized in running text, without reading the formula around them: a
name at the beginning of a word, and parentheses with no parentheses between them.
-/

namespace FormulaLatex.Quick

open Text

/-- The functions whose calls are recognized. -/
inductive Function
  | pi
  | sum
  | sqrt
  | average
  | sin
  | cos
  | tan
  | log
  deriving DecidableEq, Repr

namespace Function

/-- Every function, in the order in which a text is searched for calls. -/
def all : List Function :=
  [.pi, .sum, .sqrt, .average, .sin, .cos, .tan, .log]

/-- The name of a function in upper case. -/
def name : Function → List Char
  | .pi => ['P', 'I']
  | .sum => ['S', 'U', 'M']
  | .sqrt => ['S', 'Q', 'R', 'T']
  | .average => ['A', 'V', 'E', 'R', 'A', 'G', 'E']
  | .sin => ['S', 'I', 'N']
  | .cos => ['C', 'O', 'S']
  | .tan => ['T', 'A', 'N']
  | .log => ['L', 'O', 'G']

/-- Whether a call may have a given text between its parentheses: any text, but none other
than white space for the constant.
-/
def accepts (function : Function) (body : List Char) : Bool :=
  match function with
  | .pi => body.all isBlank
  | _ => true

/-- Stands for an opening parenthesis of the notation, so that a call around the notation is
still one without parentheses between its own.
-/
def keptOpening : Char := '\ue000'

/-- Stands for a closing parenthesis of the notation. -/
def keptClosing : Char := '\ue001'

/-- The command that begins the notation of a function. -/
def command : Function → List Char
  | .pi => ['\\', 'p', 'i']
  | .sum => ['\\', 's', 'u', 'm', '_']
  | .sqrt => ['\\', 's', 'q', 'r', 't']
  | .average => ['\\', 'o', 'v', 'e', 'r', 'l', 'i', 'n', 'e']
  | .sin => ['\\', 's', 'i', 'n']
  | .cos => ['\\', 'c', 'o', 's']
  | .tan => ['\\', 't', 'a', 'n']
  | .log => ['\\', 'l', 'o', 'g']

/-- A call in LaTeX, given the text between its parentheses: the command of the function, and
the text in braces or in the parentheses of the notation.
-/
def toLatex (function : Function) (body : List Char) : List Char :=
  match function with
  | .pi => function.command
  | .sum | .sqrt | .average => function.command ++ '\x7b' :: body ++ ['\x7d']
  | .sin | .cos | .tan | .log => function.command ++ keptOpening :: body ++ [keptClosing]

end Function

/-- Whether `c` is an upper-case letter of a name, in either case. The long s is a letter S
as well.
-/
def isLetter (letter c : Char) : Bool :=
  c == letter || c == letter.toLower || (letter == 'S' && c == 'ſ')

/-- The text after a name in upper case, if a text begins with the name in any case. -/
def afterName? : List Char → List Char → Option (List Char)
  | [], text => some text
  | _ :: _, [] => none
  | letter :: name, c :: text => if isLetter letter c then afterName? name text else none

/-- Whether `c` is a parenthesis. -/
def isParenthesis (c : Char) : Bool :=
  c == '(' || c == ')'

/-- What stands between the parentheses of a call and what stands after it, if a text begins
with a call of a function.
-/
def call? (function : Function) (text : List Char) : Option (List Char × List Char) :=
  match (afterName? function.name text).map trimStart with
  | some ('(' :: inside) =>
      let body := inside.takeWhile fun c => !isParenthesis c
      match inside.dropWhile fun c => !isParenthesis c with
      | ')' :: rest => if function.accepts body then some (body, rest) else none
      | _ => none
  | _ => none

/-- A name that has been recognized takes up the beginning of the text. -/
theorem afterName?_append {name text rest} (h : afterName? name text = some rest)
    : ∃ spelled, text = spelled ++ rest := by
  induction name generalizing text with
  | nil =>
      simp only [afterName?, Option.some.injEq] at h
      exact ⟨[], by simp [h]⟩
  | cons letter name ih =>
      cases text with
      | nil => simp [afterName?] at h
      | cons c text =>
          simp only [afterName?] at h
          split at h
          · obtain ⟨spelled, same⟩ := ih h
            exact ⟨c :: spelled, by simp [same]⟩
          · simp at h

/-- A call is what precedes an opening parenthesis, a body without parentheses, and a closing
parenthesis.
-/
theorem call?_append {function text body rest} (h : call? function text = some (body, rest))
    : ∃ front, text = front ++ '(' :: (body ++ ')' :: rest)
        ∧ ∀ c ∈ body, isParenthesis c = false := by
  unfold call? at h
  split at h
  case h_2 => simp at h
  rename_i inside opened
  simp only [Option.map_eq_some_iff] at opened
  obtain ⟨after, named, trimmed⟩ := opened
  obtain ⟨spelled, rfl⟩ := afterName?_append named
  split at h
  case h_2 => simp at h
  rename_i closed
  dsimp only at h
  split at h
  case isFalse => simp at h
  simp only [Option.some.injEq, Prod.mk.injEq] at h
  obtain ⟨rfl, rfl⟩ := h
  refine ⟨spelled ++ after.takeWhile isBlank, ?_, ?_⟩
  · rw [← closed, List.takeWhile_append_dropWhile, ← trimmed, trimStart, List.append_assoc,
      List.takeWhile_append_dropWhile]
  · intro c member
    simpa using List.all_eq_true.mp List.all_takeWhile c member

end FormulaLatex.Quick
