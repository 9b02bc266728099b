import FormulaLatex.Text.CodePointRanges

/-! White space: the Unicode property White_Space, trimming, and collapsing. -/

namespace FormulaLatex.Text

/-- The code points with the property White_Space, in ascending order. -/
def blankRanges : List (Nat × Nat) :=
  [(0x9, 0xD), (0x20, 0x20), (0x85, 0x85), (0xA0, 0xA0), (0x1680, 0x1680),
   (0x2000, 0x200A), (0x2028, 0x2029), (0x202F, 0x202F), (0x205F, 0x205F),
   (0x3000, 0x3000)]

/-- Whether a character is white space. -/
def isBlank (c : Char) : Bool :=
  memRanges blankRanges c.toNat

/-- A text without the white space at its beginning. -/
def trimStart (text : List Char) : List Char :=
  text.dropWhile isBlank

/-- A text without the white space at its end. -/
def trimEnd (text : List Char) : List Char :=
  (text.reverse.dropWhile isBlank).reverse

/-- A text without the white space at either end. -/
def trim (text : List Char) : List Char :=
  trimEnd (trimStart text)

/-- A text in which every run of white space is one space. `afterBlank` tells whether the
run that the text begins with, if it begins with one, has already been written.
-/
def collapseBlanksFrom (afterBlank : Bool) : List Char → List Char
  | [] => []
  | c :: rest =>
      if isBlank c then
        if afterBlank then collapseBlanksFrom true rest
        else ' ' :: collapseBlanksFrom true rest
      else c :: collapseBlanksFrom false rest

/-- A text in which every run of white space is one space. -/
def collapseBlanks (text : List Char) : List Char :=
  collapseBlanksFrom false text

end FormulaLatex.Text
