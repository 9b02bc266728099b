import Std.Data.String.ToNat
import FormulaLatex.CommandLine.Request

/-! Command lines in words. A command line of a subcommand gives settings and a formula in any
order, and most settings can be worded in several ways. What the settings mean is stated here by
looking them up, without regard to their order or to how they are read.
-/

namespace FormulaLatex.CommandLine

open Text

/-- A setting other than a request for help, with what it is set to. -/
inductive Given
  | flag (flag : Flag)
  | rename (reference symbol : String)
  | renameFile (path : String)
  | decimal (style : DecimalStyle)
  | separators (separators : DecimalSeparators)
  | maxDepth (limit : Nat)
  deriving DecidableEq, Repr

namespace Given

/-- The setting that is given. -/
def setting : Given → Setting
  | .flag set => .flag set
  | .rename _ _ => .option .rename
  | .renameFile _ => .option .renameFile
  | .decimal _ => .option .decimal
  | .separators _ => .option .separators
  | .maxDepth _ => .option .maxDepth

/-- The rename that is given, if it is one. -/
@[simp]
def rename? : Given → Option (String × String)
  | .rename reference symbol => some (reference, symbol)
  | _ => none

/-- The rename file that is given, if it is one. -/
@[simp]
def renameFile? : Given → Option String
  | .renameFile path => some path
  | _ => none

/-- The decimal style that is given, if it is one. -/
@[simp]
def decimalStyle? : Given → Option DecimalStyle
  | .decimal style => some style
  | _ => none

/-- The decimal separators that are given, if it is they. -/
@[simp]
def decimalSeparators? : Given → Option DecimalSeparators
  | .separators accepted => some accepted
  | _ => none

/-- The limit on nesting that is given, if it is one. -/
@[simp]
def maxDepth? : Given → Option Nat
  | .maxDepth limit => some limit
  | _ => none

end Given

-----------------------------------------------------------------------------------------
-- What settings mean
-----------------------------------------------------------------------------------------

/-- Whether no setting is given twice, renames apart. -/
def Once (given : List Given) : Prop :=
  given.Pairwise fun first second =>
    first.setting = second.setting → second.setting = .option .rename

instance : DecidablePred Once :=
  fun given => inferInstanceAs (Decidable (given.Pairwise _))

/-- How settings have a formula split into tokens. -/
def tokenizerOf (given : List Given) : TokenizerOptions where
  decimalSeparators := (given.findSome? Given.decimalSeparators?).getD .point
  comparisons := .flag .strictOperators ∉ given

/-- How settings have a formula converted. -/
def optionsOf (given : List Given) : ConvertOptions where
  tokenizer := tokenizerOf given
  reader := {
    maxDepth := (given.findSome? Given.maxDepth?).getD 64
    powerAssociativity := if .flag .rightAssocPower ∈ given then .right else .left
  }
  render := { decimalStyle := (given.findSome? Given.decimalStyle?).getD .comma }
  mode := if .flag .quick ∈ given then .quick else .precise

/-- The renames that are given, in order. -/
def renamesOf (given : List Given) : List (String × String) :=
  given.filterMap Given.rename?

/-- The rename file that is given, if there is one. -/
def renameFileOf? (given : List Given) : Option String :=
  given.findSome? Given.renameFile?

-----------------------------------------------------------------------------------------
-- How settings are worded
-----------------------------------------------------------------------------------------

/-- What the value of an option sets. A rename has its symbol after the first equals sign, and
white space around the reference has no meaning; a natural number is worded in digits.
-/
inductive ValueOption.Takes : ValueOption → String → Given → Prop
  | rename {value : String} {before symbol : List Char}
    (spelled : value.toList = before ++ '=' :: symbol) (first : '=' ∉ before)
    (named : trim before ≠ [])
    : Takes .rename value (.rename (String.ofList (trim before)) (String.ofList symbol))
  | renameFile {path : String} (named : path ≠ "") : Takes .renameFile path (.renameFile path)
  | decimal (style : DecimalStyle) : Takes .decimal style.name (.decimal style)
  | separators (separators : DecimalSeparators)
    : Takes .separators separators.name (.separators separators)
  | maxDepth {value : String} {digits : List Char}
    (spelled : value.toList = digits ∨ value.toList = '+' :: digits) (nonempty : digits ≠ [])
    (areDigits : ∀ c ∈ digits, c.isDigit = true)
    (bounded : Nat.ofDigitChars 10 digits 0 < ReaderOptions.depthBound)
    : Takes .maxDepth value (.maxDepth (Nat.ofDigitChars 10 digits 0))

/-- Whether a subcommand has a setting, help apart. -/
def Subcommand.Has (subcommand : Subcommand) (setting : Setting) : Prop :=
  setting ∈ subcommand.settings ∧ setting ≠ .flag .help

/-- Letters that stand for flags of a subcommand. -/
inductive Subcommand.Letters (subcommand : Subcommand) : List Char → List Flag → Prop
  | nil : Letters subcommand [] []
  | cons {letter : Char} {flag : Flag} {letters : List Char} {flags : List Flag}
    (has : subcommand.Has (.flag flag)) (short : (Setting.flag flag).short? = some letter)
    (others : Letters subcommand letters flags)
    : Letters subcommand (letter :: letters) (flag :: flags)

/-- Words that name an option, after flags if they do so by its letter. -/
inductive Subcommand.Names (subcommand : Subcommand) : List Char → List Flag → ValueOption → Prop
  | long {option : ValueOption} (has : subcommand.Has (.option option))
    : Names subcommand ('-' :: '-' :: (Setting.option option).long.toList) [] option
  | short {letters : List Char} {flags : List Flag} {letter : Char} {option : ValueOption}
    (clustered : subcommand.Letters letters flags) (has : subcommand.Has (.option option))
    (short : (Setting.option option).short? = some letter)
    : Names subcommand ('-' :: (letters ++ [letter])) flags option

/-- Whether a word cannot be taken for a setting. -/
def Unhyphenated (word : String) : Prop :=
  ∀ c rest, word.toList ≠ '-' :: c :: rest

/-- Words that give settings together: a flag by its name, flags by their letters, or an option
with its value after an equals sign, in a word of its own, or right after its letter.
-/
inductive Subcommand.Phrase (subcommand : Subcommand) : List String → List Given → Prop
  | flag {flag : Flag} (has : subcommand.Has (.flag flag))
    : Phrase subcommand ["--" ++ (Setting.flag flag).long] [.flag flag]
  | letters {letters : List Char} {flags : List Flag}
    (clustered : subcommand.Letters letters flags) (nonempty : letters ≠ [])
    : Phrase subcommand [String.ofList ('-' :: letters)] (flags.map .flag)
  | equals {front : List Char} {flags : List Flag} {option : ValueOption} {value : String}
    {given : Given} (names : subcommand.Names front flags option)
    (takes : option.Takes value given)
    : Phrase subcommand [String.ofList (front ++ '=' :: value.toList)]
        (flags.map .flag ++ [given])
  | apart {front : List Char} {flags : List Flag} {option : ValueOption} {value : String}
    {given : Given} (names : subcommand.Names front flags option)
    (takes : option.Takes value given) (unhyphenated : Unhyphenated value)
    : Phrase subcommand [String.ofList front, value] (flags.map .flag ++ [given])
  | attached {letters : List Char} {flags : List Flag} {letter : Char} {option : ValueOption}
    {value : String} {given : Given} (clustered : subcommand.Letters letters flags)
    (has : subcommand.Has (.option option))
    (short : (Setting.option option).short? = some letter) (takes : option.Takes value given)
    (nonempty : value ≠ "") (noEquals : value.toList.head? ≠ some '=')
    : Phrase subcommand [String.ofList ('-' :: (letters ++ letter :: value.toList))]
        (flags.map .flag ++ [given])

/-- Command lines of a subcommand, with the settings and the formula that they give. The formula
can stand anywhere, but one that could be taken for a setting has to follow two hyphens.
-/
inductive Subcommand.Wording (subcommand : Subcommand)
    : List String → List Given → Option String → Prop
  | nil : Wording subcommand [] [] none
  | settings {words rest : List String} {given more : List Given} {formula? : Option String}
    (first : subcommand.Phrase words given) (others : Wording subcommand rest more formula?)
    : Wording subcommand (words ++ rest) (given ++ more) formula?
  | formula {formula : String} {rest : List String} {more : List Given}
    (unhyphenated : Unhyphenated formula) (others : Wording subcommand rest more none)
    : Wording subcommand (formula :: rest) more (some formula)
  | hyphens : Wording subcommand ["--"] [] none
  | afterHyphens (formula : String) : Wording subcommand ["--", formula] [] (some formula)

-----------------------------------------------------------------------------------------
-- How values are read
-----------------------------------------------------------------------------------------

theorem splitAtEquals?_append {before : List Char} (first : '=' ∉ before) (after : List Char)
    : splitAtEquals? (before ++ '=' :: after) = some (before, after) := by
  have plain : ∀ c ∈ before, (c != '=') = true := by
    intro c member
    exact bne_iff_ne.mpr fun same => first (same ▸ member)
  rw [splitAtEquals?, List.dropWhile_append_of_pos plain, List.takeWhile_append_of_pos plain]
  simp

theorem splitAtEquals?_eq_none {text : List Char} (absent : '=' ∉ text)
    : splitAtEquals? text = none := by
  have plain : ∀ c ∈ text, (c != '=') = true := by
    intro c member
    exact bne_iff_ne.mpr fun same => absent (same ▸ member)
  have passed : (text ++ []).dropWhile (fun c => c != '=') = [] :=
    List.dropWhile_append_of_pos plain
  rw [List.append_nil] at passed
  rw [splitAtEquals?, passed]

theorem parseRename_eq {value : String} {before symbol : List Char}
    (spelled : value.toList = before ++ '=' :: symbol) (first : '=' ∉ before)
    (named : trim before ≠ [])
    : parseRename value = .ok (String.ofList (trim before), String.ofList symbol) := by
  rw [parseRename, spelled, splitAtEquals?_append first]
  dsimp only
  rw [if_neg (by simpa using named)]

/-- Digits only add to a number. -/
theorem le_ofDigitChars (digits : List Char) (start : Nat)
    : start ≤ Nat.ofDigitChars 10 digits start := by
  induction digits generalizing start with
  | nil => exact Nat.le_refl _
  | cons c rest ih =>
      rw [Nat.ofDigitChars_cons]
      exact Nat.le_trans (by omega) (ih _)

theorem parseDigits_eq {bound : Nat} {digits : List Char}
    (areDigits : ∀ c ∈ digits, c.isDigit = true) {start : Nat}
    (bounded : Nat.ofDigitChars 10 digits start < bound)
    : parseDigits bound start digits = .ok (Nat.ofDigitChars 10 digits start) := by
  induction digits generalizing start with
  | nil => rfl
  | cons c rest ih =>
      obtain ⟨digit, restDigits⟩ := List.forall_mem_cons.mp areDigits
      rw [Nat.ofDigitChars_cons, Nat.mul_comm] at bounded ⊢
      have smaller := Nat.lt_of_le_of_lt (le_ofDigitChars rest _) bounded
      rw [parseDigits, if_pos digit, if_pos smaller]
      exact ih restDigits bounded

theorem parseNatBelow_eq {bound : Nat} {value : String} {digits : List Char}
    (spelled : value.toList = digits ∨ value.toList = '+' :: digits) (nonempty : digits ≠ [])
    (areDigits : ∀ c ∈ digits, c.isDigit = true)
    (bounded : Nat.ofDigitChars 10 digits 0 < bound)
    : parseNatBelow bound value = .ok (Nat.ofDigitChars 10 digits 0) := by
  have read := parseDigits_eq areDigits bounded
  cases digits with
  | nil => exact absurd rfl nonempty
  | cons c rest =>
      have noSign : c ≠ '+' := by
        rintro rfl
        cases areDigits '+' List.mem_cons_self
      rcases spelled with spelled | spelled
      · rw [parseNatBelow, spelled]
        split
        · contradiction
        · simp_all
        · simp_all
        · assumption
      · rw [parseNatBelow, spelled]
        exact read

-----------------------------------------------------------------------------------------
-- What can be worded
-----------------------------------------------------------------------------------------

/-- Whether a setting can be worded: what it is set to has to be a text that is read as itself. -/
def Given.Wordable : Given → Prop
  | .flag set => set ≠ .help
  | .rename reference _ =>
      reference ≠ "" ∧ '=' ∉ reference.toList ∧ trim reference.toList = reference.toList
  | .renameFile path => path ≠ ""
  | .decimal _ => True
  | .separators _ => True
  | .maxDepth limit => limit < ReaderOptions.depthBound

theorem exists_takes {given : Given} (wordable : given.Wordable)
    : (∃ flag, flag ≠ .help ∧ given = .flag flag)
        ∨ ∃ (option : ValueOption) (value : String), option.Takes value given := by
  cases given with
  | flag set => exact .inl ⟨set, wordable, rfl⟩
  | rename reference symbol =>
      obtain ⟨nonempty, noEquals, trimmed⟩ := wordable
      have named : trim reference.toList ≠ [] := by
        simpa [trimmed] using nonempty
      have takes : ValueOption.rename.Takes
          (String.ofList (reference.toList ++ '=' :: symbol.toList)) _ :=
        .rename String.toList_ofList noEquals named
      rw [trimmed, String.ofList_toList, String.ofList_toList] at takes
      exact .inr ⟨_, _, takes⟩
  | renameFile path => exact .inr ⟨_, _, .renameFile wordable⟩
  | decimal style => exact .inr ⟨_, _, .decimal style⟩
  | separators accepted => exact .inr ⟨_, _, .separators accepted⟩
  | maxDepth limit =>
      have number : Nat.ofDigitChars 10 (Nat.toDigits 10 limit) 0 = limit := by
        simp [Nat.ofDigitChars_toDigits]
      have areDigits : ∀ c ∈ Nat.toDigits 10 limit, c.isDigit = true :=
        fun c member => Nat.isDigit_of_mem_toDigits (by decide) (by decide) member
      have takes := ValueOption.Takes.maxDepth (.inl Nat.toList_repr) Nat.toDigits_ne_nil
        areDigits (number.symm ▸ wordable)
      rw [number] at takes
      exact .inr ⟨_, _, takes⟩

/-- A conversion has every setting. -/
theorem mem_settings_convert (setting : Setting) : setting ∈ Subcommand.convert.settings := by
  rcases setting with flag | option
  · cases flag <;> decide
  · cases option <;> decide

theorem has_convert {setting : Setting} (notHelp : setting ≠ .flag .help)
    : Subcommand.convert.Has setting :=
  ⟨mem_settings_convert setting, notHelp⟩

/-- Any formula and any settings that can be worded one by one can be put on a command line. -/
theorem exists_wording {given : List Given} (wordable : ∀ setting ∈ given, setting.Wordable)
    (formula : String)
    : ∃ words, Subcommand.convert.Wording words given (some formula) := by
  induction given with
  | nil => exact ⟨_, .afterHyphens formula⟩
  | cons first rest ih =>
      obtain ⟨firstWordable, restWordable⟩ := List.forall_mem_cons.mp wordable
      obtain ⟨words, wording⟩ := ih restWordable
      rcases exists_takes firstWordable with ⟨flag, notHelp, rfl⟩ | ⟨option, value, takes⟩
      · have has : Subcommand.convert.Has (.flag flag) := has_convert (by simpa using notHelp)
        exact ⟨_, .settings (.flag has) wording⟩
      · have has : Subcommand.convert.Has (.option option) := has_convert nofun
        exact ⟨_, .settings (.equals (.long has) takes) wording⟩

end FormulaLatex.CommandLine
