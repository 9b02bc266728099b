import FormulaLatex.Latex.Escape

/-! Nested notation. LaTeX is read as characters and control sequences, and some of these open
what others close. A text is well nested if whatever is opened is closed by its counterpart, the
latest first. Well-nested texts can be put next to each other and between such counterparts,
as long as no letter gets to stand right after a control sequence that is made of letters.
-/

namespace FormulaLatex.Latex

/-- What LaTeX is made of: characters, and control sequences, which a backslash begins. -/
inductive Symbol
  | character (c : Char)
  | control (name : List Char)
  deriving DecidableEq

namespace Symbol

/-- The symbols of a text, unless a backslash is its end. The name of a control sequence is the
longest run of ASCII letters after the backslash, or else one other character.
-/
def ofText? : List Char → Option (List Symbol)
  | [] => some []
  | c :: rest =>
      if c = '\\' then
        match rest with
        | [] => none
        | d :: more =>
            if d.isAlpha then
              (ofText? (more.dropWhile Char.isAlpha)).map
                (.control (d :: more.takeWhile Char.isAlpha) :: ·)
            else (ofText? more).map (.control [d] :: ·)
      else (ofText? rest).map (.character c :: ·)
termination_by text => text.length
decreasing_by
  · have shorter := (more.dropWhile_sublist Char.isAlpha).length_le
    simp only [List.length_cons]
    omega
  · simp only [List.length_cons]
    omega
  · simp

theorem ofText?_character {c : Char} (noBackslash : c ≠ '\\') (rest : List Char)
    : ofText? (c :: rest) = (ofText? rest).map (.character c :: ·) := by
  rw [ofText?.eq_def]
  exact if_neg noBackslash

theorem ofText?_letters {d : Char} (letter : d.isAlpha = true) (more : List Char)
    : ofText? ('\\' :: d :: more)
        = (ofText? (more.dropWhile Char.isAlpha)).map
            (.control (d :: more.takeWhile Char.isAlpha) :: ·) := by
  rw [ofText?, if_pos rfl, if_pos letter]

theorem ofText?_sign {d : Char} (noLetter : ¬ d.isAlpha = true) (more : List Char)
    : ofText? ('\\' :: d :: more) = (ofText? more).map (.control [d] :: ·) := by
  rw [ofText?, if_pos rfl, if_neg noLetter]

/-- The symbols that open something, each with the one that closes it. -/
def pairs : List (Symbol × Symbol) :=
  [(.character '\x7b', .character '\x7d'), (.control "left".toList, .control "right".toList),
   (.control "begin".toList, .control "end".toList)]

/-- What is still open after one more symbol, each given by the symbol that is to close it, the
latest first. A closing symbol has to be the one that is due.
-/
def nest? (pending : List Symbol) (symbol : Symbol) : Option (List Symbol) :=
  match pairs.lookup symbol with
  | some closing => some (closing :: pending)
  | none =>
      if pairs.any fun pair => pair.2 == symbol then
        match pending with
        | [] => none
        | due :: rest => if symbol = due then some rest else none
      else some pending

end Symbol

/-- What is still open after a text, if it can be read and closes nothing but what is open. -/
def pendingAfter? (pending : List Symbol) (latex : String) : Option (List Symbol) := do
  (← Symbol.ofText? latex.toList).foldlM Symbol.nest? pending

/-- Whether a text can be read as LaTeX and closes all that it opens, and nothing else. -/
def WellNested (latex : String) : Prop :=
  pendingAfter? [] latex = some []

instance : DecidablePred WellNested :=
  fun _ => inferInstanceAs (Decidable (_ = _))

-- A brace after a backslash neither opens nor closes anything.
example : WellNested "\\left\\\x7b x \\right\\\x7d"
    ∧ ¬ WellNested "\\left\x7b x \\right\x7d" := by
  decide +kernel

/-- Whether no letter of the second text comes right after a letter of the first. -/
def Apart (front back : String) : Prop :=
  front.toList.getLast?.any Char.isAlpha = false ∨ back.toList.head?.any Char.isAlpha = false

/-- Letters that a text begins with are not continued by a second text, if the two are apart. -/
theorem letters_append {d : Char} {more back : List Char} (letter : d.isAlpha = true)
    (apart : (d :: more).getLast?.any Char.isAlpha = false
      ∨ back.head?.any Char.isAlpha = false)
    : (more ++ back).takeWhile Char.isAlpha = more.takeWhile Char.isAlpha
      ∧ (more ++ back).dropWhile Char.isAlpha = more.dropWhile Char.isAlpha ++ back := by
  induction more generalizing d with
  | nil =>
      rcases apart with noLetter | noLetter
      · rw [List.getLast?_singleton, Option.any_some, letter] at noLetter
        cases noLetter
      · cases back with
        | nil => exact ⟨rfl, rfl⟩
        | cons b back =>
            rw [List.head?_cons, Option.any_some] at noLetter
            simp [noLetter]
  | cons m more ih =>
      rw [List.getLast?_cons_cons] at apart
      cases goesOn : m.isAlpha with
      | false => simp [goesOn]
      | true =>
          obtain ⟨taken, dropped⟩ := ih goesOn apart
          simp [goesOn, taken, dropped]

theorem getLast?_any_of_suffix {p : Char → Bool} {suffix text : List Char}
    (isSuffix : suffix <:+ text) (last : text.getLast?.any p = false)
    : suffix.getLast?.any p = false := by
  obtain ⟨front, rfl⟩ := isSuffix
  rw [List.getLast?_append] at last
  cases end_ : suffix.getLast? with
  | none => rfl
  | some c => rwa [end_, Option.some_or] at last

/-- What is read of a text does not depend on a text after it that is apart from it. -/
theorem Symbol.ofText?_append {front back : List Char} {symbols : List Symbol}
    (read : ofText? front = some symbols)
    (apart : front.getLast?.any Char.isAlpha = false ∨ back.head?.any Char.isAlpha = false)
    : ofText? (front ++ back) = (ofText? back).map (symbols ++ ·) := by
  fun_induction ofText? front generalizing symbols with
  | case1 =>
      obtain rfl := Option.some.inj read
      simp
  | case2 => cases read
  | case3 d more letter ih =>
      obtain ⟨rest, restRead, rfl⟩ := Option.map_eq_some_iff.mp read
      have isSuffix : d :: more <:+ '\\' :: d :: more := List.suffix_cons _ _
      have letterApart := apart.imp_left (getLast?_any_of_suffix isSuffix)
      obtain ⟨taken, dropped⟩ := letters_append letter letterApart
      have leftOver : more.dropWhile Char.isAlpha <:+ d :: more :=
        (List.dropWhile_suffix _).trans (List.suffix_cons d more)
      have restApart := letterApart.imp_left (getLast?_any_of_suffix leftOver)
      rw [List.cons_append, List.cons_append, ofText?_letters letter, taken, dropped,
        ih restRead restApart, Option.map_map]
      rfl
  | case4 d more noLetter ih =>
      obtain ⟨rest, restRead, rfl⟩ := Option.map_eq_some_iff.mp read
      have isSuffix : more <:+ '\\' :: d :: more :=
        (List.suffix_cons d more).trans (List.suffix_cons _ _)
      have restApart := apart.imp_left (getLast?_any_of_suffix isSuffix)
      rw [List.cons_append, List.cons_append, ofText?_sign noLetter, ih restRead restApart,
        Option.map_map]
      rfl
  | case5 c rest noBackslash ih =>
      obtain ⟨restSymbols, restRead, rfl⟩ := Option.map_eq_some_iff.mp read
      have restApart := apart.imp_left (getLast?_any_of_suffix (List.suffix_cons c rest))
      rw [List.cons_append, ofText?_character noBackslash, ih restRead restApart,
        Option.map_map]
      rfl

/-- What is open around a symbol stays open, below what the symbol opens or closes. -/
theorem Symbol.nest?_append {pending left : List Symbol} {symbol : Symbol}
    (nests : nest? pending symbol = some left) (more : List Symbol)
    : nest? (pending ++ more) symbol = some (left ++ more) := by
  unfold nest? at nests ⊢
  split at nests
  · obtain rfl := Option.some.inj nests
    rfl
  · split at nests
    · rename_i closes
      cases pending with
      | nil => cases nests
      | cons due rest =>
          dsimp only at nests
          split at nests
          · rename_i isDue
            obtain rfl := Option.some.inj nests
            rw [if_pos closes, List.cons_append]
            exact if_pos isDue
          · cases nests
    · rename_i noClosing
      obtain rfl := Option.some.inj nests
      rw [if_neg noClosing]

theorem Symbol.foldlM_nest?_append {pending left symbols : List Symbol}
    (nests : symbols.foldlM nest? pending = some left) (more : List Symbol)
    : symbols.foldlM nest? (pending ++ more) = some (left ++ more) := by
  induction symbols generalizing pending with
  | nil =>
      obtain rfl := Option.some.inj nests
      rfl
  | cons symbol rest ih =>
      obtain ⟨between, first, nests⟩ := Option.bind_eq_some_iff.mp nests
      rw [List.foldlM_cons, nest?_append first]
      exact ih nests

theorem pendingAfter?_eq_some_iff {pending left : List Symbol} {latex : String}
    : pendingAfter? pending latex = some left
        ↔ ∃ symbols, Symbol.ofText? latex.toList = some symbols
          ∧ symbols.foldlM Symbol.nest? pending = some left := by
  exact Option.bind_eq_some_iff

/-- What is open around a text stays open. -/
theorem pendingAfter?_around {pending left : List Symbol} {latex : String}
    (leaves : pendingAfter? pending latex = some left) (more : List Symbol)
    : pendingAfter? (pending ++ more) latex = some (left ++ more) := by
  obtain ⟨symbols, read, nests⟩ := pendingAfter?_eq_some_iff.mp leaves
  exact pendingAfter?_eq_some_iff.mpr ⟨symbols, read, Symbol.foldlM_nest?_append nests more⟩

/-- A text goes on with what a text before it has left open. -/
theorem pendingAfter?_append {pending between left : List Symbol} {front back : String}
    (first : pendingAfter? pending front = some between)
    (second : pendingAfter? between back = some left) (apart : Apart front back)
    : pendingAfter? pending (front ++ back) = some left := by
  obtain ⟨symbols, read, nests⟩ := pendingAfter?_eq_some_iff.mp first
  obtain ⟨others, otherRead, otherNests⟩ := pendingAfter?_eq_some_iff.mp second
  refine pendingAfter?_eq_some_iff.mpr ⟨symbols ++ others, ?_, ?_⟩
  · rw [String.toList_append, Symbol.ofText?_append read apart, otherRead, Option.map_some]
  · rw [List.foldlM_append, nests]
    exact otherNests

/-- Well-nested texts that are apart can be put next to each other. -/
theorem WellNested.append {front back : String} (first : WellNested front)
    (second : WellNested back) (apart : Apart front back)
    : WellNested (front ++ back) :=
  pendingAfter?_append first second apart

/-- Whether one text opens something that another one closes, and both keep apart from what is
put between them.
-/
def Encloses (left right : String) : Prop :=
  left.toList.getLast?.any Char.isAlpha = false ∧ right.toList.head?.any Char.isAlpha = false
  ∧ ∃ closing ∈ Symbol.pairs.map Prod.snd,
      pendingAfter? [] left = some [closing] ∧ pendingAfter? [closing] right = some []

instance (left right : String) : Decidable (Encloses left right) :=
  inferInstanceAs (Decidable (_ ∧ _))

/-- A well-nested text can be put between one that opens something and one that closes it. -/
theorem WellNested.enclosed {left right inner : String} (encloses : Encloses left right)
    (nested : WellNested inner)
    : WellNested (left ++ inner ++ right) := by
  obtain ⟨leftEnds, rightBegins, closing, _, opens, closes⟩ := encloses
  have within : pendingAfter? [closing] inner = some [closing] :=
    pendingAfter?_around nested [closing]
  have before := pendingAfter?_append opens within (.inl leftEnds)
  exact pendingAfter?_append before closes (.inr rightBegins)

/-- A well-nested text that keeps what stands before it apart from what stands after it. -/
structure Divides (mark : String) : Prop where
  nested : WellNested mark
  begins : mark.toList.head?.any (!·.isAlpha) = true
  ends : mark.toList.getLast?.any Char.isAlpha = false

instance : DecidablePred Divides := fun mark =>
  decidable_of_iff
    (WellNested mark ∧ mark.toList.head?.any (!·.isAlpha) = true
      ∧ mark.toList.getLast?.any Char.isAlpha = false)
    ⟨fun ⟨nested, begins, ends⟩ => ⟨nested, begins, ends⟩,
      fun divides => ⟨divides.nested, divides.begins, divides.ends⟩⟩

/-- Well-nested texts can be put before and after one that keeps them apart. -/
theorem WellNested.divided {front mark back : String} (first : WellNested front)
    (divides : Divides mark) (second : WellNested back)
    : WellNested (front ++ mark ++ back) := by
  rw [String.append_assoc]
  refine first.append (divides.nested.append second (.inl divides.ends)) (.inr ?_)
  have begins := divides.begins
  rw [String.toList_append]
  cases chars : mark.toList with
  | nil =>
      rw [chars] at begins
      cases begins
  | cons c rest =>
      rw [chars] at begins
      simpa using begins

end FormulaLatex.Latex
