import FormulaLatex.Proofs.Latex.Alike

/-! What is written for an expression. Form by form, the notation is a sequence of pieces that
stand for the terminals of the outline, whatever follows it.
-/

namespace FormulaLatex.Latex

open Text

/-- Whether a text can follow the notation of an expression: it neither continues a word nor
makes another mark of a closing brace.
-/
structure Ends (rest : List Char) : Prop where
  noWord : word rest = []
  noBrace : rest.head? ≠ some '\x7b'
  noCaret : rest.head? ≠ some '^'

theorem Ends.nil : Ends [] :=
  ⟨rfl, by simp, by simp⟩

/-- A text stands for terminals wherever nothing runs into it. -/
def Writes (text : List Char) (terminals : List Terminal) : Prop :=
  ∀ rest more, Ends rest → Reads rest more → Reads (text ++ rest) (terminals ++ more)

/-- Whether a mark comes after an expression. -/
def Mark.follows : Mark → Bool
  | .sign _ | .denominator | .exponent | .close | .barsEnd | .groupEnd | .argumentsEnd
  | .comma | .subject | .line | .otherwise | .casesEnd => true
  | _ => false

theorem word_append_of_head {front : List Char}
    (begins : front.head?.any (fun c => !isPlain c && c != ',') = true) (back : List Char)
    : word (front ++ back) = [] := by
  cases front with
  | nil => cases begins
  | cons c rest =>
      simp only [List.head?_cons, Option.any_some, Bool.and_eq_true, Bool.not_eq_true',
        bne_iff_ne] at begins
      rw [List.cons_append, word, if_neg]
      simp [begins.1, begins.2]

theorem following_begin
    : ∀ mark ∈ Mark.all, mark.follows = true →
      mark.text.toList.head?.any (fun c => c != '\x7b' && c != '^') = true
      ∧ (mark = .comma
        ∨ mark.text.toList.head?.any (fun c => !isPlain c && c != ',') = true) := by
  decide +kernel

theorem Ends.mark {mark : Mark} (follows : mark.follows = true) (rest : List Char)
    : Ends (mark.text.toList ++ rest) := by
  obtain ⟨other, stops⟩ := following_begin mark mark.mem_all follows
  have begins := Piece.head?_any_append other rest
  refine ⟨?_, ?_, ?_⟩
  · rcases stops with rfl | stops
    · simp [Mark.text, word, isPlain, IsPlainCode]
    · exact word_append_of_head stops rest
  · intro brace
    rw [brace] at begins
    cases begins
  · intro caret
    rw [caret] at begins
    cases begins

namespace Writes

theorem nil : Writes [] [] :=
  fun _ _ _ reads => reads

theorem append {front back : List Char} {frontTerminals backTerminals : List Terminal}
    (first : Writes front frontTerminals) (second : Writes back backTerminals)
    (ends : ∀ rest, Ends rest → Ends (back ++ rest))
    : Writes (front ++ back) (frontTerminals ++ backTerminals) := by
  intro rest more restEnds reads
  rw [List.append_assoc, List.append_assoc]
  exact first _ _ (ends rest restEnds) (second _ _ restEnds reads)

theorem mark (mark : Mark) : Writes mark.text.toList mark.terminals := by
  intro rest more ends reads
  have fits : (Piece.fixed mark).Fits rest := fun _ => ⟨ends.noBrace, ends.noCaret⟩
  exact .cons fits reads

/-- Only a closing brace minds what follows it. -/
theorem opening (mark : Mark) (opens : mark ≠ .close) {text : List Char}
    {terminals : List Terminal} (writes : Writes text terminals)
    : Writes (mark.text.toList ++ text) (mark.terminals ++ terminals) := by
  intro rest more ends reads
  have fits : (Piece.fixed mark).Fits (text ++ rest) := fun close => absurd close opens
  rw [List.append_assoc, List.append_assoc]
  exact .cons fits (writes rest more ends reads)

theorem word {chars : List Char} (begins : chars.head?.any isPlain = true)
    (whole : Latex.word chars = chars)
    : Writes chars (Piece.word chars).terminals := by
  intro rest more ends reads
  have fits : (Piece.word chars).Fits rest := ⟨begins, whole, ends.noWord⟩
  exact .cons fits reads

/-- An expression comes before a mark that can follow it. -/
theorem before (mark : Mark) (follows : mark.follows = true) {text after : List Char}
    {terminals afterTerminals : List Terminal} (writes : Writes text terminals)
    (rest : Writes (mark.text.toList ++ after) afterTerminals)
    : Writes (text ++ (mark.text.toList ++ after)) (terminals ++ afterTerminals) := by
  refine writes.append rest fun more _ => ?_
  rw [List.append_assoc]
  exact Ends.mark follows _

theorem beforeLast (mark : Mark) (follows : mark.follows = true) {text : List Char}
    {terminals : List Terminal} (writes : Writes text terminals)
    : Writes (text ++ mark.text.toList) (terminals ++ mark.terminals) :=
  writes.append (.mark mark) fun _ _ => Ends.mark follows _

/-- Terminals that one mark opens and another one closes. -/
theorem enclosed (left right : Mark) (opens : left ≠ .close) (follows : right.follows = true)
    {text : List Char} {terminals : List Terminal} (writes : Writes text terminals)
    : Writes (left.text.toList ++ (text ++ right.text.toList))
        (left.terminals ++ (terminals ++ right.terminals)) :=
  (writes.beforeLast right follows).opening left opens

end Writes

-----------------------------------------------------------------------------------------
-- Operators
-----------------------------------------------------------------------------------------

theorem toList_fraction (left right : String)
    : (binary .divide left right).toList
        = Mark.numerator.text.toList ++ (left.toList
          ++ (Mark.denominator.text.toList ++ (right.toList ++ Mark.close.text.toList))) := by
  simp [binary, braced, Mark.text]

theorem toList_power (left right : String)
    : (binary .power left right).toList
        = Mark.base.text.toList ++ (left.toList
          ++ (Mark.exponent.text.toList ++ (right.toList ++ Mark.close.text.toList))) := by
  simp [binary, braced, Mark.text]

theorem toList_sign {op : BinaryOperator} (between : Expr.binaryLabel? op = none)
    (left right : String)
    : (binary op left right).toList
        = left.toList ++ ((Mark.sign op).text.toList ++ right.toList) := by
  cases op with
  | divide => cases between
  | power => cases between
  | _ => simp [binary, spaced, Mark.text, sign]

theorem terminals_twoArguments (name : String) (l r : Expr)
    : (Expr.call name [l, r]).terminals
        = [⟨.function, name⟩, .opening]
          ++ (l.terminals ++ ([.separator] ++ (r.terminals ++ [.closing]))) := by
  simp [Expr.terminals, Expr.argumentTerminals, Expr.furtherTerminals]

theorem Writes.binary {op : BinaryOperator} {left right : String} {l r : Expr}
    (leftWrites : Writes left.toList l.terminals) (rightWrites : Writes right.toList r.terminals)
    : Writes (Latex.binary op left right).toList (Expr.outlineBinary op l r).terminals := by
  have closed : Writes (right.toList ++ Mark.close.text.toList) (r.terminals ++ [.closing]) :=
    rightWrites.beforeLast .close rfl
  cases op with
  | divide =>
      rw [toList_fraction, Expr.outlineBinary, Expr.binaryLabel?, terminals_twoArguments]
      have divided := leftWrites.before .denominator rfl (closed.opening .denominator (by decide))
      exact divided.opening .numerator (by decide)
  | power =>
      rw [toList_power, Expr.outlineBinary, Expr.binaryLabel?, terminals_twoArguments]
      have raised := leftWrites.before .exponent rfl (closed.opening .exponent (by decide))
      exact raised.opening .base (by decide)
  | _ =>
      rw [toList_sign rfl]
      exact leftWrites.before (.sign _) rfl (rightWrites.opening (.sign _) (by decide))

theorem Writes.negate {text : String} {e : Expr} (writes : Writes text.toList e.terminals)
    : Writes ("-" ++ text).toList (Expr.negate e).terminals := by
  rw [String.toList_append]
  exact writes.opening .minus (by decide)

theorem Writes.group {text : String} {e : Expr} (writes : Writes text.toList e.terminals)
    : Writes (parenthesized text).toList (Expr.group e).terminals := by
  rw [parenthesized, String.toList_append, String.toList_append, List.append_assoc]
  exact writes.enclosed .group .groupEnd (by decide) rfl

-----------------------------------------------------------------------------------------
-- Words
-----------------------------------------------------------------------------------------

theorem word_plain_append {front : List Char} (plain : ∀ c ∈ front, isPlain c = true)
    (back : List Char)
    : Latex.word (front ++ back) = front ++ Latex.word back := by
  induction front with
  | nil => rfl
  | cons c rest ih =>
      obtain ⟨first, restPlain⟩ := List.forall_mem_cons.mp plain
      rw [List.cons_append, Latex.word, ih restPlain, if_pos (by simp [first]),
        List.cons_append]

theorem word_of_plain {chars : List Char} (plain : ∀ c ∈ chars, isPlain c = true)
    : Latex.word chars = chars := by
  have whole := word_plain_append plain []
  rwa [List.append_nil, Latex.word, List.append_nil] at whole

theorem isPlain_of_isDigit {c : Char} (digit : c.isDigit = true) : isPlain c = true := by
  have bounds := isDigit_iff_toNat.mp digit
  simp [isPlain, IsPlainCode, bounds]

theorem isPlain_of_isAlphabetic {c : Char} (alphabetic : isAlphabetic c = true)
    : isPlain c = true := by
  have plain := isPlainCode_of_isAlphanumeric (c := c) (by simp [isAlphanumeric, alphabetic])
  simp [isPlain, plain]

variable {separators : DecimalSeparators}

theorem Writes.reference {name : String}
    (legible : (⟨.reference, name⟩ : Terminal).Legible separators)
    : Writes (RenameTable.empty.resolve name).toList (Expr.reference name).terminals := by
  obtain ⟨named, begins⟩ := legible
  have shown : RenameTable.empty.resolve name = name := by
    rw [RenameTable.resolve, RenameTable.get?, RenameTable.stored?_empty]
    exact named.upper
  rw [shown]
  obtain ⟨first, rest, chars⟩ : ∃ first rest, name.toList = first :: rest :=
    List.exists_cons_of_ne_nil (Piece.ne_nil_of_head?_any begins)
  have letter : isAlphabetic first = true := by
    rwa [chars] at begins
  have noDigit : first.isDigit = false := by
    rw [Bool.eq_false_iff]
    intro digit
    rw [isAlphabetic_eq_false_of_isDigit digit] at letter
    cases letter
  have writes : Writes name.toList (Piece.word name.toList).terminals := by
    refine .word ?_ (word_of_plain named.plain)
    rw [chars, List.head?_cons, Option.any_some]
    exact isPlain_of_isAlphabetic letter
  have terminals : (Piece.word name.toList).terminals = (Expr.reference name).terminals := by
    rw [Piece.terminals, String.ofList_toList, chars, List.head?_cons, Option.any_some, noDigit]
    rfl
  rwa [terminals] at writes

/-- What is written for a number is a number, of which any separator may be the decimal one. -/
theorem isNumber_number {text : String}
    (number : Lexeme.IsNumber separators text.toList) (style : DecimalStyle)
    : Lexeme.IsNumber .both (Latex.number style text).toList := by
  have mapped : ∀ f : Char → Char, (∀ c, c.isDigit = true → f c = c) →
      (∀ c, separators.accepts c = true → DecimalSeparators.both.accepts (f c) = true) →
      Lexeme.IsNumber .both (text.toList.map f) := by
    intro f digit separator
    have kept : ∀ {digits : List Char}, Lexeme.Digits digits → digits.map f = digits := by
      intro digits all
      exact (List.map_congr_left fun c member => digit c (all.digits c member)).trans
        (List.map_id _)
    generalize text.toList = chars at number
    cases number with
    | whole digits =>
        rw [kept digits]
        exact .whole digits
    | decimal before accepted after =>
        rw [List.map_append, List.map_cons, kept before, kept after]
        exact .decimal before (separator _ accepted) after
  cases style with
  | preserve =>
      have written := mapped id (fun _ _ => rfl) fun c accepted => by
        rcases Lexeme.point_or_comma_of_accepts accepted with rfl | rfl <;> rfl
      rwa [List.map_id] at written
  | point =>
      rw [Latex.number, String.toList_ofList]
      refine mapped _ (fun c digit => if_neg ?_) fun c accepted => ?_
      · rintro rfl
        cases digit
      · rcases Lexeme.point_or_comma_of_accepts accepted with rfl | rfl <;> rfl
  | comma =>
      rw [Latex.number, String.toList_ofList]
      refine mapped _ (fun c digit => if_neg ?_) fun c accepted => ?_
      · rintro rfl
        cases digit
      · rcases Lexeme.point_or_comma_of_accepts accepted with rfl | rfl <;> rfl

theorem word_of_isNumber {chars : List Char} (number : Lexeme.IsNumber .both chars)
    : Latex.word chars = chars := by
  have plain : ∀ {digits : List Char}, Lexeme.Digits digits → ∀ c ∈ digits, isPlain c = true :=
    fun all c member => isPlain_of_isDigit (all.digits c member)
  cases number with
  | whole digits => exact word_of_plain (plain digits)
  | @decimal whole separator fraction before accepted after =>
      have digitFollows : fraction.head?.any Char.isDigit = true := by
        simpa using after.begins []
      rw [word_plain_append (plain before), Latex.word, word_of_plain (plain after), if_pos]
      rcases Lexeme.point_or_comma_of_accepts accepted with rfl | rfl
      · rfl
      · simp [digitFollows]

theorem Writes.number {text : String}
    (number : Lexeme.IsNumber separators text.toList) (style : DecimalStyle)
    : Writes (Latex.number style text).toList
        (Expr.number (Latex.number style text)).terminals := by
  have written := isNumber_number number style
  have begins := written.begins
  have writes : Writes (Latex.number style text).toList
      (Piece.word (Latex.number style text).toList).terminals := by
    refine .word ?_ (word_of_isNumber written)
    cases head : (Latex.number style text).toList.head? with
    | none =>
        rw [head] at begins
        cases begins
    | some c =>
        rw [head, Option.any_some] at begins
        exact isPlain_of_isDigit begins
  rw [Piece.terminals, begins, String.ofList_toList] at writes
  exact writes

-----------------------------------------------------------------------------------------
-- Calls
-----------------------------------------------------------------------------------------

/-- A text is written for an outline. -/
abbrev WritesExpr (text : String) (e : Expr) : Prop :=
  Writes text.toList e.terminals

/-- Texts are written for outlines one by one. -/
abbrev WritesAll (texts : List String) (es : List Expr) : Prop :=
  List.Forall₂ WritesExpr texts es

theorem toList_intercalate_cons (first : String) (rest : List String)
    : (", ".intercalate (first :: rest)).toList
        = first.toList ++ rest.flatMap fun text => Mark.comma.text.toList ++ text.toList := by
  induction rest generalizing first with
  | nil => simp
  | cons second rest ih =>
      rw [String.intercalate_cons_cons, String.toList_append, String.toList_append, ih]
      simp [Mark.text]

theorem Ends.further {rest : List Char} (ends : Ends rest) (texts : List String)
    : Ends ((texts.flatMap fun text => Mark.comma.text.toList ++ text.toList) ++ rest) := by
  cases texts with
  | nil => exact ends
  | cons second texts =>
      rw [List.flatMap_cons, List.append_assoc, List.append_assoc]
      exact Ends.mark rfl _

theorem Writes.further {texts : List String} {es : List Expr} (writes : WritesAll texts es)
    : Writes (texts.flatMap fun text => Mark.comma.text.toList ++ text.toList)
        (Expr.furtherTerminals es) := by
  induction writes with
  | nil => exact .nil
  | @cons text e texts es first rest ih =>
      rw [List.flatMap_cons, Expr.furtherTerminals, List.append_assoc]
      have both := first.append ih fun more ends => ends.further texts
      exact both.opening .comma (by decide)

theorem Writes.arguments {texts : List String} {es : List Expr} (writes : WritesAll texts es)
    : Writes (", ".intercalate texts).toList (Expr.argumentTerminals es) := by
  cases writes with
  | nil => exact .nil
  | @cons text e texts es first rest =>
      rw [toList_intercalate_cons, Expr.argumentTerminals]
      exact first.append (.further rest) fun more ends => ends.further texts

/-- The one argument that a notation shows, or nothing. -/
theorem Writes.first {texts : List String} {es : List Expr} (writes : WritesAll texts es)
    (few : es.length ≤ 1)
    : Writes (texts.head?.getD "").toList (Expr.argumentTerminals es) := by
  have whole := Writes.arguments writes
  cases writes with
  | nil => exact whole
  | cons first rest =>
      cases rest with
      | nil => simpa using whole
      | cons second rest => simp at few

theorem writes_getElem? {texts : List String} {es : List Expr} (writes : WritesAll texts es)
    (place : Nat)
    : Option.Rel WritesExpr texts[place]? es[place]? := by
  induction writes generalizing place with
  | nil => exact .none
  | cons first rest ih =>
      cases place with
      | zero => exact .some first
      | succ place => exact ih place

/-- An argument, or what stands for it when it is missing. -/
theorem Writes.orMissing {text? : Option String} {e? : Option Expr}
    (writes : Option.Rel WritesExpr text? e?)
    : Writes (text?.getD "?").toList (e?.getD (Expr.reference "?")).terminals := by
  cases writes with
  | none => exact .mark .missing
  | some given => exact given

theorem Writes.namedCall {name : String} (named : PlainName name) {texts : List String}
    {es : List Expr} (writes : WritesAll texts es)
    : Writes (Latex.namedCall name texts).toList (Expr.call name es).terminals := by
  have shown : (Latex.namedCall name texts).toList
      = (callOpening name).toList
        ++ ((", ".intercalate texts).toList ++ Mark.argumentsEnd.text.toList) := by
    simp [Latex.namedCall, callOpening, Mark.text]
  intro rest more ends reads
  have fits : ∀ rest, (Piece.function name).Fits rest := fun _ => named.plain
  have inside := (Writes.arguments writes).beforeLast .argumentsEnd rfl rest more ends reads
  have opened := Reads.cons (fits _) inside
  rw [shown, List.append_assoc]
  exact opened

/-- A call whose arguments stand between two marks. -/
theorem Writes.enclosedCall (left right : Mark) (opens : left ≠ .close)
    (follows : right.follows = true) {label : String}
    (begins : left.terminals = [⟨.function, label⟩, .opening])
    (ends : right.terminals = [.closing]) {text : List Char} {es : List Expr}
    (writes : Writes text (Expr.argumentTerminals es))
    : Writes (left.text.toList ++ (text ++ right.text.toList))
        (Expr.call label es).terminals := by
  have whole := writes.enclosed left right opens follows
  rw [begins, ends] at whole
  exact whole

theorem toList_caseBlock (texts : List String)
    : (caseBlock texts).toList
        = Mark.cases.text.toList ++ ((texts[1]?.getD "?").toList
          ++ (Mark.subject.text.toList ++ ((texts[0]?.getD "?").toList
          ++ (texts[2]?.elim Mark.casesEnd.text.toList fun otherwise =>
            Mark.line.text.toList ++ (otherwise.toList
              ++ (Mark.otherwise.text.toList ++ Mark.casesEnd.text.toList)))))) := by
  cases third : texts[2]? with
  | none => simp [caseBlock, third, caseLine, textCommand, braced, Mark.text]
  | some otherwise =>
      simp [caseBlock, third, caseLine, textCommand, braced, Mark.text,
        String.intercalate_cons_cons]

theorem terminals_arrange_conditional (es : List Expr)
    : (Expr.call "\\CASES" (CallStyle.arrange .conditional es)).terminals
        = Mark.cases.terminals ++ ((es[1]?.getD (Expr.reference "?")).terminals
          ++ (Mark.subject.terminals ++ ((es[0]?.getD (Expr.reference "?")).terminals
          ++ (es[2]?.elim Mark.casesEnd.terminals fun otherwise =>
            Mark.line.terminals ++ (otherwise.terminals
              ++ (Mark.otherwise.terminals ++ Mark.casesEnd.terminals)))))) := by
  cases third : es[2]? <;>
    simp [CallStyle.arrange, third, Mark.terminals, Expr.terminals, Expr.argumentTerminals,
      Expr.furtherTerminals]

theorem Writes.conditional {texts : List String} {es : List Expr} (writes : WritesAll texts es)
    : WritesExpr (caseBlock texts) (.call "\\CASES" (CallStyle.arrange .conditional es)) := by
  rw [WritesExpr, toList_caseBlock, terminals_arrange_conditional]
  have condition := Writes.orMissing (writes_getElem? writes 0)
  have value := Writes.orMissing (writes_getElem? writes 1)
  have third := writes_getElem? writes 2
  refine .opening .cases (by decide) (value.before .subject rfl (.opening .subject (by decide) ?_))
  generalize texts[2]? = text?, es[2]? = e? at third
  cases third with
  | none => exact condition.beforeLast .casesEnd rfl
  | some otherwise =>
      have last := (Writes.mark .casesEnd).opening .otherwise (by decide)
      have line := (otherwise.before .otherwise rfl last).opening .line (by decide)
      exact condition.before .line rfl line

theorem command_of_trigonometric {command : String}
    (listed : .trigonometric command ∈ callStyles.map Prod.snd)
    : command = "\\sin" ∨ command = "\\cos" ∨ command = "\\tan" := by
  simpa [callStyles] using listed

/-- A call in a notation of its own is written for its outline. -/
theorem Writes.styled {style : CallStyle} (listed : style ∈ callStyles.map Prod.snd)
    {texts : List String} {es : List Expr} (keeps : style.Keeps es.length)
    (writes : WritesAll texts es)
    : WritesExpr (style.apply texts) (.call style.label (style.arrange es)) := by
  cases style with
  | radical =>
      have shown : (CallStyle.radical.apply texts).toList
          = Mark.radical.text.toList
            ++ ((texts.head?.getD "").toList ++ Mark.close.text.toList) := by
        simp [CallStyle.apply, braced, Mark.text]
      rw [WritesExpr, shown]
      exact (Writes.first writes keeps).enclosedCall .radical .close (by decide) rfl rfl rfl
  | overline =>
      have inner : Writes (if texts.isEmpty then "x" else ", ".intercalate texts).toList
          (Expr.argumentTerminals (CallStyle.arrange .overline es)) := by
        cases writes with
        | nil => exact .word (by decide) (by decide)
        | cons first rest =>
            have given := Writes.arguments (.cons first rest)
            simpa [CallStyle.arrange] using given
      have shown : (CallStyle.overline.apply texts).toList
          = Mark.overline.text.toList
            ++ ((if texts.isEmpty then "x" else ", ".intercalate texts).toList
              ++ Mark.close.text.toList) := by
        simp [CallStyle.apply, braced, Mark.text]
      rw [WritesExpr, shown]
      exact inner.enclosedCall .overline .close (by decide) rfl rfl rfl
  | absoluteValue =>
      have shown : (CallStyle.absoluteValue.apply texts).toList
          = Mark.bars.text.toList
            ++ ((texts.head?.getD "").toList ++ Mark.barsEnd.text.toList) := by
        simp [CallStyle.apply, Mark.text]
      rw [WritesExpr, shown]
      exact (Writes.first writes keeps).enclosedCall .bars .barsEnd (by decide) rfl rfl rfl
  | trigonometric command =>
      have first := Writes.first writes keeps
      have known := command_of_trigonometric listed
      have enclosed : ∀ mark : Mark, mark ≠ .close
          → mark.text = command ++ "\\left("
          → mark.terminals = [⟨.function, upperCase command⟩, .opening]
          → WritesExpr ((CallStyle.trigonometric command).apply texts)
            (.call (upperCase command) es) := by
        intro mark opens same begins
        have shown : ((CallStyle.trigonometric command).apply texts).toList
            = mark.text.toList
              ++ ((texts.head?.getD "").toList ++ Mark.groupEnd.text.toList) := by
          rw [same]
          simp [CallStyle.apply, Mark.text]
        rw [WritesExpr, shown]
        exact first.enclosedCall mark .groupEnd opens rfl begins rfl
      rcases known with rfl | rfl | rfl
      · exact enclosed .sine (by decide) (by decide) (by decide +kernel)
      · exact enclosed .cosine (by decide) (by decide) (by decide +kernel)
      · exact enclosed .tangent (by decide) (by decide) (by decide +kernel)
  | conditional => exact .conditional writes
  | passThrough => exact keeps.elim

theorem Writes.call {name : String} (named : PlainName name) {texts : List String}
    {es : List Expr}
    (keeps : ∀ style, callStyle? name = some style → style.Keeps es.length)
    (writes : WritesAll texts es)
    : WritesExpr (Latex.call name texts)
        (.call (Expr.callLabel name) (Expr.callArguments name es)) := by
  rw [Latex.call, Expr.callLabel, Expr.callArguments]
  cases styled : callStyle? name with
  | none => exact .namedCall named writes
  | some style => exact .styled (mem_styles styled) (keeps style styled) writes

end FormulaLatex.Latex

namespace FormulaLatex

theorem Expr.toLatexAll_eq_map (renames : RenameTable) (options : RenderOptions)
    (es : List Expr)
    : toLatexAll renames options es = es.map (toLatex renames options) := by
  induction es with
  | nil => rfl
  | cons first rest ih => rw [toLatexAll, ih, List.map_cons]

/-- The notation of an expression is written for its outline. -/
theorem Expr.writes_toLatex {separators : DecimalSeparators} {e : Expr}
    (legible : e.Legible separators) (keeps : e.KeepsArguments) (options : RenderOptions)
    : Latex.WritesExpr (e.toLatex .empty options) (e.outline options.decimalStyle) := by
  induction e using inductionOn with
  | number text => 
      exact .number (legible ⟨.number, text⟩ (List.mem_singleton.mpr rfl)) options.decimalStyle
  | reference name => exact .reference (legible ⟨.reference, name⟩ (List.mem_singleton.mpr rfl))
  | binary op left right leftIh rightIh =>
      obtain ⟨leftLegible, rightLegible⟩ := legible.binary
      exact .binary (leftIh leftLegible keeps.1) (rightIh rightLegible keeps.2)
  | negate operand ih => exact .negate (ih legible.negate keeps)
  | call name arguments ih =>
      obtain ⟨named, partsLegible⟩ := legible.call
      obtain ⟨shown, partsKeep⟩ := keeps
      rw [toLatex, outline, toLatexAll_eq_map, outlineAll_eq_map]
      refine .call named (by simpa using shown) ?_
      rw [Latex.WritesAll, List.forall₂_map_left_iff, List.forall₂_map_right_iff,
        List.forall₂_same]
      intro argument inArguments
      exact ih argument inArguments (partsLegible argument inArguments)
        (allKeepArguments_iff.mp partsKeep argument inArguments)
  | group inner ih => exact .group (ih legible.group keeps)

end FormulaLatex
