import FormulaLatex.Proofs.Expr.Derivation
import FormulaLatex.Proofs.Expr.Fusion

/-! Where tokens stop making sense. A syntax error is found at the earliest place: what has been
read before it can be completed, and with one token more it cannot, whatever follows.
-/

namespace FormulaLatex

-----------------------------------------------------------------------------------------
-- What follows a token
-----------------------------------------------------------------------------------------

namespace Terminal

/-- Whether a list of tokens is fused apart from what follows it depends on the token that comes
next, and not on those after it.
-/
theorem fuseAll_append_of_next {left rest : List Token} {next : Token}
    (apart : fuseAll (left ++ next :: rest) = fuseAll left ++ fuseAll (next :: rest))
    (other : List Token)
    : fuseAll (left ++ next :: other) = fuseAll left ++ fuseAll (next :: other) := by
  fun_induction fuseAll left with
  | case1 => rfl
  | case2 token =>
      cases fused : token.fuse? next with
      | none => exact fuseAll_cons (by simpa using fused)
      | some op =>
          -- A fused comparison is another operator than its first character is by itself.
          rw [List.singleton_append, fuseAll_fused fused] at apart
          have single := sign_single_iff.mpr
            (congrArg Terminal.role (List.cons.inj apart).1).symm
          have lengths := congrArg List.length
            (single.texts.trans (sign_pair_iff.mpr fused).texts.symm)
          simp at lengths
  | case3 token following rest op fused ih =>
      simp only [List.cons_append] at apart ⊢
      rw [fuseAll_fused fused] at apart ⊢
      exact congrArg _ (ih (List.cons.inj apart).2)
  | case4 token following rest alone ih =>
      simp only [List.cons_append] at apart ih ⊢
      rw [fuseAll_cons (by simpa using alone)] at apart ⊢
      exact congrArg _ (ih (List.cons.inj apart).2)

/-- What a token begins, whatever follows it: always itself, or always a comparison. -/
theorem fuseAll_begin (next : Token)
    : (∀ rest, fuseAll (next :: rest) = ofToken next :: fuseAll rest)
      ∨ ∀ rest, ∃ (op : BinaryOperator) (back : List Terminal),
          op.isComparison = true ∧ fuseAll (next :: rest) = ⟨.operator op, next.text⟩ :: back := by
  by_cases comparison : next.kind = .operator ∧ next.text ∈ ["=", "<", ">"]
  · exact Or.inr (fuseAll_comparison comparison.1 comparison.2)
  · refine Or.inl fun rest => fuseAll_cons fun other _ => ?_
    refine Option.eq_none_iff_forall_ne_some.mpr fun op fused => comparison ?_
    obtain ⟨_, ⟨kind, text⟩, _⟩ := Token.fuse?_eq_some fused
    exact ⟨kind, by simp [text]⟩

theorem text_of_fuseAll {next : Token} {rest : List Token} {terminal : Terminal}
    {back : List Terminal} (begins : fuseAll (next :: rest) = terminal :: back)
    : terminal.text = next.text := by
  rcases fuseAll_begin next with alone | comparison
  · obtain rfl := (List.cons.inj ((alone rest).symm.trans begins)).1
    rfl
  · obtain ⟨op, _, _, same⟩ := comparison rest
    obtain rfl := (List.cons.inj (same.symm.trans begins)).1
    rfl

/-- Tokens whose last terminal is the name of a function end with that name. -/
theorem exists_name_of_fuseAll {tokens : List Token} {before : List Terminal}
    {function : String} (same : fuseAll tokens = before ++ [⟨.function, function⟩])
    : ∃ front name, tokens = front ++ [name] ∧ name.kind = .function ∧ name.text = function := by
  obtain ⟨front, last, rfl, _, lastSame⟩ := fuseAll_eq_append same
  rcases fuseAll_eq_cons lastSame with
    ⟨name, back, rfl, alone, backSame, _⟩ | ⟨_, _, _, _, _, _, fused, _⟩
  · obtain rfl := eq_nil_of_fuseAll backSame
    have kind : name.kind = .function :=
      Token.kind_of_role (by rw [show name.role = .function from congrArg role alone]; rfl)
    exact ⟨front, name, rfl, kind, congrArg text alone⟩
  · cases fused

end Terminal

-----------------------------------------------------------------------------------------
-- Readings that can be completed
-----------------------------------------------------------------------------------------

namespace Expr

variable {options : ReaderOptions}

namespace Reading

/-- Some tokens, none of which is an operator, complete a reading. -/
def Completes (options : ReaderOptions) (reading : Reading) : Prop :=
  ∃ ending : List Token,
    (∀ token ∈ ending, token.kind ≠ .operator ∧ token.kind ≠ .unknown)
    ∧ ∃ e,
        (Terminal.fuseAll ending).foldlM (step options) reading >>= (·.finish options) = .ok e

/-- A reading that some token leads to one that can be completed can be completed. -/
theorem Completes.of_step {reading next : Reading} {token : Token}
    (kind : token.kind ≠ .operator ∧ token.kind ≠ .unknown)
    (accepted : reading.step options (.ofToken token) = .ok next)
    (completes : next.Completes options)
    : reading.Completes options := by
  obtain ⟨ending, kinds, e, read⟩ := completes
  have alone : Terminal.fuseAll (token :: ending)
      = .ofToken token :: Terminal.fuseAll ending :=
    Terminal.fuseAll_cons fun next _ => by simp [Token.fuse?, kind.1]
  refine ⟨token :: ending, List.forall_mem_cons.mpr ⟨kind, kinds⟩, e, ?_⟩
  rw [alone, foldlM_cons_ok accepted]
  exact read

/-- After an operand, the innermost bracket can be closed. -/
theorem exists_step_closing (options : ReaderOptions) {reading : Reading} {operand : Expr}
    {enclosure : Enclosure} {outer : List Enclosure}
    (following : reading.phase = .continuation operand)
    (inside : reading.enclosures = enclosure :: outer) (terminal : Terminal)
    (role : terminal.role = .closing)
    : ∃ closed,
        reading.step options terminal = .ok (leave outer enclosure.pending closed) := by
  obtain ⟨before, bracket⟩ := enclosure
  cases bracket with
  | group =>
      refine ⟨.group (reading.expression options operand), ?_⟩
      simp only [step, following, extend, role, inside]
  | call name arguments =>
      refine ⟨.call (Text.upperCase name)
        (reading.expression options operand :: arguments).reverse, ?_⟩
      simp only [step, following, extend, role, inside]

/-- After an operand, all brackets can be closed, by induction on the open brackets. -/
theorem completes_of_continuation {reading : Reading} {operand : Expr}
    (following : reading.phase = .continuation operand)
    : reading.Completes options := by
  obtain ⟨enclosures, pending, phase⟩ := reading
  obtain rfl : phase = .continuation operand := following
  induction enclosures generalizing pending operand with
  | nil => exact ⟨[], by simp, _, rfl⟩
  | cons enclosure outer ih =>
      let reading : Reading := ⟨enclosure :: outer, pending, .continuation operand⟩
      have inside : reading.enclosures = enclosure :: outer := rfl
      obtain ⟨closed, accepted⟩ :=
        exists_step_closing options rfl inside (.ofToken ⟨.closing, ")", 0⟩) rfl
      exact .of_step (by decide) accepted (ih _)

/-- Where an operand is due that is not too deep, a number can be put. -/
theorem completes_of_due {reading : Reading} (due : reading.Due)
    (within : reading.depth options.powerAssociativity < options.maxDepth)
    : reading.Completes options := by
  have accepted : reading.step options (.ofToken ⟨.number, "1", 0⟩)
      = .ok (reading.complete (.number "1")) := by
    rw [step_due due within (by decide)]
    rfl
  exact .of_step (by decide) accepted (completes_of_continuation rfl)

/-- After the name of a function, it can be called without arguments. -/
theorem completes_of_opening {reading : Reading} {function : String}
    (named : reading.phase = .opening function)
    : reading.Completes options := by
  have opened : reading.step options (.ofToken ⟨.opening, "(", 0⟩)
      = .ok (reading.enter (.call function []) .argument) := by
    simp [step, named, Terminal.ofToken, Token.role]
  have closed
      : (reading.enter (.call function []) .argument).step options
            (.ofToken ⟨.closing, ")", 0⟩)
          = .ok (leave reading.enclosures reading.pending
              (.call (Text.upperCase function) [])) :=
    rfl
  exact .of_step (by decide) opened (.of_step (by decide) closed (completes_of_continuation rfl))

-----------------------------------------------------------------------------------------
-- Where a reading stops
-----------------------------------------------------------------------------------------

/-- What an error says of the reading that it ends. -/
def StoppedBy (reading : Reading) : SyntaxError → Prop
  | .missingOpening function => reading.phase = .opening function
  | .unclosedGroup | .unclosedCall _ =>
      ∃ operand enclosure outer,
        reading.phase = .continuation operand ∧ reading.enclosures = enclosure :: outer
  | _ => True

theorem withinDepth_eq_error {reading : Reading} {error : SyntaxError}
    (failed : reading.withinDepth options = .error error)
    : error = .tooDeep options.maxDepth := by
  unfold withinDepth at failed
  split at failed
  · cases failed
  · exact (Except.error.inj failed).symm

theorem begin_eq_error {reading : Reading} {terminal : Terminal} {error : SyntaxError}
    (failed : reading.begin terminal = .error error)
    : error = .unexpectedToken terminal.text := by
  unfold begin at failed
  split at failed <;> cases failed
  rfl

/-- Where an operand is due, an error that is not about the limit comes within the limit. -/
theorem completes_of_due_error {α : Type} {reading : Reading} {next : Reading → Except SyntaxError α}
    {error : SyntaxError} (due : reading.Due) (shallow : ∀ limit, error ≠ .tooDeep limit)
    (failed : (reading.withinDepth options >>= next) = .error error)
    : reading.Completes options ∧ next reading = .error error := by
  cases checked : reading.withinDepth options with
  | error other =>
      rw [checked] at failed
      cases failed
      exact absurd (withinDepth_eq_error checked) (shallow _)
  | ok other =>
      obtain ⟨rfl, within⟩ := withinDepth_eq_ok checked
      rw [checked] at failed
      exact ⟨completes_of_due due within, failed⟩

/-- A step that fails ends a reading that could be completed. -/
theorem step_eq_error {reading : Reading} {terminal : Terminal} {error : SyntaxError}
    (shallow : ∀ limit, error ≠ .tooDeep limit)
    (failed : reading.step options terminal = .error error)
    : reading.Completes options
      ∧ reading.StoppedBy error
      ∧ error ≠ .unexpectedEnd
      ∧ ∀ text, error = .unexpectedToken text → text = terminal.text := by
  have refusedWhereDue (due : reading.Due)
      (failed : (reading.withinDepth options >>= (·.begin terminal)) = .error error)
      : reading.Completes options ∧ reading.StoppedBy error ∧ error ≠ .unexpectedEnd
        ∧ ∀ text, error = .unexpectedToken text → text = terminal.text := by
    obtain ⟨completes, refused⟩ := completes_of_due_error due shallow failed
    obtain rfl := begin_eq_error refused
    exact ⟨completes, trivial, nofun, fun text same => (SyntaxError.unexpectedToken.inj same).symm⟩
  unfold step at failed
  split at failed
  · cases failed
  · rename_i phase
    exact refusedWhereDue (Or.inl phase) failed
  · rename_i phase _
    exact refusedWhereDue (Or.inr phase) failed
  · cases failed
  · rename_i named _
    cases failed
    exact ⟨completes_of_opening named, named, nofun, nofun⟩
  · rename_i operand following
    refine ⟨completes_of_continuation following, ?_⟩
    unfold extend at failed
    split at failed
    · cases failed
    · cases failed
    · cases failed
    · cases failed
    · cases failed
      unfold refusal
      split
      · exact ⟨trivial, nofun, fun text same => (SyntaxError.unexpectedToken.inj same).symm⟩
      · rename_i inside
        exact ⟨⟨_, _, _, following, inside⟩, nofun, nofun⟩
      · rename_i inside
        exact ⟨⟨_, _, _, following, inside⟩, nofun, nofun⟩

/-- A reading that cannot end where it does could be completed. -/
theorem finish_eq_error {reading : Reading} {error : SyntaxError}
    (shallow : ∀ limit, error ≠ .tooDeep limit)
    (failed : reading.finish options = .error error)
    : reading.Completes options
      ∧ reading.StoppedBy error
      ∧ ∀ text, error ≠ .unexpectedToken text := by
  unfold finish at failed
  split at failed
  · rename_i phase
    obtain ⟨completes, ended⟩ := completes_of_due_error (Or.inl phase) shallow failed
    cases ended
    exact ⟨completes, trivial, nofun⟩
  · rename_i phase
    obtain ⟨completes, ended⟩ := completes_of_due_error (Or.inr phase) shallow failed
    cases ended
    exact ⟨completes, trivial, nofun⟩
  · rename_i named
    cases failed
    exact ⟨completes_of_opening named, named, nofun⟩
  · cases failed
  · rename_i following inside
    cases failed
    exact ⟨completes_of_continuation following, ⟨_, _, _, following, inside⟩, nofun⟩
  · rename_i following inside
    cases failed
    exact ⟨completes_of_continuation following, ⟨_, _, _, following, inside⟩, nofun⟩

theorem begin_opening {reading next : Reading} {terminal : Terminal} {function : String}
    (accepted : reading.begin terminal = .ok next) (named : next.phase = .opening function)
    : terminal = ⟨.function, function⟩ := by
  obtain ⟨role, text⟩ := terminal
  cases role with
  | function =>
      cases accepted
      cases named
      rfl
  | operator op =>
      cases op with
      | subtract =>
          cases accepted
          cases named
      | _ => cases accepted
  | number | reference | opening =>
      cases accepted
      cases named
  | closing | separator | stray => cases accepted

/-- A reading waits for the opening parenthesis of a function only after its name. -/
theorem step_opening {reading next : Reading} {terminal : Terminal} {function : String}
    (accepted : reading.step options terminal = .ok next)
    (named : next.phase = .opening function)
    : terminal = ⟨.function, function⟩ := by
  have due (begun : (reading.withinDepth options >>= (·.begin terminal)) = .ok next)
      : terminal = ⟨.function, function⟩ :=
    begin_opening (withinDepth_bind_eq_ok begun).2 named
  unfold step at accepted
  split at accepted
  · cases accepted
    cases named
  · exact due accepted
  · exact due accepted
  · cases accepted
    cases named
  · cases accepted
  · unfold extend at accepted
    split at accepted <;> cases accepted <;> cases named

/-- After a run of steps, a reading waits for the opening parenthesis of a function only if its
name came last.
-/
theorem foldlM_opening {reading : Reading} {terminals : List Terminal} {function : String}
    (run : terminals.foldlM (step options) {} = .ok reading)
    (named : reading.phase = .opening function)
    : ∃ front, terminals = front ++ [⟨.function, function⟩] := by
  rcases List.eq_nil_or_concat terminals with rfl | ⟨front, last, rfl⟩
  · cases run
    cases named
  · rw [List.concat_eq_append, List.foldlM_append] at run
    cases before : front.foldlM (step options) {} with
    | error error =>
        rw [before] at run
        cases run
    | ok middle =>
        rw [before] at run
        cases stepped : middle.step options last with
        | error error =>
            simp [stepped, bind, Except.bind] at run
        | ok next =>
            obtain rfl : next = reading := by
              simpa [stepped, bind, Except.bind, pure, Except.pure] using run
            exact ⟨front, by rw [step_opening stepped named, List.concat_eq_append]⟩

/-- Where one comparison is refused, all are. -/
theorem step_comparison_eq_error {reading : Reading} {op other : BinaryOperator} {text : String}
    {error : SyntaxError} (comparison : op.isComparison = true)
    (otherComparison : other.isComparison = true)
    (refused : reading.step options ⟨.operator op, text⟩ = .error error)
    : reading.step options ⟨.operator other, text⟩ = .error error := by
  have none (operand : Expr) : reading.phase ≠ .continuation operand := by
    intro following
    rw [step_operator_of_continuation following rfl] at refused
    cases refused
  obtain ⟨reported, refuses⟩ := step_refuses options none text
  rw [refuses other otherComparison, ← refuses op comparison, refused]

/-- Where a run of steps fails, it does so at one of the terminals. -/
theorem foldlM_eq_error {reading : Reading} {terminals : List Terminal} {error : SyntaxError}
    (failed : terminals.foldlM (step options) reading = .error error)
    : ∃ front terminal back middle,
        terminals = front ++ terminal :: back
        ∧ front.foldlM (step options) reading = .ok middle
        ∧ middle.step options terminal = .error error := by
  induction terminals generalizing reading with
  | nil => cases failed
  | cons terminal rest ih =>
      cases stepped : reading.step options terminal with
      | error other =>
          rw [List.foldlM_cons, stepped] at failed
          cases failed
          exact ⟨[], terminal, rest, reading, rfl, rfl, stepped⟩
      | ok next =>
          rw [foldlM_cons_ok stepped] at failed
          obtain ⟨front, refused, back, middle, rfl, run, refuses⟩ := ih failed
          exact ⟨terminal :: front, refused, back, middle, rfl, (foldlM_cons_ok stepped).trans run,
            refuses⟩

end Reading

-----------------------------------------------------------------------------------------
-- Prefixes that can be completed
-----------------------------------------------------------------------------------------

/-- Some continuation turns the tokens into a list that is read. -/
def Viable (options : ReaderOptions) (front : List Token) : Prop :=
  ∃ continuation e, ofTokens (front ++ continuation) options = .ok e

theorem Viable.of_append {front back : List Token} (viable : Viable options (front ++ back))
    : Viable options front := by
  obtain ⟨continuation, e, read⟩ := viable
  exact ⟨back ++ continuation, e, by rwa [← List.append_assoc]⟩

/-- The longest prefix of a list of tokens that some continuation turns into a list that is read.
-/
structure LongestViable (options : ReaderOptions) (tokens front : List Token) : Prop where
  begins : front <+: tokens
  viable : Viable options front
  longest : ∀ other, other <+: tokens → Viable options other → other.length ≤ front.length

/-- A viable prefix that the next token makes unviable is the longest. -/
theorem LongestViable.of_next {front rest : List Token} {next : Token}
    (viable : Viable options front) (stuck : ¬ Viable options (front ++ [next]))
    : LongestViable options (front ++ next :: rest) front := by
  refine ⟨List.prefix_append _ _, viable, fun other begins otherViable => ?_⟩
  by_contra longer
  refine stuck ?_
  obtain ⟨back, rfl⟩ : front ++ [next] <+: other := by
    have whole : front ++ [next] <+: front ++ next :: rest := ⟨rest, by simp⟩
    refine List.prefix_of_prefix_length_le whole begins ?_
    rw [List.length_append, List.length_singleton]
    omega
  exact otherViable.of_append

theorem viable_of_completes {front : List Token} {reading : Reading}
    (known : ∀ token ∈ front, token.kind ≠ .unknown)
    (run : (Terminal.fuseAll front).foldlM (Reading.step options) {} = .ok reading)
    (completes : reading.Completes options)
    : Viable options front := by
  obtain ⟨ending, kinds, e, read⟩ := completes
  refine ⟨ending, e, ?_⟩
  have apart : Terminal.fuseAll (front ++ ending)
      = Terminal.fuseAll front ++ Terminal.fuseAll ending := by
    rcases Terminal.fuseAll_append front ending with
      apart | ⟨_, _, second, _, _, _, rfl, fused, _⟩
    · exact apart
    · obtain ⟨_, _, ⟨kind, _⟩, _⟩ := Token.fuse?_eq_some fused
      exact absurd kind (kinds second List.mem_cons_self).1
  rw [ofTokens, Terminal.ofTokens_eq_fuseAll, apart, ofTerminals, Reading.foldlM_append_ok run]
  · exact read
  · intro token member
    rcases List.mem_append.mp member with early | late
    · exact known token early
    · exact (kinds token late).2

/-- A terminal that is refused is refused whatever follows the tokens that it stands for. -/
theorem not_viable_of_refused {front rest : List Token} {next : Token} {terminal : Terminal}
    {back : List Terminal} {reading : Reading} {error : SyntaxError}
    (known : ∀ token ∈ front ++ [next], token.kind ≠ .unknown)
    (run : (Terminal.fuseAll front).foldlM (Reading.step options) {} = .ok reading)
    (apart
      : Terminal.fuseAll (front ++ next :: rest)
          = Terminal.fuseAll front ++ Terminal.fuseAll (next :: rest))
    (begins : Terminal.fuseAll (next :: rest) = terminal :: back)
    (refused : reading.step options terminal = .error error)
    : ¬ Viable options (front ++ [next]) := by
  rintro ⟨continuation, e, read⟩
  let more := continuation.filter fun token => token.kind != .unknown
  have kept : Terminal.ofTokens (front ++ [next] ++ continuation)
      = Terminal.fuseAll front ++ Terminal.fuseAll (next :: more) := by
    rw [Terminal.ofTokens, List.filter_append, List.filter_eq_self.mpr, List.append_assoc,
      List.singleton_append, Terminal.fuseAll_append_of_next apart more]
    intro token member
    simpa using known token member
  rw [ofTokens, kept, ofTerminals, Reading.foldlM_append_ok run] at read
  obtain ⟨other, following, same, otherRefused⟩
      : ∃ other following,
          Terminal.fuseAll (next :: more) = other :: following
          ∧ reading.step options other = .error error := by
    rcases Terminal.fuseAll_begin next with alone | comparison
    · obtain rfl := (List.cons.inj ((alone rest).symm.trans begins)).1
      exact ⟨_, _, alone more, refused⟩
    · obtain ⟨op, _, isComparison, same⟩ := comparison rest
      obtain ⟨other, following, otherComparison, otherSame⟩ := comparison more
      obtain rfl := (List.cons.inj (same.symm.trans begins)).1
      exact ⟨_, following, otherSame,
        Reading.step_comparison_eq_error isComparison otherComparison refused⟩
  rw [same, List.foldlM_cons, otherRefused] at read
  cases read

/-- What an error says of the tokens that it is found in and their longest viable prefix. -/
def Locates (options : ReaderOptions) (tokens front : List Token) : SyntaxError → Prop
  | .unexpectedEnd => front = tokens
  | .unexpectedToken text => ∃ next rest, tokens = front ++ next :: rest ∧ next.text = text
  | .missingOpening function =>
      ∃ before name, front = before ++ [name] ∧ name.kind = .function ∧ name.text = function
  | .unclosedGroup | .unclosedCall _ =>
      ∀ closing : Token, closing.kind = .closing → Viable options (front ++ [closing])
  | .tooDeep _ => True

/-- After an operand inside a bracket, a closing parenthesis can follow. -/
theorem viable_closing {front : List Token} {reading : Reading} {operand : Expr}
    {enclosure : Enclosure} {outer : List Enclosure}
    (known : ∀ token ∈ front, token.kind ≠ .unknown)
    (run : (Terminal.fuseAll front).foldlM (Reading.step options) {} = .ok reading)
    (following : reading.phase = .continuation operand)
    (inside : reading.enclosures = enclosure :: outer) {closing : Token}
    (kind : closing.kind = .closing)
    : Viable options (front ++ [closing]) := by
  have role : (Terminal.ofToken closing).role = .closing := by
    simp [Terminal.ofToken, Token.role, kind]
  obtain ⟨closed, accepted⟩ := Reading.exists_step_closing options following inside _ role
  have closedRun : (Terminal.fuseAll (front ++ [closing])).foldlM (Reading.step options) {}
      = .ok (Reading.leave outer enclosure.pending closed) := by
    rw [Terminal.fuseAll_append_of_continuation run following, Reading.foldlM_append_ok run]
    exact Reading.foldlM_cons_ok accepted
  refine viable_of_completes ?_ closedRun (Reading.completes_of_continuation rfl)
  intro token member
  rcases List.mem_append.mp member with early | last
  · exact known token early
  · rw [List.mem_singleton.mp last, kind]
    decide

theorem locates_of_stoppedBy {tokens front : List Token} {reading : Reading}
    {error : SyntaxError} (known : ∀ token ∈ front, token.kind ≠ .unknown)
    (run : (Terminal.fuseAll front).foldlM (Reading.step options) {} = .ok reading)
    (stopped : reading.StoppedBy error)
    (atEnd : error = .unexpectedEnd → front = tokens)
    (atToken
      : ∀ text, error = .unexpectedToken text
          → ∃ next rest, tokens = front ++ next :: rest ∧ next.text = text)
    : Locates options tokens front error := by
  cases error with
  | unexpectedEnd => exact atEnd rfl
  | unexpectedToken text => exact atToken text rfl
  | missingOpening function =>
      obtain ⟨before, same⟩ := Reading.foldlM_opening run stopped
      exact Terminal.exists_name_of_fuseAll same
  | unclosedGroup | unclosedCall =>
      obtain ⟨operand, enclosure, outer, following, inside⟩ := stopped
      exact fun closing kind => viable_closing known run following inside kind
  | tooDeep limit => trivial

/-- A syntax error other than one about the limit is found at the earliest place that shows it.
Take the longest prefix of the tokens that some continuation turns into a list that is read. If
the tokens have ended, it is all of them; an unexpected token comes right after it; if an opening
parenthesis is missing, it ends with the name of the function; and if a closing one is missing,
one can follow it.
-/
theorem ofTokens_error_at_longestViable {tokens : List Token} {error : SyntaxError}
    (known : ∀ token ∈ tokens, token.kind ≠ .unknown)
    (shallow : ∀ limit, error ≠ .tooDeep limit)
    (failed : ofTokens tokens options = .error error)
    : ∃ front, LongestViable options tokens front ∧ Locates options tokens front error := by
  rw [ofTokens, Terminal.ofTokens_eq_fuseAll known, ofTerminals] at failed
  cases run : (Terminal.fuseAll tokens).foldlM (Reading.step options) {} with
  | ok reading =>
      rw [run] at failed
      obtain ⟨completes, stopped, expected⟩ := Reading.finish_eq_error shallow failed
      refine ⟨tokens, ⟨List.prefix_rfl, viable_of_completes known run completes,
        fun _ begins _ => begins.length_le⟩, ?_⟩
      exact locates_of_stoppedBy known run stopped (fun _ => rfl)
        fun text same => absurd same (expected text)
  | error other =>
      obtain rfl : other = error := by
        rw [run] at failed
        exact Except.error.inj failed
      obtain ⟨front, terminal, back, reading, whole, frontRun, refused⟩ :=
        Reading.foldlM_eq_error run
      obtain ⟨completes, stopped, more, place⟩ := Reading.step_eq_error shallow refused
      obtain ⟨front, rest, rfl, rfl, begins⟩ := Terminal.fuseAll_eq_append whole
      obtain ⟨next, rest, rfl⟩ := List.exists_cons_of_ne_nil
        (show rest ≠ [] by rintro rfl; cases begins)
      have frontKnown (token : Token) (member : token ∈ front) : token.kind ≠ .unknown :=
        known token (List.mem_append_left _ member)
      have nextKnown (token : Token) (member : token ∈ front ++ [next]) : token.kind ≠ .unknown :=
        known token (by rw [List.append_cons]; exact List.mem_append_left rest member)
      rw [← begins] at whole
      refine ⟨front, .of_next (viable_of_completes frontKnown frontRun completes)
        (not_viable_of_refused nextKnown frontRun whole begins refused), ?_⟩
      refine locates_of_stoppedBy frontKnown frontRun stopped (fun ended => absurd ended more)
        fun text same => ⟨next, rest, rfl, ?_⟩
      rw [place text same, Terminal.text_of_fuseAll begins]

/-- The tokens of `f(1<=*2`. Up to the comparison they can be completed, and the sign after it is
reported.
-/
theorem ofTokens_error_at_longestViable_comparison
    : let tokens : List Token :=
        [⟨.function, "F", 0⟩, ⟨.opening, "(", 1⟩, ⟨.number, "1", 2⟩, ⟨.operator, "<", 3⟩,
          ⟨.operator, "=", 4⟩, ⟨.operator, "*", 5⟩, ⟨.number, "2", 6⟩]
      let error : SyntaxError := .unexpectedToken "*"
      (∀ token ∈ tokens, token.kind ≠ .unknown)
      ∧ (∀ limit, error ≠ .tooDeep limit)
      ∧ ofTokens tokens = .error error
      ∧ ∃ front, LongestViable {} tokens front ∧ Locates {} tokens front error := by
  intro tokens error
  have known : ∀ token ∈ tokens, token.kind ≠ .unknown := by decide
  have shallow : ∀ limit, error ≠ .tooDeep limit := nofun
  have failed : ofTokens tokens = .error error := rfl
  exact ⟨known, shallow, failed, ofTokens_error_at_longestViable known shallow failed⟩

end Expr

end FormulaLatex
