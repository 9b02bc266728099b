import FormulaLatex.Proofs.Expr.Completeness
import FormulaLatex.Proofs.Expr.Grammar

/-! Comparisons of two tokens. Where tokens are put together, only the two that meet can be fused,
and where an operand ends nothing is fused. Apart from that it matters only after an operand
whether two tokens are one comparison or two.
-/

namespace FormulaLatex

-----------------------------------------------------------------------------------------
-- Fusing
-----------------------------------------------------------------------------------------

theorem BinaryOperator.ofTexts?_eq_some {first second : String} {op : BinaryOperator}
    (fused : ofTexts? first second = some op)
    : op.isComparison = true ∧ (first = "<" ∨ first = ">") ∧ (second = "=" ∨ second = ">") := by
  unfold ofTexts? at fused
  split at fused
  · cases fused
    decide
  · cases fused
    decide
  · cases fused
    decide
  · cases fused

/-- Two tokens that are fused are operators of one character, and the second follows the first
at once.
-/
theorem Token.fuse?_eq_some {token next : Token} {op : BinaryOperator}
    (fused : token.fuse? next = some op)
    : op.isComparison = true
      ∧ (token.kind = .operator ∧ (token.text = "<" ∨ token.text = ">"))
      ∧ (next.kind = .operator ∧ (next.text = "=" ∨ next.text = ">"))
      ∧ next.offset = token.offset + 1 := by
  rw [fuse?] at fused
  split at fused
  · rename_i both
    obtain ⟨kind, nextKind, adjoin⟩ := both
    obtain ⟨comparison, text, nextText⟩ := BinaryOperator.ofTexts?_eq_some fused
    have narrow : token.text.utf8ByteSize = 1 := by
      rcases text with text | text <;> rw [text] <;> rfl
    rw [adjoins, beq_iff_eq, narrow] at adjoin
    exact ⟨comparison, ⟨kind, text⟩, ⟨nextKind, nextText⟩, adjoin.symm⟩
  · cases fused

namespace Terminal

/-- Lists of tokens are fused apart, or else their last and first token are fused. -/
theorem fuseAll_append (left right : List Token)
    : fuseAll (left ++ right) = fuseAll left ++ fuseAll right
      ∨ ∃ before first second after op,
          left = before ++ [first]
          ∧ right = second :: after
          ∧ first.fuse? second = some op
          ∧ fuseAll left = fuseAll before ++ [ofToken first]
          ∧ fuseAll (left ++ right)
              = fuseAll before ++ ⟨.operator op, first.text⟩ :: fuseAll after := by
  fun_induction fuseAll left with
  | case1 => exact Or.inl rfl
  | case2 token =>
      cases right with
      | nil => exact Or.inl rfl
      | cons second after =>
          cases fused : token.fuse? second with
          | none => exact Or.inl (fuseAll_cons (by simpa using fused))
          | some op =>
              exact Or.inr ⟨[], token, second, after, op, rfl, rfl, fused, rfl,
                fuseAll_fused fused⟩
  | case3 token next rest op fused ih =>
      rcases ih with
        apart | ⟨before, first, second, after, other, rfl, rfl, together, left, whole⟩
      · left
        rw [List.cons_append, List.cons_append, fuseAll_fused fused, apart]
        rfl
      · refine Or.inr ⟨token :: next :: before, first, second, after, other, rfl, rfl, together,
          ?_, ?_⟩
        · rw [fuseAll_fused fused, left]
          rfl
        · rw [List.cons_append, List.cons_append, fuseAll_fused fused, fuseAll_fused fused, whole]
          rfl
  | case4 token next rest alone ih =>
      have lone : fuseAll (token :: (next :: rest ++ right))
          = ofToken token :: fuseAll (next :: rest ++ right) :=
        fuseAll_cons (by simpa using alone)
      rcases ih with
        apart | ⟨before, first, second, after, other, same, rfl, together, left, whole⟩
      · left
        rw [List.cons_append, lone, apart]
        rfl
      · have start : fuseAll (token :: before) = ofToken token :: fuseAll before := by
          refine fuseAll_cons fun head begins => ?_
          have heads := congrArg List.head? same
          rw [List.head?_append, begins] at heads
          rw [← Option.some.inj heads]
          exact alone
        refine Or.inr ⟨token :: before, first, second, after, other, ?_, rfl, together, ?_, ?_⟩
        · rw [same, List.cons_append]
        · rw [start, left, List.cons_append]
        · rw [List.cons_append, lone, whole, start, List.cons_append]

theorem ofTokens_eq_fuseAll {tokens : List Token}
    (known : ∀ token ∈ tokens, token.kind ≠ .unknown)
    : ofTokens tokens = fuseAll tokens := by
  rw [ofTokens, List.filter_eq_self.mpr]
  intro token member
  simpa using known token member

theorem ofToken_comparison {token : Token} (kind : token.kind = .operator)
    (text : token.text ∈ ["=", "<", ">"])
    : ∃ op : BinaryOperator, op.isComparison = true ∧ ofToken token = ⟨.operator op, token.text⟩
    := by
  obtain ⟨_, sign, _⟩ := token
  cases kind
  simp only [List.mem_cons, List.not_mem_nil, or_false] at text
  rcases text with rfl | rfl | rfl
  · exact ⟨.equal, rfl, rfl⟩
  · exact ⟨.less, rfl, rfl⟩
  · exact ⟨.greater, rfl, rfl⟩

/-- A token that is a comparison by itself begins one, alone or with the token after it. -/
theorem fuseAll_comparison {token : Token} (kind : token.kind = .operator)
    (text : token.text ∈ ["=", "<", ">"]) (rest : List Token)
    : ∃ (op : BinaryOperator) (back : List Terminal),
        op.isComparison = true
        ∧ fuseAll (token :: rest) = ⟨.operator op, token.text⟩ :: back := by
  obtain ⟨op, comparison, alone⟩ := ofToken_comparison kind text
  cases rest with
  | nil => exact ⟨op, [], comparison, by rw [fuseAll, alone]⟩
  | cons next rest =>
      cases fused : token.fuse? next with
      | none =>
          refine ⟨op, fuseAll (next :: rest), comparison, ?_⟩
          rw [fuseAll_cons (by simpa using fused), alone]
      | some other =>
          exact ⟨other, fuseAll rest, (Token.fuse?_eq_some fused).1, fuseAll_fused fused⟩

end Terminal

-----------------------------------------------------------------------------------------
-- Readings
-----------------------------------------------------------------------------------------

namespace Expr

variable {options : ReaderOptions}

namespace Reading

theorem step_of_operand {reading : Reading} (due : reading.phase = .operand)
    (terminal : Terminal)
    : reading.step options terminal = (reading.withinDepth options).bind (·.begin terminal) := by
  simp only [step, due]
  rfl

theorem begin_comparison (reading : Reading) {op : BinaryOperator}
    (comparison : op.isComparison = true) (text : String)
    : reading.begin ⟨.operator op, text⟩ = .error (.unexpectedToken text) := by
  cases op <;> first | rfl | cases comparison

/-- Where no operand has been read, all comparisons are refused alike. -/
theorem step_refuses (options : ReaderOptions) {reading : Reading}
    (none : ∀ operand, reading.phase ≠ .continuation operand) (text : String)
    : ∃ error, ∀ op : BinaryOperator, op.isComparison = true
        → reading.step options ⟨.operator op, text⟩ = .error error := by
  have refused (due : reading.Due) : ∃ error, ∀ op : BinaryOperator, op.isComparison = true
      → reading.step options ⟨.operator op, text⟩ = .error error := by
    cases within : reading.withinDepth options with
    | error error =>
        refine ⟨error, fun op _ => ?_⟩
        rw [step_of_due due (by simp), within]
        rfl
    | ok other =>
        refine ⟨.unexpectedToken text, fun op comparison => ?_⟩
        rw [step_of_due due (by simp), within]
        exact begin_comparison other comparison text
  cases phase : reading.phase with
  | operand => exact refused (Or.inl phase)
  | argument => exact refused (Or.inr phase)
  | opening function =>
      refine ⟨.missingOpening function, fun op _ => ?_⟩
      simp only [step, phase]
  | continuation operand => exact absurd phase (none operand)

/-- After a comparison an operand lies as deep as its bracket. -/
theorem depth_operate_comparison {reading : Reading} {operand : Expr}
    (phase : reading.phase = .continuation operand) {op : BinaryOperator}
    (comparison : op.isComparison = true) (associativity : PowerAssociativity)
    : (reading.operate op).depth associativity
        = Enclosure.innerDepth associativity reading.enclosures := by
  have fresh : ∀ run, nextRun associativity run op = 0 := by
    intro run
    cases op <;> first | (cases associativity <;> rfl) | cases comparison
  simp only [operate, phase, depth, depth_links_cons, fresh, Nat.zero_add]

/-- If reading goes on to an expression where an operand is due, the operand is not too deep. -/
theorem depth_lt_of_accepted {reading : Reading} {terminals : List Terminal} {e : Expr}
    (due : reading.phase = .operand)
    (accepted : (terminals.foldlM (step options) reading).bind (·.finish options) = .ok e)
    : reading.depth options.powerAssociativity < options.maxDepth := by
  cases terminals with
  | nil =>
      obtain ⟨operand, _, phase, _⟩ := finish_eq_ok accepted
      rw [due] at phase
      cases phase
  | cons terminal rest =>
      rw [List.foldlM_cons, step_of_operand due] at accepted
      cases within : reading.withinDepth options with
      | error error =>
          rw [within] at accepted
          cases accepted
      | ok other => exact (withinDepth_eq_ok within).2

theorem phase_of_comparison {front : List Terminal} {op : BinaryOperator} {text : String}
    (comparison : op.isComparison = true) {start reading : Reading}
    (run : (front ++ [(⟨.operator op, text⟩ : Terminal)]).foldlM (step options) start
      = .ok reading)
    : reading.phase = .operand := by
  rw [List.foldlM_append] at run
  cases before : front.foldlM (step options) start with
  | error error =>
      rw [before] at run
      cases run
  | ok middle =>
      rw [before] at run
      replace run : (middle.step options ⟨.operator op, text⟩).bind pure = .ok reading := run
      by_cases reached : ∃ operand, middle.phase = .continuation operand
      · obtain ⟨operand, phase⟩ := reached
        rw [step_operator_of_continuation phase rfl] at run
        cases run
        exact phase_operate phase op
      · obtain ⟨error, refused⟩ := step_refuses options (not_exists.mp reached) text
        rw [refused op comparison] at run
        cases run

end Reading

open Reading

/-- Two comparisons where none can stand are reported alike, whatever follows. -/
theorem ofTerminals_eq_of_not_reached {front left right : List Terminal} {text : String}
    {op other : BinaryOperator} (comparison : op.isComparison = true)
    (otherComparison : other.isComparison = true)
    (none : ∀ reading operand, front.foldlM (step options) {} = .ok reading
      → reading.phase ≠ .continuation operand)
    : ofTerminals (front ++ ⟨.operator op, text⟩ :: left) options
        = ofTerminals (front ++ ⟨.operator other, text⟩ :: right) options := by
  rw [ofTerminals, ofTerminals, List.foldlM_append, List.foldlM_append]
  cases run : front.foldlM (step options) {} with
  | error error => rfl
  | ok reading =>
      obtain ⟨error, refused⟩ := step_refuses options
        (fun operand => none reading operand run) text
      simp only [bind, Except.bind, List.foldlM_cons, refused op comparison,
        refused other otherComparison]

/-- A comparison that is read may not be cut in two: its second character cannot begin the
operand that is due after the first.
-/
theorem ofTerminals_cut {front rest back : List Terminal} {reading : Reading} {operand e : Expr}
    (run : front.foldlM (step options) {} = .ok reading)
    (phase : reading.phase = .continuation operand) {text sign : String}
    {op other next : BinaryOperator} (comparison : op.isComparison = true)
    (otherComparison : other.isComparison = true) (nextComparison : next.isComparison = true)
    (accepted : ofTerminals (front ++ ⟨.operator op, text⟩ :: rest) options = .ok e)
    : ofTerminals (front ++ ⟨.operator other, text⟩ :: ⟨.operator next, sign⟩ :: back) options
        = .error (.unexpectedToken sign) := by
  rw [ofTerminals, foldlM_append_ok run,
    foldlM_cons_ok (step_operator_of_continuation phase rfl)] at accepted
  have within := depth_lt_of_accepted (phase_operate phase op) accepted
  rw [depth_operate_comparison phase comparison,
    ← depth_operate_comparison phase otherComparison] at within
  have refused : (reading.operate other).step options ⟨.operator next, sign⟩
      = .error (.unexpectedToken sign) := by
    rw [step_due (Or.inl (phase_operate phase other)) within (by simp)]
    exact begin_comparison _ nextComparison sign
  rw [ofTerminals, foldlM_append_ok run,
    foldlM_cons_ok (step_operator_of_continuation phase rfl), List.foldlM_cons, refused]
  rfl

end Expr

/-- What follows an operand is not fused with what precedes it. -/
theorem Terminal.fuseAll_append_of_continuation {options : ReaderOptions}
    {front back : List Token} {reading : Expr.Reading} {operand : Expr}
    (run : (fuseAll front).foldlM (Expr.Reading.step options) {} = .ok reading)
    (phase : reading.phase = .continuation operand)
    : fuseAll (front ++ back) = fuseAll front ++ fuseAll back := by
  rcases fuseAll_append front back with
    apart | ⟨before, last, next, _, op, rfl, rfl, fused, alone, _⟩
  · exact apart
  · -- An operand is due after the operator that would be fused.
    obtain ⟨_, ⟨kind, text⟩, _⟩ := Token.fuse?_eq_some fused
    obtain ⟨other, comparison, same⟩ := ofToken_comparison kind (by simp [text])
    rw [alone, same] at run
    rw [Expr.Reading.phase_of_comparison comparison run] at phase
    cases phase

end FormulaLatex
