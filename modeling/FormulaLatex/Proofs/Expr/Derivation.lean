import FormulaLatex.Proofs.Expr.Completeness
import FormulaLatex.Proofs.Expr.Grammar

/-! Reading as derivation: the reader accepts exactly what the grammar derives within the limit on
depth, and nothing that has been read is lost.
-/

namespace FormulaLatex

/-- The tokens of an operator are one terminal, if an operand follows. -/
theorem Operates.fuseAll {sign rest : List Token} {op : BinaryOperator}
    (operates : Operates sign rest op) (follows : rest ≠ []) (more : List Token)
    : ∃ terminal,
        Terminal.fuseAll (sign ++ (rest ++ more))
          = terminal :: Terminal.fuseAll (rest ++ more)
        ∧ terminal.canonical = .ofOperator op := by
  have writes := operates.writes
  rcases writes.length with single | double
  · obtain ⟨token, rfl⟩ := List.length_eq_one_iff.mp single
    obtain ⟨next, rest, rfl⟩ := List.exists_cons_of_ne_nil follows
    refine ⟨.ofToken token, Terminal.fuseAll_cons ?_, ?_⟩
    · intro other first
      obtain rfl : next = other := by simpa using first
      refine Option.eq_none_iff_forall_ne_some.mpr fun longer fused => ?_
      exact operates.longest next rfl longer (sign_pair_iff.mpr fused)
    · simp [Terminal.canonical, Terminal.ofToken, sign_single_iff.mp writes]
  · obtain ⟨token, next, rfl⟩ := List.length_eq_two.mp double
    exact ⟨_, Terminal.fuseAll_fused (sign_pair_iff.mp writes), rfl⟩

namespace Derives

variable {associativity : PowerAssociativity}

theorem ne_nil {category : Category} {tokens : List Token} {e : Expr}
    (derives : Derives associativity category tokens e)
    : tokens ≠ [] := by
  induction derives with
  | operand _ ih => exact ih
  | left _ _ _ _ _ leftIh _ | right _ _ _ _ leftIh _ => simp [leftIh]
  | _ => simp

theorem ranked {category : Category} {tokens : List Token} {e : Expr}
    (derives : Derives associativity category tokens e)
    : Expr.Ranked associativity category e := by
  induction derives with
  | operand _ ih => exact .operand ih
  | left sort grouping _ _ _ leftIh rightIh => exact .left sort grouping leftIh rightIh
  | right grouping _ _ _ leftIh rightIh => exact .right grouping leftIh rightIh
  | number _ => exact .number
  | reference _ => exact .reference
  | negate _ _ _ ih => exact .negate ih
  | call _ _ _ _ _ ih =>
      refine .call fun argument member => ?_
      obtain ⟨part, partMember, rfl⟩ := List.mem_map.mp member
      exact ih part partMember
  | group _ _ _ ih => exact .group ih

end Derives

/-- Tokens are read as terminals with a given canonical form, whatever follows them. -/
def ReadsAs (tokens : List Token) (terminals : List Terminal) : Prop :=
  ∀ more, ∃ read,
    Terminal.fuseAll (tokens ++ more) = read ++ Terminal.fuseAll more
    ∧ read.map Terminal.canonical = terminals

namespace ReadsAs

theorem nil : ReadsAs [] [] :=
  fun _ => ⟨[], rfl, rfl⟩

theorem append {front back : List Token} {terminals following : List Terminal}
    (frontReads : ReadsAs front terminals) (backReads : ReadsAs back following)
    : ReadsAs (front ++ back) (terminals ++ following) := by
  intro more
  obtain ⟨read, fused, same⟩ := frontReads (back ++ more)
  obtain ⟨readBack, fusedBack, sameBack⟩ := backReads more
  refine ⟨read ++ readBack, ?_, by simp [same, sameBack]⟩
  rw [List.append_assoc, fused, fusedBack, List.append_assoc]

theorem cons {token : Token} {tokens : List Token} {terminals : List Terminal}
    (alone : ∀ next, token.fuse? next = none) (reads : ReadsAs tokens terminals)
    : ReadsAs (token :: tokens) ((Terminal.ofToken token).canonical :: terminals) := by
  intro more
  obtain ⟨read, fused, same⟩ := reads more
  refine ⟨.ofToken token :: read, ?_, by simp [same]⟩
  rw [List.cons_append, Terminal.fuseAll_cons (fun next _ => alone next), fused,
    List.cons_append]

/-- A token that is no operator is a terminal by itself. -/
theorem cons_of_kind (token : Token) {tokens : List Token} {terminals : List Terminal}
    (kind : token.kind ≠ .operator) (reads : ReadsAs tokens terminals)
    : ReadsAs (token :: tokens) ((Terminal.ofToken token).canonical :: terminals) :=
  reads.cons fun next => by simp [Token.fuse?, kind]

theorem operator {front sign back : List Token} {op : BinaryOperator}
    {terminals following : List Terminal} (frontReads : ReadsAs front terminals)
    (operates : Operates sign back op) (follows : back ≠ [])
    (backReads : ReadsAs back following)
    : ReadsAs (front ++ sign ++ back) (terminals ++ .ofOperator op :: following) := by
  intro more
  obtain ⟨read, fused, same⟩ := frontReads (sign ++ (back ++ more))
  obtain ⟨terminal, fusedSign, canonical⟩ := operates.fuseAll follows more
  obtain ⟨readBack, fusedBack, sameBack⟩ := backReads more
  refine ⟨read ++ terminal :: readBack, ?_, by simp [same, canonical, sameBack]⟩
  rw [List.append_assoc, List.append_assoc, fused, fusedSign, fusedBack]
  simp

theorem arguments {arguments : List (List Token × Expr)} {tokens : List Token}
    (separated : Separated (arguments.map Prod.fst) tokens)
    (reads : ∀ argument ∈ arguments, ReadsAs argument.1 argument.2.terminals)
    : ReadsAs tokens (Expr.argumentTerminals (arguments.map Prod.snd)) := by
  induction arguments generalizing tokens with
  | nil =>
      cases separated
      exact .nil
  | cons first rest ih =>
      obtain ⟨firstReads, restRead⟩ := List.forall_mem_cons.mp reads
      cases rest with
      | nil =>
          cases separated
          simpa [Expr.argumentTerminals, Expr.furtherTerminals] using firstReads
      | cons second rest =>
          cases separated with
          | @cons _ separator _ _ tokens kind separated =>
              have restReads := (ih separated restRead).cons_of_kind separator
                (by simp [kind])
              simpa [Expr.argumentTerminals, Expr.furtherTerminals, Terminal.canonical,
                Terminal.ofToken, Token.role, kind] using firstReads.append restReads

end ReadsAs

/-- What the grammar derives is read as the terminals of the expression. -/
theorem Derives.readsAs {associativity : PowerAssociativity} {category : Category}
    {tokens : List Token} {e : Expr} (derives : Derives associativity category tokens e)
    : ReadsAs tokens e.terminals := by
  induction derives with
  | operand _ ih => exact ih
  | left _ _ _ operates rightDerives leftIh rightIh =>
      exact leftIh.operator operates rightDerives.ne_nil rightIh
  | right _ _ operates rightDerives leftIh rightIh =>
      exact leftIh.operator operates rightDerives.ne_nil rightIh
  | @number token kind =>
      simpa [Terminal.canonical, Terminal.ofToken, Token.role, kind, Expr.terminals]
        using ReadsAs.nil.cons_of_kind token (by simp [kind])
  | @reference token kind =>
      simpa [Terminal.canonical, Terminal.ofToken, Token.role, kind, Expr.terminals]
        using ReadsAs.nil.cons_of_kind token (by simp [kind])
  | @negate token tokens e kind text _ ih =>
      have alone (next : Token) : token.fuse? next = none := by
        simp [Token.fuse?, text, BinaryOperator.ofTexts?]
      simpa [Terminal.canonical, Terminal.ofToken, Token.role, kind, text,
        BinaryOperator.ofText?, Expr.terminals] using ih.cons alone
  | @call function opening closing tokens arguments functionKind openingKind separated _
      closingKind ih =>
      have closed := (ReadsAs.arguments separated ih).append
        (ReadsAs.nil.cons_of_kind closing (by simp [closingKind]))
      have opened := (closed.cons_of_kind opening (by simp [openingKind])).cons_of_kind
        function (by simp [functionKind])
      simpa [Terminal.canonical, Terminal.ofToken, Token.role, functionKind, openingKind,
        closingKind, Expr.terminals] using opened
  | @group opening closing tokens e openingKind _ closingKind ih =>
      have closed := ih.append
        (ReadsAs.nil.cons_of_kind closing (by simp [closingKind]))
      simpa [Terminal.canonical, Terminal.ofToken, Token.role, openingKind, closingKind,
        Expr.terminals] using closed.cons_of_kind opening (by simp [openingKind])

/-- The kind of the tokens that have a role, unless they are strays. -/
def Role.kind? : Role → Option TokenKind
  | .number => some .number
  | .reference => some .reference
  | .function => some .function
  | .opening => some .opening
  | .closing => some .closing
  | .separator => some .separator
  | .operator _ => some .operator
  | .stray => none

theorem Token.kind_of_role {token : Token} {kind : TokenKind}
    (role : token.role.kind? = some kind)
    : token.kind = kind := by
  obtain ⟨actual, text, offset⟩ := token
  cases actual with
  | operator =>
      cases written : BinaryOperator.ofText? text <;>
        simp_all [Token.role, Role.kind?]
  | unknown => cases role
  | number | reference | function | opening | closing | separator =>
      exact Option.some.inj role

/-- Tokens whose first terminal is an operator begin with a sign of it. -/
theorem Operates.of_fuseAll {tokens : List Token} {terminal : Terminal}
    {rest : List Terminal} {op : BinaryOperator}
    (same : Terminal.fuseAll tokens = terminal :: rest) (role : terminal.role = .operator op)
    : ∃ sign back,
        tokens = sign ++ back ∧ Operates sign back op ∧ Terminal.fuseAll back = rest := by
  rcases Terminal.fuseAll_eq_cons same with
    ⟨token, back, rfl, rfl, backSame, alone⟩ | ⟨token, next, back, other, rfl, fused, rfl, backSame⟩
  · refine ⟨[token], back, rfl, ⟨sign_single_iff.mpr role, ?_⟩, backSame⟩
    intro next first longer writes
    rw [List.singleton_append, sign_pair_iff, alone next first] at writes
    cases writes
  · obtain rfl : other = op := Role.operator.inj role
    refine ⟨[token, next], back, rfl, ⟨sign_pair_iff.mpr fused, ?_⟩, backSame⟩
    intro third _ longer writes
    have length := writes.length
    simp at length

/-- Tokens whose first terminal is no operator begin with a token for it. -/
theorem Terminal.exists_token_of_fuseAll {tokens : List Token} {terminal : Terminal}
    {rest : List Terminal}
    (same : (fuseAll tokens).map canonical = terminal :: rest) {kind : TokenKind}
    (role : terminal.role.kind? = some kind) (other : kind ≠ .operator)
    : ∃ token back,
        tokens = token :: back
        ∧ token.kind = kind
        ∧ (ofToken token).canonical = terminal
        ∧ (fuseAll back).map canonical = rest := by
  obtain ⟨actual, restActual, fused, canonical, restSame⟩ := List.map_eq_cons_iff.mp same
  have actualRole : actual.role = terminal.role := by
    rw [← actual.canonical_role, canonical]
  rcases fuseAll_eq_cons fused with
    ⟨token, back, rfl, rfl, rfl, _⟩ | ⟨token, next, back, op, rfl, _, rfl, rfl⟩
  · exact ⟨token, back, rfl, Token.kind_of_role (by rw [← role, ← actualRole]; rfl),
      canonical, restSame⟩
  · rw [← actualRole] at role
    exact absurd (Option.some.inj role).symm other

theorem Terminal.exists_append_of_fuseAll {tokens : List Token} {front back : List Terminal}
    (same : (fuseAll tokens).map canonical = front ++ back)
    : ∃ frontTokens backTokens,
        tokens = frontTokens ++ backTokens
        ∧ (fuseAll frontTokens).map canonical = front
        ∧ (fuseAll backTokens).map canonical = back := by
  obtain ⟨read, readBack, fused, rfl, rfl⟩ := List.map_eq_append_iff.mp same
  obtain ⟨frontTokens, backTokens, rfl, rfl, rfl⟩ := fuseAll_eq_append fused
  exact ⟨frontTokens, backTokens, rfl, rfl, rfl⟩

theorem Operates.exists_of_fuseAll {tokens : List Token} {op : BinaryOperator}
    {rest : List Terminal}
    (same : (Terminal.fuseAll tokens).map Terminal.canonical = .ofOperator op :: rest)
    : ∃ sign back,
        tokens = sign ++ back
        ∧ Operates sign back op
        ∧ (Terminal.fuseAll back).map Terminal.canonical = rest := by
  obtain ⟨terminal, readRest, fused, canonical, rfl⟩ := List.map_eq_cons_iff.mp same
  have role : terminal.role = .operator op := by
    rw [← terminal.canonical_role, canonical, Terminal.ofOperator]
  obtain ⟨sign, back, rfl, operates, rfl⟩ := Operates.of_fuseAll fused role
  exact ⟨sign, back, rfl, operates, rfl⟩

theorem Terminal.exists_last_of_fuseAll {tokens : List Token} {terminal : Terminal}
    (same : (fuseAll tokens).map canonical = [terminal]) {kind : TokenKind}
    (role : terminal.role.kind? = some kind) (other : kind ≠ .operator)
    : ∃ token,
        tokens = [token] ∧ token.kind = kind ∧ (ofToken token).canonical = terminal := by
  obtain ⟨token, back, rfl, kind, canonical, backSame⟩ := exists_token_of_fuseAll same role other
  obtain rfl := eq_nil_of_fuseAll (List.map_eq_nil_iff.mp backSame)
  exact ⟨token, rfl, kind, canonical⟩

/-- Tokens that are read as arguments are phrases that derive them, with separators between. -/
theorem Separated.of_fuseAll {associativity : PowerAssociativity} {arguments : List Expr}
    {tokens : List Token}
    (derives
      : ∀ argument ∈ arguments,
          ∀ {tokens : List Token},
            (Terminal.fuseAll tokens).map Terminal.canonical = argument.terminals
            → Derives associativity (.chain .comparison) tokens argument)
    (same
      : (Terminal.fuseAll tokens).map Terminal.canonical = Expr.argumentTerminals arguments)
    : ∃ parts : List (List Token × Expr),
        parts.map Prod.snd = arguments
        ∧ Separated (parts.map Prod.fst) tokens
        ∧ ∀ part ∈ parts, Derives associativity (.chain .comparison) part.1 part.2 := by
  induction arguments generalizing tokens with
  | nil =>
      obtain rfl := Terminal.eq_nil_of_fuseAll (List.map_eq_nil_iff.mp same)
      exact ⟨[], rfl, .none, by simp⟩
  | cons first rest ih =>
      obtain ⟨firstDerives, restDerive⟩ := List.forall_mem_cons.mp derives
      obtain ⟨front, back, rfl, frontSame, backSame⟩ := Terminal.exists_append_of_fuseAll same
      cases rest with
      | nil =>
          obtain rfl := Terminal.eq_nil_of_fuseAll (List.map_eq_nil_iff.mp backSame)
          refine ⟨[(front, first)], rfl, ?_, by simpa using firstDerives frontSame⟩
          rw [List.append_nil]
          exact .single
      | cons second rest =>
          obtain ⟨separator, back, rfl, kind, _, backSame⟩ :=
            Terminal.exists_token_of_fuseAll backSame rfl (by simp)
          obtain ⟨parts, partsSame, separated, partsDerive⟩ := ih restDerive backSame
          obtain ⟨part, parts, rfl⟩ :=
            List.exists_cons_of_ne_nil (l := parts) (by rintro rfl; cases partsSame)
          exact ⟨(front, first) :: part :: parts, congrArg _ partsSame, .cons kind separated,
            List.forall_mem_cons.mpr ⟨firstDerives frontSame, partsDerive⟩⟩

/-- Tokens that are read as the terminals of a ranked expression derive it. -/
theorem Expr.Ranked.derives {associativity : PowerAssociativity} {category : Category}
    {e : Expr} (ranked : Expr.Ranked associativity category e) {tokens : List Token}
    (same : (Terminal.fuseAll tokens).map Terminal.canonical = e.terminals)
    : Derives associativity category tokens e := by
  induction ranked generalizing tokens with
  | operand _ ih => exact .operand (ih same)
  | left sort grouping _ _ leftIh rightIh =>
      obtain ⟨front, back, rfl, frontSame, backSame⟩ := Terminal.exists_append_of_fuseAll same
      obtain ⟨sign, back, rfl, operates, backSame⟩ := Operates.exists_of_fuseAll backSame
      rw [← List.append_assoc]
      exact .left sort grouping (leftIh frontSame) operates (rightIh backSame)
  | right grouping _ _ leftIh rightIh =>
      obtain ⟨front, back, rfl, frontSame, backSame⟩ := Terminal.exists_append_of_fuseAll same
      obtain ⟨sign, back, rfl, operates, backSame⟩ := Operates.exists_of_fuseAll backSame
      rw [← List.append_assoc]
      exact .right grouping (leftIh frontSame) operates (rightIh backSame)
  | number =>
      obtain ⟨token, rfl, kind, canonical⟩ := Terminal.exists_last_of_fuseAll same rfl (by simp)
      obtain rfl : token.text = _ := by
        simpa [Terminal.canonical, Terminal.ofToken, Token.role, kind] using canonical
      exact .number kind
  | reference =>
      obtain ⟨token, rfl, kind, canonical⟩ := Terminal.exists_last_of_fuseAll same rfl (by simp)
      obtain rfl : token.text = _ := by
        simpa [Terminal.canonical, Terminal.ofToken, Token.role, kind] using canonical
      exact .reference kind
  | negate _ ih =>
      obtain ⟨sign, back, rfl, operates, backSame⟩ := Operates.exists_of_fuseAll same
      obtain ⟨token, rfl, text⟩ := List.map_eq_singleton_iff.mp operates.writes.texts
      exact .negate (operates.writes.operators token (by simp)) text (ih backSame)
  | @call name arguments _ ih =>
      obtain ⟨function, back, rfl, functionKind, canonical, backSame⟩ :=
        Terminal.exists_token_of_fuseAll same rfl (by simp)
      obtain ⟨opening, back, rfl, openingKind, _, backSame⟩ :=
        Terminal.exists_token_of_fuseAll backSame rfl (by simp)
      obtain ⟨inner, back, rfl, innerSame, backSame⟩ :=
        Terminal.exists_append_of_fuseAll backSame
      obtain ⟨closing, rfl, closingKind, _⟩ :=
        Terminal.exists_last_of_fuseAll backSame rfl (by simp)
      obtain rfl : Text.upperCase function.text = name := by
        simpa [Terminal.canonical, Terminal.ofToken, Token.role, functionKind] using canonical
      obtain ⟨parts, rfl, separated, derives⟩ := Separated.of_fuseAll ih innerSame
      exact .call functionKind openingKind separated derives closingKind
  | group _ ih =>
      obtain ⟨opening, back, rfl, openingKind, _, backSame⟩ :=
        Terminal.exists_token_of_fuseAll same rfl (by simp)
      obtain ⟨inner, back, rfl, innerSame, backSame⟩ :=
        Terminal.exists_append_of_fuseAll backSame
      obtain ⟨closing, rfl, closingKind, _⟩ :=
        Terminal.exists_last_of_fuseAll backSame rfl (by simp)
      exact .group openingKind (ih innerSame) closingKind

theorem derives_iff {associativity : PowerAssociativity} {category : Category}
    {tokens : List Token} {e : Expr}
    : Derives associativity category tokens e
        ↔ Expr.Ranked associativity category e
          ∧ (Terminal.fuseAll tokens).map Terminal.canonical = e.terminals := by
  constructor
  · intro derives
    obtain ⟨read, fused, same⟩ := derives.readsAs []
    refine ⟨derives.ranked, ?_⟩
    rw [List.append_nil] at fused
    simp [fused, same, Terminal.fuseAll]
  · rintro ⟨ranked, same⟩
    exact ranked.derives same

/-- What an expression keeps of a token: its kind, and its text, which for a function is in
upper case and for a bracket or a separator is the usual one.
-/
def Token.content (token : Token) : TokenKind × String :=
  match token.kind with
  | .function => (.function, Text.upperCase token.text)
  | .opening => (.opening, "(")
  | .closing => (.closing, ")")
  | .separator => (.separator, ",")
  | kind => (kind, token.text)

/-- What is kept of the tokens that a terminal stands for. -/
def Terminal.contents (terminal : Terminal) : List (TokenKind × String) :=
  match terminal.role with
  | .operator op => op.signs.map fun sign => (.operator, sign)
  | .number => [(.number, terminal.text)]
  | .reference => [(.reference, terminal.text)]
  | .function => [(.function, terminal.text)]
  | .opening => [(.opening, terminal.text)]
  | .closing => [(.closing, terminal.text)]
  | .separator => [(.separator, terminal.text)]
  | .stray => [(.operator, terminal.text)]

/-- The tokens that an expression was read from, by what it keeps of them, in order. -/
def Expr.contents (e : Expr) : List (TokenKind × String) :=
  e.terminals.flatMap Terminal.contents

/-- The tokens that have a meaning in a formula. -/
def Token.known (tokens : List Token) : List Token :=
  tokens.filter fun token => token.kind != .unknown

theorem Terminal.contents_ofToken {token : Token} (known : token.kind ≠ .unknown)
    : (ofToken token).canonical.contents = [token.content] := by
  obtain ⟨kind, text, offset⟩ := token
  cases kind with
  | operator =>
      cases written : BinaryOperator.ofText? text with
      | none => simp [ofToken, canonical, contents, Token.role, Token.content, written]
      | some op =>
          have signs := BinaryOperator.ofText?_eq_some_iff.mp written
          simp [ofToken, ofOperator, canonical, contents, Token.role, Token.content, written,
            ← signs]
  | unknown => contradiction
  | _ => rfl

theorem Terminal.contents_fuseAll {tokens : List Token}
    (known : ∀ token ∈ tokens, token.kind ≠ .unknown)
    : ((fuseAll tokens).map canonical).flatMap contents = tokens.map Token.content := by
  fun_induction fuseAll tokens with
  | case1 => rfl
  | case2 token => simpa using contents_ofToken (known token (by simp))
  | case3 token next rest op fused ih =>
      simp only [List.forall_mem_cons] at known
      have writes := sign_pair_iff.mpr fused
      have kind := writes.operators token (by simp)
      have nextKind := writes.operators next (by simp)
      rw [List.map_cons, List.flatMap_cons, ih known.2.2]
      simp [canonical, ofOperator, contents, ← writes.texts, Token.content, kind, nextKind]
  | case4 token next rest fused ih =>
      obtain ⟨tokenKnown, restKnown⟩ := List.forall_mem_cons.mp known
      rw [List.map_cons, List.flatMap_cons, ih restKnown, contents_ofToken tokenKnown]
      rfl

/-- The reader is exactly the grammar with its limit on depth: it gives an expression if and
only if the tokens with a meaning derive that expression and it is nested no deeper than the
limit. No tokens derive two expressions, and an expression holds exactly the tokens that
derive it, in order.
-/
theorem Expr.ofTokens_exactly_derives (tokens : List Token) (options : ReaderOptions)
    : (∀ e,
        Expr.ofTokens tokens options = .ok e
          ↔ Derives options.powerAssociativity (.chain .comparison) (Token.known tokens) e
            ∧ e.depth options.powerAssociativity ≤ options.maxDepth)
      ∧ (∀ e other,
          Derives options.powerAssociativity (.chain .comparison) (Token.known tokens) e
          → Derives options.powerAssociativity (.chain .comparison) (Token.known tokens) other
          → e = other)
      ∧ ∀ e,
          Derives options.powerAssociativity (.chain .comparison) (Token.known tokens) e
          → e.contents = (Token.known tokens).map Token.content := by
  refine ⟨fun e => ?_, fun e other derives otherDerives => ?_, fun e derives => ?_⟩
  · rw [derives_iff, and_assoc, and_comm (b := _ ≤ _)]
    exact Expr.ofTerminals_eq_ok_iff
  · obtain ⟨ranked, same⟩ := derives_iff.mp derives
    obtain ⟨otherRanked, otherSame⟩ := derives_iff.mp otherDerives
    exact ranked.eq_of_terminals otherRanked same otherSame
  · obtain ⟨_, same⟩ := derives_iff.mp derives
    rw [Expr.contents, ← same]
    refine Terminal.contents_fuseAll fun token member => ?_
    simpa using (List.mem_filter.mp member).2

/-- The tokens of `2^-a1<=f()` with a stray `#` after the comparison, where an exponent lies
one level deeper than its power: the minus sign is at the second level, the reference at the
third, and nothing is deeper.
-/
theorem ofTokens_exactly_derives_at_limit
    : let tokens : List Token :=
        [⟨.number, "2", 0⟩, ⟨.operator, "^", 1⟩, ⟨.operator, "-", 2⟩, ⟨.reference, "A1", 3⟩,
          ⟨.operator, "<", 5⟩, ⟨.operator, "=", 6⟩, ⟨.unknown, "#", 7⟩, ⟨.function, "f", 8⟩,
          ⟨.opening, "(", 9⟩, ⟨.closing, ")", 10⟩]
      let e : Expr :=
        .binary .lessEqual (.binary .power (.number "2") (.negate (.reference "A1")))
          (.call "F" [])
      Derives .right (.chain .comparison) (Token.known tokens) e
      ∧ e.depth .right = 3
      ∧ (∀ other, Derives .right (.chain .comparison) (Token.known tokens) other → other = e)
      ∧ e.contents = (Token.known tokens).map Token.content := by
  intro tokens e
  obtain ⟨read, unique, contents⟩ := Expr.ofTokens_exactly_derives tokens ⟨3, .right⟩
  have derives := ((read e).mp rfl).1
  exact ⟨derives, rfl, fun other otherDerives => unique other e otherDerives derives,
    contents e derives⟩

end FormulaLatex
