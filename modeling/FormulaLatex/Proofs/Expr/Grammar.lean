import FormulaLatex.Proofs.Expr.Ranked
import Mathlib.Data.List.Chain

/-! The grammar of expressions over tokens, and how the terminals of a list of tokens follow the
signs of its operators.
-/

namespace FormulaLatex

/-- The texts of the operator tokens that write an operator. -/
def BinaryOperator.signs : BinaryOperator → List String
  | .lessEqual => ["<", "="]
  | .notEqual => ["<", ">"]
  | .greaterEqual => [">", "="]
  | op => [op.symbol]

/-- Operator tokens that write an operator together: each adjoins the next. -/
structure Sign (sign : List Token) (op : BinaryOperator) : Prop where
  operators : ∀ token ∈ sign, token.kind = .operator
  texts : sign.map Token.text = op.signs
  adjoining : sign.IsChain fun token next => token.adjoins next

/-- Tokens that are read as an operator when `rest` follows: they write it, and no longer sign
begins there.
-/
structure Operates (sign rest : List Token) (op : BinaryOperator) : Prop where
  writes : Sign sign op
  longest : ∀ next ∈ rest.head?, ∀ longer, ¬ Sign (sign ++ [next]) longer

/-- Phrases with a separator token between each and the next. -/
inductive Separated : List (List Token) → List Token → Prop
  | none : Separated [] []
  | single {phrase} : Separated [phrase] phrase
  | cons {phrase separator next phrases tokens} (kind : separator.kind = .separator)
    (rest : Separated (next :: phrases) tokens)
    : Separated (phrase :: next :: phrases) (phrase ++ separator :: tokens)

/-- The grammar of expressions. A chain leans to the left, or to the right if it is of powers
that are grouped from there; a minus sign negates one primary; the name of a function is kept
in upper case.
-/
inductive Derives (associativity : PowerAssociativity) : Category → List Token → Expr → Prop
  | operand {rank tokens e} (derives : Derives associativity rank.operand tokens e)
    : Derives associativity (.chain rank) tokens e
  | left {rank op front sign back l r} (sort : op.precedence = rank)
    (grouping : rank = .power → associativity = .left)
    (leftDerives : Derives associativity (.chain rank) front l)
    (operates : Operates sign back op)
    (rightDerives : Derives associativity rank.operand back r)
    : Derives associativity (.chain rank) (front ++ sign ++ back) (.binary op l r)
  | right {front sign back l r} (grouping : associativity = .right)
    (leftDerives : Derives associativity .primary front l)
    (operates : Operates sign back .power)
    (rightDerives : Derives associativity (.chain .power) back r)
    : Derives associativity (.chain .power) (front ++ sign ++ back) (.binary .power l r)
  | number {token} (kind : token.kind = .number)
    : Derives associativity .primary [token] (.number token.text)
  | reference {token} (kind : token.kind = .reference)
    : Derives associativity .primary [token] (.reference token.text)
  | negate {token tokens e} (kind : token.kind = .operator) (text : token.text = "-")
    (derives : Derives associativity .primary tokens e)
    : Derives associativity .primary (token :: tokens) (.negate e)
  | call {function opening closing tokens} {arguments : List (List Token × Expr)}
    (functionKind : function.kind = .function) (openingKind : opening.kind = .opening)
    (separated : Separated (arguments.map Prod.fst) tokens)
    (derives
      : ∀ argument ∈ arguments,
          Derives associativity (.chain .comparison) argument.1 argument.2)
    (closingKind : closing.kind = .closing)
    : Derives associativity .primary (function :: opening :: (tokens ++ [closing]))
        (.call (Text.upperCase function.text) (arguments.map Prod.snd))
  | group {opening closing tokens e} (openingKind : opening.kind = .opening)
    (derives : Derives associativity (.chain .comparison) tokens e)
    (closingKind : closing.kind = .closing)
    : Derives associativity .primary (opening :: (tokens ++ [closing])) (.group e)

theorem BinaryOperator.ofText?_eq_some_iff {text : String} {op : BinaryOperator}
    : BinaryOperator.ofText? text = some op ↔ [text] = op.signs := by
  unfold BinaryOperator.ofText?
  split <;> cases op <;> simp_all [signs, symbol]

theorem BinaryOperator.ofTexts?_eq_some_iff {first second : String} {op : BinaryOperator}
    : BinaryOperator.ofTexts? first second = some op ↔ [first, second] = op.signs := by
  unfold BinaryOperator.ofTexts?
  split <;> cases op <;> simp_all [signs]

theorem sign_single_iff {token : Token} {op : BinaryOperator}
    : Sign [token] op ↔ token.role = .operator op := by
  constructor
  · intro sign
    have kind := sign.operators token (by simp)
    have text := BinaryOperator.ofText?_eq_some_iff.mpr sign.texts
    simp [Token.role, kind, text]
  · intro role
    unfold Token.role at role
    split at role
    case h_7 kind =>
      cases text : BinaryOperator.ofText? token.text with
      | none => simp [text] at role
      | some other =>
          simp only [text, Option.elim_some, Role.operator.injEq] at role
          subst role
          exact ⟨by simpa using kind, BinaryOperator.ofText?_eq_some_iff.mp text, by simp⟩
    all_goals cases role

theorem sign_pair_iff {token next : Token} {op : BinaryOperator}
    : Sign [token, next] op ↔ token.fuse? next = some op := by
  unfold Token.fuse?
  constructor
  · intro sign
    have adjoin : token.adjoins next := by simpa using sign.adjoining
    rw [if_pos ⟨sign.operators token (by simp), sign.operators next (by simp), adjoin⟩]
    exact BinaryOperator.ofTexts?_eq_some_iff.mpr sign.texts
  · intro fused
    split at fused
    · rename_i both
      obtain ⟨kind, nextKind, adjoin⟩ := both
      exact ⟨by simp [kind, nextKind], BinaryOperator.ofTexts?_eq_some_iff.mp fused,
        by simpa using adjoin⟩
    · cases fused

theorem Sign.length {sign : List Token} {op : BinaryOperator} (writes : Sign sign op)
    : sign.length = 1 ∨ sign.length = 2 := by
  have texts := congrArg List.length writes.texts
  rw [List.length_map] at texts
  rw [texts]
  cases op <;> simp [BinaryOperator.signs]

namespace Terminal

theorem fuseAll_cons {token : Token} {rest : List Token}
    (alone : ∀ next ∈ rest.head?, token.fuse? next = none)
    : fuseAll (token :: rest) = ofToken token :: fuseAll rest := by
  cases rest with
  | nil => rfl
  | cons next rest => simp [fuseAll, alone next rfl]

theorem fuseAll_fused {token next : Token} {rest : List Token} {op : BinaryOperator}
    (fused : token.fuse? next = some op)
    : fuseAll (token :: next :: rest) = ⟨.operator op, token.text⟩ :: fuseAll rest := by
  simp [fuseAll, fused]

theorem eq_nil_of_fuseAll {tokens : List Token} (same : fuseAll tokens = []) : tokens = [] := by
  rcases tokens with _ | ⟨token, _ | ⟨next, back⟩⟩
  · rfl
  · cases same
  · cases fused : token.fuse? next <;> simp [fuseAll, fused] at same

/-- The first terminal of a list of tokens is its first token alone, or its first two. -/
theorem fuseAll_eq_cons {tokens : List Token} {terminal : Terminal} {rest : List Terminal}
    (same : fuseAll tokens = terminal :: rest)
    : (∃ token back,
        tokens = token :: back
        ∧ ofToken token = terminal
        ∧ fuseAll back = rest
        ∧ ∀ next ∈ back.head?, token.fuse? next = none)
      ∨ ∃ token next back op,
          tokens = token :: next :: back
          ∧ token.fuse? next = some op
          ∧ terminal = ⟨.operator op, token.text⟩
          ∧ fuseAll back = rest := by
  rcases tokens with _ | ⟨token, _ | ⟨next, back⟩⟩
  · cases same
  · cases same
    exact .inl ⟨token, [], rfl, rfl, rfl, by simp⟩
  · cases fused : token.fuse? next with
      | none =>
          simp only [fuseAll, fused, List.cons.injEq] at same
          exact .inl ⟨token, next :: back, rfl, same.1, same.2, by simpa using fused⟩
      | some op =>
          simp only [fuseAll, fused, List.cons.injEq] at same
          exact .inr ⟨token, next, back, op, rfl, fused, same.1.symm, same.2⟩

/-- Where the terminals of a list of tokens are split, the tokens can be split. -/
theorem fuseAll_eq_append {tokens : List Token} {front back : List Terminal}
    (same : fuseAll tokens = front ++ back)
    : ∃ frontTokens backTokens,
        tokens = frontTokens ++ backTokens
        ∧ fuseAll frontTokens = front
        ∧ fuseAll backTokens = back := by
  induction front generalizing tokens with
  | nil => exact ⟨[], tokens, rfl, rfl, same⟩
  | cons terminal front ih =>
      rcases fuseAll_eq_cons same with
        ⟨token, rest, rfl, rfl, restSame, alone⟩ | ⟨token, next, rest, op, rfl, fused, rfl, restSame⟩
      · obtain ⟨frontTokens, backTokens, rfl, frontSame, backSame⟩ := ih restSame
        refine ⟨token :: frontTokens, backTokens, rfl, ?_, backSame⟩
        rw [fuseAll_cons, frontSame]
        intro next first
        exact alone next (by simp [Option.mem_def.mp first])
      · obtain ⟨frontTokens, backTokens, rfl, frontSame, backSame⟩ := ih restSame
        refine ⟨token :: next :: frontTokens, backTokens, rfl, ?_, backSame⟩
        rw [fuseAll_fused fused, frontSame]

end Terminal

end FormulaLatex
