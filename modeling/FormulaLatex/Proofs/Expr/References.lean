import FormulaLatex.Proofs.Expr.Completeness
import FormulaLatex.Proofs.Expr.Grammar
import FormulaLatex.Token.OfFormula

/-! The references of an expression. They are those of the tokens that the expression was read
from, one for one and in the same order, whatever the grouping has made of the operators.
-/

namespace FormulaLatex

/-- The texts of the reference terminals of a list, in order. -/
def Terminal.references (terminals : List Terminal) : List String :=
  (terminals.filter fun terminal => terminal.role == .reference).map Terminal.text

namespace Terminal

@[simp]
theorem references_nil : references [] = [] :=
  rfl

@[simp]
theorem references_append (front back : List Terminal)
    : references (front ++ back) = references front ++ references back := by
  simp [references]

theorem references_cons (terminal : Terminal) (rest : List Terminal)
    : references (terminal :: rest) = references [terminal] ++ references rest :=
  references_append [terminal] rest

theorem references_of_role_ne {terminal : Terminal} (role : terminal.role ≠ .reference)
    : references [terminal] = [] := by
  simp [references, role]

theorem references_canonical (terminal : Terminal)
    : references [terminal.canonical] = references [terminal] := by
  by_cases role : terminal.role = .reference
  · rw [canonical, role]
  · rw [references_of_role_ne role, references_of_role_ne (by rwa [canonical_role])]

theorem references_map_canonical (terminals : List Terminal)
    : references (terminals.map canonical) = references terminals := by
  induction terminals with
  | nil => rfl
  | cons terminal rest ih =>
      rw [List.map_cons, references_cons, references_canonical, ih, ← references_cons]

end Terminal

-----------------------------------------------------------------------------------------
-- Expressions
-----------------------------------------------------------------------------------------

namespace Expr

theorem references_argumentTerminals {arguments : List Expr}
    (each : ∀ argument ∈ arguments, Terminal.references argument.terminals = argument.references)
    : Terminal.references (argumentTerminals arguments) = referencesAll arguments := by
  have further : ∀ {es : List Expr},
      (∀ e ∈ es, Terminal.references e.terminals = e.references)
      → Terminal.references (furtherTerminals es) = referencesAll es := by
    intro es each
    induction es with
    | nil => rfl
    | cons first rest ih =>
        obtain ⟨firstSame, restSame⟩ := List.forall_mem_cons.mp each
        rw [furtherTerminals, Terminal.references_cons,
          Terminal.references_of_role_ne (by decide), List.nil_append,
          Terminal.references_append, firstSame, ih restSame, referencesAll]
  cases arguments with
  | nil => rfl
  | cons first rest =>
      obtain ⟨firstSame, restSame⟩ := List.forall_mem_cons.mp each
      rw [argumentTerminals, Terminal.references_append, firstSame, further restSame,
        referencesAll]

theorem referencesAll_eq_flatMap (es : List Expr) : referencesAll es = es.flatMap references := by
  induction es with
  | nil => rfl
  | cons first rest ih => rw [referencesAll, ih, List.flatMap_cons]

/-- The references of an expression are among its terminals, in the same order. -/
theorem references_terminals (e : Expr) : Terminal.references e.terminals = e.references := by
  have operator (op : BinaryOperator) : Terminal.references [.ofOperator op] = [] :=
    Terminal.references_of_role_ne nofun
  induction e using inductionOn with
  | number text => rfl
  | reference name => rfl
  | binary op left right leftIh rightIh =>
      rw [terminals, Terminal.references_append, Terminal.references_cons, operator,
        List.nil_append, leftIh, rightIh, references]
  | negate operand ih =>
      rw [terminals, Terminal.references_cons, operator, List.nil_append, ih, references]
  | call name arguments ih =>
      rw [terminals, Terminal.references_cons, Terminal.references_cons .opening,
        Terminal.references_append, references_argumentTerminals ih, references]
      simp [Terminal.references, Terminal.opening, Terminal.closing]
  | group inner ih =>
      rw [terminals, Terminal.references_cons, Terminal.references_append, ih, references]
      simp [Terminal.references, Terminal.opening, Terminal.closing]

theorem mem_references {name : String} {e : Expr}
    (member : ⟨.reference, name⟩ ∈ e.terminals)
    : name ∈ e.references := by
  rw [← references_terminals]
  exact List.mem_map.mpr ⟨_, List.mem_filter.mpr ⟨member, rfl⟩, rfl⟩

end Expr

-----------------------------------------------------------------------------------------
-- Tokens
-----------------------------------------------------------------------------------------

theorem Token.references_cons (token : Token) (rest : List Token)
    : references (token :: rest) = references [token] ++ references rest := by
  simp only [references, ← List.map_append, ← List.filter_append, List.singleton_append]

theorem Token.references_of_kind_ne {token : Token} (kind : token.kind ≠ .reference)
    : references [token] = [] := by
  simp [references, kind]

theorem Terminal.references_ofToken (token : Token)
    : references [ofToken token] = Token.references [token] := by
  obtain ⟨kind, text, offset⟩ := token
  cases kind with
  | operator =>
      have role : (ofToken ⟨.operator, text, offset⟩).role ≠ .reference := by
        rw [ofToken, Token.role]
        cases BinaryOperator.ofText? text <;> simp
      rw [references_of_role_ne role]
      rfl
  | _ => rfl

/-- Tokens that are fused are operators and no references. -/
theorem Terminal.references_fuseAll (tokens : List Token)
    : references (fuseAll tokens) = Token.references tokens := by
  fun_induction fuseAll tokens with
  | case1 => rfl
  | case2 token => exact references_ofToken token
  | case3 token next rest op fused ih =>
      have operators := (sign_pair_iff.mpr fused).operators
      have kind := operators token (by simp)
      have nextKind := operators next (by simp)
      have role : (⟨.operator op, token.text⟩ : Terminal).role ≠ .reference := nofun
      rw [references_cons, references_of_role_ne role, ih, Token.references_cons,
        Token.references_cons next, Token.references_of_kind_ne (by simp [kind]),
        Token.references_of_kind_ne (by simp [nextKind])]
      rfl
  | case4 token next rest alone ih =>
      rw [references_cons, references_ofToken, ih, ← Token.references_cons]

theorem Terminal.references_ofTokens (tokens : List Token)
    : references (ofTokens tokens) = Token.references tokens := by
  rw [ofTokens, references_fuseAll, Token.references, Token.references, List.filter_filter]
  congr 2
  funext token
  cases token.kind <;> rfl

/-- What is read as an expression refers to what its tokens refer to. -/
theorem Expr.references_of_ofTokens {tokens : List Token} {reader : ReaderOptions} {e : Expr}
    (read : ofTokens tokens reader = .ok e)
    : e.references = Token.references tokens := by
  obtain ⟨_, _, same⟩ := ofTerminals_eq_ok_iff.mp read
  rw [← references_terminals, ← same, Terminal.references_map_canonical,
    Terminal.references_ofTokens]

end FormulaLatex
