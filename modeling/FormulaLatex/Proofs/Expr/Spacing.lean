import FormulaLatex.Convert
import FormulaLatex.Proofs.Expr.Fusion
import FormulaLatex.Proofs.Token.Spacing

/-! White space in formulas. It makes no difference to the notation of a formula where it stands
between tokens, unless it comes between the two characters of a comparison that has been read up
to there.
-/

namespace FormulaLatex

-----------------------------------------------------------------------------------------
-- Tokens that move
-----------------------------------------------------------------------------------------

namespace Token

@[simp]
theorem moveFrom_kind (place count : Nat) (token : Token)
    : (token.moveFrom place count).kind = token.kind := by
  rw [moveFrom]
  split <;> rfl

@[simp]
theorem moveFrom_text (place count : Nat) (token : Token)
    : (token.moveFrom place count).text = token.text := by
  rw [moveFrom]
  split <;> rfl

@[simp]
theorem moveFrom_role (place count : Nat) (token : Token)
    : (token.moveFrom place count).role = token.role := by
  rw [role, role, moveFrom_kind, moveFrom_text]

theorem moveFrom_offset {place : Nat} (count : Nat) {token : Token}
    (after : place ≤ token.offset)
    : (token.moveFrom place count).offset = token.offset + count := by
  rw [moveFrom, if_pos after]

theorem firstUnknown?_map_moveFrom (place count : Nat) (tokens : List Token)
    : firstUnknown? (tokens.map (moveFrom place count)) = firstUnknown? tokens := by
  rw [firstUnknown?, firstUnknown?, List.find?_map, Option.bind_map]
  simp only [Function.comp_def, moveFrom_kind, moveFrom_text]

/-- Two tokens that are moved together are fused as before. -/
theorem fuse?_moveFrom {place : Nat} (count : Nat) {token next : Token}
    (first : place ≤ token.offset) (second : place ≤ next.offset)
    : (token.moveFrom place count).fuse? (next.moveFrom place count) = token.fuse? next := by
  have together : (token.moveFrom place count).adjoins (next.moveFrom place count)
      = token.adjoins next := by
    rw [Bool.eq_iff_iff]
    simp only [adjoins, beq_iff_eq, moveFrom_text, moveFrom_offset count first,
      moveFrom_offset count second]
    omega
  simp only [fuse?, moveFrom_kind, moveFrom_text, together]

/-- Two tokens between which something is put are not fused any more. -/
theorem fuse?_apart {place count : Nat} {token next : Token} (positive : 0 < count)
    (before : token.offset < place) (after : place ≤ next.offset)
    : token.fuse? (next.moveFrom place count) = none := by
  cases fused : token.fuse? (next.moveFrom place count) with
  | none => rfl
  | some op =>
      have adjoin := (fuse?_eq_some fused).2.2.2
      rw [moveFrom_offset count after] at adjoin
      omega

theorem map_moveFrom_of_lt {place : Nat} (count : Nat) {tokens : List Token}
    (before : ∀ token ∈ tokens, token.offset < place)
    : tokens.map (moveFrom place count) = tokens := by
  refine (List.map_congr_left fun token member => ?_).trans tokens.map_id
  exact if_neg (Nat.not_le.mpr (before token member))

end Token

namespace Terminal

theorem fuseAll_map_moveFrom {place : Nat} (count : Nat) {tokens : List Token}
    (after : ∀ token ∈ tokens, place ≤ token.offset)
    : fuseAll (tokens.map (Token.moveFrom place count)) = fuseAll tokens := by
  fun_induction fuseAll tokens with
  | case1 => rfl
  | case2 token => simp [fuseAll, ofToken]
  | case3 token next rest op fused ih =>
      obtain ⟨first, others⟩ := List.forall_mem_cons.mp after
      obtain ⟨second, others⟩ := List.forall_mem_cons.mp others
      rw [← Token.fuse?_moveFrom count first second] at fused
      rw [List.map_cons, List.map_cons, fuseAll_fused fused, ih others, Token.moveFrom_text]
  | case4 token next rest alone ih =>
      obtain ⟨first, others⟩ := List.forall_mem_cons.mp after
      rw [← Token.fuse?_moveFrom count first (others next List.mem_cons_self)] at alone
      rw [List.map_cons, fuseAll_cons (by simpa using alone), ih others, ofToken, ofToken,
        Token.moveFrom_role, Token.moveFrom_text]

/-- Lists of tokens between which something is put are fused apart. -/
theorem fuseAll_apart {place count : Nat} (positive : 0 < count) {left right : List Token}
    (before : ∀ token ∈ left, token.offset < place)
    (after : ∀ token ∈ right, place ≤ token.offset)
    : fuseAll ((left ++ right).map (Token.moveFrom place count))
        = fuseAll left ++ fuseAll right := by
  rw [List.map_append, Token.map_moveFrom_of_lt count before, ← fuseAll_map_moveFrom count after]
  rcases fuseAll_append left (right.map (Token.moveFrom place count)) with
    apart | ⟨front, first, _, _, op, rfl, same, fused, _⟩
  · exact apart
  · obtain ⟨second, member, rfl⟩ := List.mem_map.mp (same ▸ List.mem_cons_self)
    have last := before first (List.mem_append_right front List.mem_cons_self)
    rw [Token.fuse?_apart positive last (after second member)] at fused
    cases fused

end Terminal

-----------------------------------------------------------------------------------------
-- Readings
-----------------------------------------------------------------------------------------

namespace Expr

/-- Reading takes two tokens together: they write one comparison, and what precedes them is
read up to the end of an operand.
-/
def FusesAfter (options : ReaderOptions) (before : List Token) (first second : Token) : Prop :=
  (first.fuse? second).isSome = true
    ∧ ∃ reading operand,
        (Terminal.ofTokens before).foldlM (Reading.step options) {} = .ok reading
        ∧ reading.phase = .continuation operand

section Moving

variable {tokens : List Token} {place count : Nat}

theorem ofTokens_of_known (known : ∀ token ∈ tokens, token.kind ≠ .unknown)
    (options : ReaderOptions)
    : ofTokens tokens options = ofTerminals (Terminal.fuseAll tokens) options := by
  rw [ofTokens, Terminal.ofTokens_eq_fuseAll known]

theorem exists_append_of_ascending (ascending : tokens.Pairwise (·.offset < ·.offset))
    (place : Nat)
    : ∃ left right, tokens = left ++ right
        ∧ (∀ token ∈ left, token.offset < place)
        ∧ ∀ token ∈ right, place ≤ token.offset := by
  induction tokens with
  | nil => exact ⟨[], [], rfl, nofun, nofun⟩
  | cons token rest ih =>
      obtain ⟨first, others⟩ := List.pairwise_cons.mp ascending
      rcases Nat.lt_or_ge token.offset place with before | after
      · obtain ⟨left, right, rfl, leftBefore, rightAfter⟩ := ih others
        exact ⟨token :: left, right, rfl, List.forall_mem_cons.mpr ⟨before, leftBefore⟩,
          rightAfter⟩
      · refine ⟨[], token :: rest, rfl, nofun, List.forall_mem_cons.mpr ⟨after, ?_⟩⟩
        exact fun other member => Nat.le_trans after (Nat.le_of_lt (first other member))

theorem known_moved (known : ∀ token ∈ tokens, token.kind ≠ .unknown)
    : ∀ token ∈ tokens.map (Token.moveFrom place count), token.kind ≠ .unknown := by
  intro token member
  obtain ⟨original, inTokens, rfl⟩ := List.mem_map.mp member
  rw [Token.moveFrom_kind]
  exact known original inTokens

/-- Tokens are read alike when the later ones are moved away from the others, unless that comes
between two that are read together.
-/
theorem ofTokens_moveFrom (options : ReaderOptions) (place : Nat) (positive : 0 < count)
    (ascending : tokens.Pairwise (·.offset < ·.offset))
    (known : ∀ token ∈ tokens, token.kind ≠ .unknown)
    : ofTokens (tokens.map (Token.moveFrom place count)) options = ofTokens tokens options
      ∨ ∃ before first second after,
          tokens = before ++ first :: second :: after
          ∧ second.offset = place
          ∧ FusesAfter options before first second := by
  obtain ⟨left, right, rfl, leftBefore, rightAfter⟩ := exists_append_of_ascending ascending place
  rw [ofTokens_of_known (known_moved known), ofTokens_of_known known,
    Terminal.fuseAll_apart positive leftBefore rightAfter]
  rcases Terminal.fuseAll_append left right with
    whole | ⟨before, first, second, after, op, rfl, rfl, fused, alone, whole⟩
  · rw [whole]
    exact Or.inl rfl
  · obtain ⟨comparison, ⟨kind, text⟩, _, adjoin⟩ := Token.fuse?_eq_some fused
    by_cases fuses : FusesAfter options before first second
    · right
      refine ⟨before, first, second, after, by simp, ?_, fuses⟩
      have reach := leftBefore first (List.mem_append_right _ List.mem_cons_self)
      have start := rightAfter second List.mem_cons_self
      omega
    · left
      have front : Terminal.ofTokens before = Terminal.fuseAll before := by
        refine Terminal.ofTokens_eq_fuseAll fun token member => known token ?_
        simp [member]
      obtain ⟨other, otherComparison, single⟩ := Terminal.ofToken_comparison kind (by simp [text])
      rw [whole, alone, single, List.append_assoc]
      refine ofTerminals_eq_of_not_reached otherComparison comparison ?_
      intro reading operand run phase
      exact fuses ⟨by rw [fused]; rfl, reading, operand, by rw [front, run], phase⟩

/-- Tokens that are read together cannot be read once they have been moved apart. -/
theorem ofTokens_moveFrom_of_fuses {options : ReaderOptions} {before after : List Token}
    {first second : Token} {e : Expr} (positive : 0 < count)
    (ascending : (before ++ first :: second :: after).Pairwise (·.offset < ·.offset))
    (known : ∀ token ∈ before ++ first :: second :: after, token.kind ≠ .unknown)
    (fuses : FusesAfter options before first second)
    (accepted : ofTokens (before ++ first :: second :: after) options = .ok e)
    : ofTokens
          ((before ++ first :: second :: after).map (Token.moveFrom second.offset count)) options
        = .error (.unexpectedToken second.text) := by
  obtain ⟨written, reading, operand, run, phase⟩ := fuses
  obtain ⟨op, fused⟩ := Option.isSome_iff_exists.mp written
  obtain ⟨comparison, ⟨kind, text⟩, ⟨nextKind, nextText⟩, _⟩ := Token.fuse?_eq_some fused
  have front : Terminal.ofTokens before = Terminal.fuseAll before :=
    Terminal.ofTokens_eq_fuseAll fun token member => known token (List.mem_append_left _ member)
  rw [front] at run
  rw [ofTokens_of_known known, Terminal.fuseAll_append_of_continuation run phase,
    Terminal.fuseAll_fused fused] at accepted
  rw [ofTokens_of_known (known_moved known)]
  rw [List.append_cons] at ascending ⊢
  obtain ⟨_, right, apart⟩ := List.pairwise_append.mp ascending
  have before : ∀ token ∈ before ++ [first], token.offset < second.offset :=
    fun token member => apart token member second List.mem_cons_self
  have after : ∀ token ∈ second :: after, second.offset ≤ token.offset := by
    refine List.forall_mem_cons.mpr ⟨Nat.le_refl _, fun token member => ?_⟩
    exact Nat.le_of_lt ((List.pairwise_cons.mp right).1 token member)
  rw [Terminal.fuseAll_apart positive before after,
    Terminal.fuseAll_append_of_continuation run phase]
  obtain ⟨other, otherComparison, single⟩ := Terminal.ofToken_comparison kind (by simp [text])
  have sign : second.text ∈ ["=", "<", ">"] := by
    rcases nextText with same | same <;> simp [same]
  obtain ⟨next, back, nextComparison, begins⟩ := Terminal.fuseAll_comparison nextKind sign _
  rw [begins, List.append_assoc, Terminal.fuseAll, single]
  exact ofTerminals_cut run phase comparison otherComparison nextComparison accepted

end Moving

end Expr

-----------------------------------------------------------------------------------------
-- Conversions
-----------------------------------------------------------------------------------------

theorem Token.kind_ne_unknown {formula : String} {options : TokenizerOptions}
    (known : firstUnknown? (tokenize formula options) = none)
    : ∀ token ∈ tokenize formula options, token.kind ≠ .unknown := by
  intro token member unknown
  rw [firstUnknown?] at known
  cases found : (tokenize formula options).find? fun token => token.kind == .unknown with
  | none => exact List.find?_eq_none.mp found token member (beq_iff_eq.mpr unknown)
  | some other =>
      -- The text of such a token is the character that it reports.
      obtain ⟨lexeme, _, rfl⟩ := List.mem_map.mp (List.mem_of_find?_eq_some found)
      have kind : lexeme.kind = .unknown := by
        simpa [Lexeme.token] using List.find?_some found
      rw [found, Option.bind_some, Lexeme.token, Lexeme.text, kind] at known
      simp at known

theorem tryConvert_of_precise {options : ConvertOptions} (precise : options.mode = .precise)
    (formula : String) (renames : RenameTable)
    : tryConvert formula renames options
        = if (tokenize formula options.tokenizer).isEmpty then .ok ""
          else (Expr.ofKnownTokens (tokenize formula options.tokenizer) options.reader).map
            (·.toLatex renames options.render) := by
  rw [tryConvert, precise]

/-- Whether a place in a formula lies between two tokens that are read together as one
comparison. The second of them begins at the place.
-/
def CutsComparison (options : ConvertOptions) (front back : String) (second : Token) : Prop :=
  ∃ before first after,
    tokenize (front ++ back) options.tokenizer = before ++ first :: second :: after
    ∧ second.offset = front.utf8ByteSize
    ∧ Token.firstUnknown? (tokenize (front ++ back) options.tokenizer) = none
    ∧ Expr.FusesAfter options.reader before first second

/-- White space between tokens, or at the end of a formula, moves the tokens after it. Their kinds
and texts stay the same, and so does the outcome of the conversion, unless the white space comes
between two tokens that are read together: then a formula that has notation loses it, and the
second of the two tokens is reported.
-/
theorem tryConvert_insert (options : ConvertOptions) {front space back : String}
    (blank : ∀ c ∈ space.toList, Text.isBlank c = true) (nonempty : space ≠ "")
    (divides : DividesTokens options.tokenizer front back)
    : tokenize (front ++ space ++ back) options.tokenizer
          = (tokenize (front ++ back) options.tokenizer).map
              (Token.moveFrom front.utf8ByteSize space.utf8ByteSize)
      ∧ ∀ renames, options.mode = .precise →
          ((¬ ∃ second, CutsComparison options front back second)
            → tryConvert (front ++ space ++ back) renames options
                = tryConvert (front ++ back) renames options)
          ∧ ∀ second latex,
              CutsComparison options front back second
              → tryConvert (front ++ back) renames options = .ok latex
              → ∃ cause,
                  tryConvert (front ++ space ++ back) renames options = .error (.malformed cause)
                  ∧ cause.message = "Unexpected token: " ++ second.text := by
  have inserted := tokenize_insert blank divides
  have positive : 0 < space.utf8ByteSize :=
    Nat.pos_of_ne_zero (mt String.utf8ByteSize_eq_zero_iff.mp nonempty)
  have ascending := tokenize_ascending (front ++ back) options.tokenizer
  refine ⟨inserted, fun renames precise => ⟨fun whole => ?_, ?_⟩⟩
  · rw [tryConvert_of_precise precise, tryConvert_of_precise precise, inserted, List.isEmpty_map,
      Expr.ofKnownTokens, Expr.ofKnownTokens, Token.firstUnknown?_map_moveFrom]
    cases known : Token.firstUnknown? (tokenize (front ++ back) options.tokenizer) with
    | some c => rfl
    | none =>
        rcases Expr.ofTokens_moveFrom options.reader front.utf8ByteSize positive ascending
          (Token.kind_ne_unknown known) with
          same | ⟨before, first, second, after, divided, starts, fuses⟩
        · simp only [same]
        · exact absurd ⟨second, before, first, after, divided, starts, known, fuses⟩ whole
  · rintro second latex ⟨before, first, after, divided, starts, known, fuses⟩ accepted
    have meaningful := Token.kind_ne_unknown known
    have some : (tokenize (front ++ back) options.tokenizer).isEmpty = false := by
      simp [divided]
    rw [tryConvert_of_precise precise, some, Expr.ofKnownTokens, known] at accepted
    rw [tryConvert_of_precise precise, inserted, List.isEmpty_map, some, Expr.ofKnownTokens,
      Token.firstUnknown?_map_moveFrom, known]
    rw [divided] at ascending meaningful accepted ⊢
    cases read : Expr.ofTokens (before ++ first :: second :: after) options.reader with
    | error cause =>
        rw [read] at accepted
        cases accepted
    | ok e =>
        have refused := Expr.ofTokens_moveFrom_of_fuses positive ascending meaningful fuses read
        refine ⟨.unexpectedToken second.text, ?_, rfl⟩
        rw [← starts]
        simp only [refused]
        rfl

/-- A space in the middle of a comparison makes two comparisons of it. -/
theorem tryConvert_insert_comparison
    : CutsComparison {} "=A1<" "=B1" ⟨.operator, "=", 4⟩
      ∧ tryConvert ("=A1<" ++ "=B1") .empty = .ok "A1 \\leq B1"
      ∧ ∃ cause,
          tryConvert ("=A1<" ++ " " ++ "=B1") .empty = .error (.malformed cause)
          ∧ cause.message = "Unexpected token: =" := by
  have cuts : CutsComparison {} "=A1<" "=B1" ⟨.operator, "=", 4⟩ := by
    refine ⟨[⟨.reference, "A1", 1⟩], ⟨.operator, "<", 3⟩, [⟨.reference, "B1", 5⟩], ?_, ?_, ?_, ?_⟩
    · decide +kernel
    · decide +kernel
    · decide +kernel
    · exact ⟨by decide +kernel, _, _, rfl, rfl⟩
  have accepted : tryConvert ("=A1<" ++ "=B1") .empty = .ok "A1 \\leq B1" := by
    decide +kernel
  have blank : ∀ c ∈ " ".toList, Text.isBlank c = true := by
    intro c member
    obtain rfl : c = ' ' := by simpa using member
    rfl
  have divides : DividesTokens {} "=A1<" "=B1" :=
    Or.inr ⟨⟨.operator, "=", 4⟩, by decide +kernel, by decide +kernel⟩
  exact ⟨cuts, accepted,
    ((tryConvert_insert {} blank (by decide) divides).2 .empty rfl).2 _ _ cuts accepted⟩

end FormulaLatex
