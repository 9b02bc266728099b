import FormulaLatex.Proofs.Token.Spacing

/-! Tokens that adjoin. Whether a token adjoins the next one is told from the length of its text,
and so it is told rightly where the text is as long as what stands in the formula. That is always
so but for names: a dollar sign is left out of the text, and upper case may be longer or shorter.
-/

namespace FormulaLatex

open Text

-----------------------------------------------------------------------------------------
-- Between two spans
-----------------------------------------------------------------------------------------

theorem byteLength_eq_zero_iff {chars : List Char} : Lexeme.byteLength chars = 0 ↔ chars = [] := by
  constructor
  · intro zero
    by_contra nonempty
    exact Nat.ne_of_gt (byteLength_pos nonempty) zero
  · rintro rfl
    rfl

/-- Of two prefixes of a text, the one with fewer bytes is a prefix of the other. -/
theorem prefix_of_byteLength_le {front other text : List Char} (begins : front <+: text)
    (otherBegins : other <+: text)
    (shorter : Lexeme.byteLength front ≤ Lexeme.byteLength other)
    : front <+: other := by
  rcases List.prefix_or_prefix_of_prefix begins otherBegins with within | ⟨more, rfl⟩
  · exact within
  · rw [byteLength_append] at shorter
    obtain rfl : more = [] := byteLength_eq_zero_iff.mp (by omega)
    exact ⟨[], by simp⟩

/-- What lies between a span and the next one is a stretch of the text. -/
theorem Divides.exists_between {separators : DecimalSeparators}
    {gap : List Char → Char → Prop} {offset : Nat} {text : List Char} {front back : List Span}
    {span next : Span}
    (divides : Divides separators gap offset text (front ++ span :: next :: back))
    : ∃ before between after,
        text = before ++ (span.chars ++ (between ++ (next.chars ++ after)))
        ∧ span.start = offset + Lexeme.byteLength before
        ∧ next.start = span.stop + Lexeme.byteLength between := by
  obtain ⟨before, rest, split, starts, _⟩ := divides.longest span (by simp)
  obtain ⟨early, after, nextSplit, nextStarts, _⟩ := divides.longest next (by simp)
  have ordered : span.stop ≤ next.start := by
    have later := (List.pairwise_append.mp divides.ordered).2.1
    exact (List.pairwise_cons.mp later).1 next List.mem_cons_self
  have reach : Lexeme.byteLength (before ++ span.chars) ≤ Lexeme.byteLength early := by
    rw [byteLength_append]
    simp only [Span.stop] at ordered
    omega
  have begins : before ++ span.chars <+: text := ⟨rest, by rw [split, List.append_assoc]⟩
  have nextBegins : early <+: text := ⟨_, nextSplit.symm⟩
  obtain ⟨between, rfl⟩ := prefix_of_byteLength_le begins nextBegins reach
  refine ⟨before, between, after, ?_, starts, ?_⟩
  · rw [nextSplit, List.append_assoc, List.append_assoc]
  · rw [nextStarts, Span.stop, starts, byteLength_append, byteLength_append]
    omega

namespace Lexeme

/-- What lies between a lexeme of a formula and the next one is a stretch of the formula. -/
theorem exists_between {options : TokenizerOptions} {formula : String}
    {front back : List Lexeme} {lexeme next : Lexeme}
    (consecutive : ofFormula options formula = front ++ lexeme :: next :: back)
    : ∃ before between after,
        formula.toList = before ++ (lexeme.span ++ (between ++ (next.span ++ after)))
        ∧ lexeme.offset = byteLength before
        ∧ next.offset = lexeme.toSpan.stop + byteLength between := by
  have divides := divides_ofFormula options formula
  rw [consecutive, List.map_append, List.map_cons, List.map_cons] at divides
  obtain ⟨before, between, after, split, starts, nextStarts⟩ := divides.exists_between
  exact ⟨before, between, after, split, starts.trans (Nat.zero_add _), nextStarts⟩

-----------------------------------------------------------------------------------------
-- The length of a text
-----------------------------------------------------------------------------------------

/-- A lexeme that is no name has a text that is as long as the lexeme. -/
theorem utf8ByteSize_text {options : TokenizerOptions} {formula : String} {lexeme : Lexeme}
    (member : lexeme ∈ ofFormula options formula) (unnamed : beginsName lexeme.first = false)
    : lexeme.text.utf8ByteSize = byteLength lexeme.span := by
  obtain ⟨place, c, rest, _, rfl⟩ := exists_next_of_mem_ofFormula member
  rw [next_text]
  rw [next_first] at unnamed
  rw [span, next_first]
  generalize (next options place c rest).more = more
  rw [spanText]
  split
  · rename_i separator
    rcases separator with same | same <;> rw [same] <;> rfl
  · rw [if_neg (by simp [unnamed]), ← byteLength_toList, String.toList_ofList]

/-- A token adjoins the next one if its text is as long as the lexeme and what lies between. -/
theorem adjoins_iff {lexeme next : Lexeme} {between : List Char}
    (starts : next.offset = lexeme.toSpan.stop + byteLength between)
    : lexeme.token.adjoins next.token = true
        ↔ lexeme.text.utf8ByteSize = byteLength lexeme.span + byteLength between := by
  rw [Token.adjoins, beq_iff_eq]
  change lexeme.offset + lexeme.text.utf8ByteSize = next.offset ↔ _
  have stops : lexeme.toSpan.stop = lexeme.offset + byteLength lexeme.span := rfl
  omega

end Lexeme

-----------------------------------------------------------------------------------------
-- Tokens of a formula
-----------------------------------------------------------------------------------------

open Lexeme

/-- Consecutive tokens of a formula adjoin exactly if the text of the first is as long as what
stands for it in the formula together with what lies between the two. So where it is as long as
what stands for it, they adjoin exactly if nothing lies between, and that holds of every token but
a name and a run of dollar signs.
-/
theorem adjoins_iff_nothing_between {options : TokenizerOptions} {formula : String}
    {front back : List Lexeme} {lexeme next : Lexeme}
    (consecutive : ofFormula options formula = front ++ lexeme :: next :: back)
    : ∃ before between after,
        formula.toList = before ++ (lexeme.span ++ (between ++ (next.span ++ after)))
        ∧ lexeme.offset = byteLength before
        ∧ next.offset = lexeme.toSpan.stop + byteLength between
        ∧ (lexeme.token.adjoins next.token = true
            ↔ lexeme.text.utf8ByteSize = byteLength lexeme.span + byteLength between)
        ∧ (lexeme.text.utf8ByteSize = byteLength lexeme.span
            → (lexeme.token.adjoins next.token = true ↔ between = []))
        ∧ (beginsName lexeme.first = false
            → (lexeme.token.adjoins next.token = true ↔ between = [])) := by
  obtain ⟨before, between, after, split, starts, nextStarts⟩ := exists_between consecutive
  have adjoins := adjoins_iff nextStarts
  have faithful (long : lexeme.text.utf8ByteSize = byteLength lexeme.span)
      : lexeme.token.adjoins next.token = true ↔ between = [] := by
    rw [adjoins, long, ← byteLength_eq_zero_iff]
    omega
  refine ⟨before, between, after, split, starts, nextStarts, adjoins, faithful, fun unnamed => ?_⟩
  exact faithful (utf8ByteSize_text (by rw [consecutive]; simp) unnamed)

/-- In `a1< =2` a space lies between the two signs, and they do not adjoin. -/
theorem adjoins_iff_nothing_between_spaced
    : let lexeme : Lexeme := ⟨.operator, 2, '<', []⟩
      let next : Lexeme := ⟨.operator, 4, '=', []⟩
      ofFormula {} "a1< =2"
          = [⟨.reference, 0, 'a', ['1']⟩] ++ lexeme :: next :: [⟨.number, 5, '2', []⟩]
      ∧ beginsName lexeme.first = false
      ∧ next.offset = lexeme.toSpan.stop + byteLength [' ']
      ∧ lexeme.token.adjoins next.token = false := by
  intro lexeme next
  have consecutive : ofFormula {} "a1< =2"
      = [⟨.reference, 0, 'a', ['1']⟩] ++ lexeme :: next :: [⟨.number, 5, '2', []⟩] := by
    decide +kernel
  obtain ⟨_, between, _, _, _, starts, _, _, unnamed⟩ := adjoins_iff_nothing_between consecutive
  have apart : between ≠ [] := by
    rintro rfl
    cases starts
  exact ⟨consecutive, by decide, rfl, Bool.eq_false_iff.mpr (mt (unnamed (by decide)).mp apart)⟩

/-- A name that is marked as absolute does not adjoin what follows it at once, and one that is
longer in upper case adjoins what follows it after a space.
-/
theorem not_adjoins_iff_nothing_between
    : ¬ (∀ (options : TokenizerOptions) (formula : String) (front back : List Lexeme)
          (lexeme next : Lexeme),
          ofFormula options formula = front ++ lexeme :: next :: back
          → lexeme.toSpan.stop = next.offset → lexeme.token.adjoins next.token = true)
      ∧ ¬ ∀ (options : TokenizerOptions) (formula : String) (front back : List Lexeme)
          (lexeme next : Lexeme),
          ofFormula options formula = front ++ lexeme :: next :: back
          → lexeme.token.adjoins next.token = true → lexeme.toSpan.stop = next.offset := by
  constructor
  · intro all
    have marked := all {} "$A1+1" [] [⟨.number, 4, '1', []⟩] ⟨.reference, 0, '$', ['A', '1']⟩
      ⟨.operator, 3, '+', []⟩ (by decide +kernel) rfl
    revert marked
    decide +kernel
  · intro all
    have expanded := all {} "ŉ +1" [] [⟨.number, 4, '1', []⟩] ⟨.reference, 0, 'ŉ', []⟩
      ⟨.operator, 3, '+', []⟩ (by decide +kernel) (by decide +kernel)
    revert expanded
    decide +kernel

end FormulaLatex
