import Mathlib.Data.List.Pairwise
import Mathlib.Data.List.Sort
import FormulaLatex.Proofs.Text.Division
import FormulaLatex.Proofs.Token.LexicalGrammar

/-! Tokens and the spans of text that they stand for. The spans lie one after another, each is
the longest of its class, and only white space and one leading equals sign are left between
them. No other spans do the same.
-/

namespace FormulaLatex

open Text Lexeme

/-- A stretch of text that begins at an offset in bytes. -/
structure Span where
  start : Nat
  chars : List Char

/-- The offset at which a span ends. -/
def Span.stop (span : Span) : Nat :=
  span.start + byteLength span.chars

/-- Whether a character at an offset belongs to a span. -/
def Span.Covers (span : Span) (offset : Nat) : Prop :=
  span.start ≤ offset ∧ offset < span.stop

/-- Spans divide a text that begins at an offset into lexemes and what is left between them:
each span is the longest at its place, none overlaps a later one, and a character is in none
exactly if `gap` says so, given what precedes it.
-/
structure Divides (separators : DecimalSeparators) (gap : List Char → Char → Prop)
    (offset : Nat) (text : List Char) (spans : List Span) : Prop where
  nonempty : ∀ span ∈ spans, span.chars ≠ []
  ordered : spans.Pairwise fun span later => span.stop ≤ later.start
  longest : ∀ span ∈ spans, ∃ before after, text = before ++ (span.chars ++ after)
    ∧ span.start = offset + byteLength before ∧ Longest separators span.chars after
  outside : ∀ before c after, text = before ++ c :: after →
    ((∀ span ∈ spans, ¬ span.Covers (offset + byteLength before)) ↔ gap before c)

/-- What no token stands for: white space, and an equals sign that a formula begins with. -/
def LeftOut (before : List Char) (c : Char) : Prop :=
  isBlank c = true ∨ before = [] ∧ c = '='

theorem byteLength_append (front back : List Char)
    : byteLength (front ++ back) = byteLength front + byteLength back := by
  induction front with
  | nil => simp [byteLength]
  | cons c rest ih => simp only [List.cons_append, byteLength, ih, Nat.add_assoc]

theorem byteLength_pos {chars : List Char} (nonempty : chars ≠ []) : 0 < byteLength chars := by
  cases chars with
  | nil => contradiction
  | cons c rest => exact Nat.add_pos_left c.utf8Size_pos _

theorem Span.start_lt_stop {span : Span} (nonempty : span.chars ≠ []) : span.start < span.stop :=
  Nat.lt_add_of_pos_right (byteLength_pos nonempty)

/-- An offset in a text belongs to one way of cutting it in two. -/
theorem eq_of_byteLength {front back otherFront otherBack : List Char}
    (same : front ++ back = otherFront ++ otherBack)
    (length : byteLength front = byteLength otherFront)
    : front = otherFront := by
  rcases List.append_eq_append_iff.mp same with ⟨more, rfl, _⟩ | ⟨more, rfl, _⟩
  · by_contra different
    have longer : 0 < byteLength more := byteLength_pos (by rintro rfl; simp at different)
    rw [byteLength_append] at length
    omega
  · by_contra different
    have longer : 0 < byteLength more := byteLength_pos (by rintro rfl; simp at different)
    rw [byteLength_append] at length
    omega

namespace Divides

variable {separators : DecimalSeparators} {gap inner : List Char → Char → Prop}
  {offset : Nat} {text : List Char} {spans others : List Span}

theorem apart (divides : Divides separators gap offset text spans) {span other : Span}
    (member : span ∈ spans) (otherMember : other ∈ spans) (different : span ≠ other)
    : span.stop ≤ other.start ∨ other.stop ≤ span.start := by
  let Apart (span other : Span) : Prop := span.stop ≤ other.start ∨ other.stop ≤ span.start
  have symmetric : Std.Symm Apart := ⟨fun _ _ => Or.symm⟩
  have all : spans.Pairwise Apart := divides.ordered.imp Or.inl
  exact all.forall member otherMember different

/-- Every span of one division is a span of any other. By induction on where the span starts:
what covers its first character in the other division starts no later, and if it started
earlier it would be a span of the first division too and overlap there.
-/
theorem mem_of_mem (divides : Divides separators gap offset text spans)
    (otherDivides : Divides separators gap offset text others) {span : Span} (member : span ∈ spans)
    : span ∈ others := by
  induction start : span.start using Nat.strong_induction_on
    generalizing spans others span with
  | h place ih =>
      subst start
      obtain ⟨before, after, split, starts, longest⟩ := divides.longest span member
      have own := Span.start_lt_stop (divides.nonempty span member)
      obtain ⟨first, more, chars⟩ := List.exists_cons_of_ne_nil (divides.nonempty span member)
      have covered : ¬ gap before first := by
        rw [← divides.outside before first (more ++ after) (by rw [split, chars]; rfl)]
        intro uncovered
        exact uncovered span member ⟨by omega, by omega⟩
      rw [← otherDivides.outside before first (more ++ after) (by rw [split, chars]; rfl)]
        at covered
      obtain ⟨other, otherCovers⟩ := not_forall.mp covered
      obtain ⟨otherMember, otherCovers⟩ := Classical.not_imp.mp otherCovers
      obtain ⟨reached, past⟩ := not_not.mp otherCovers
      rw [← starts] at reached past
      rcases Nat.lt_or_eq_of_le reached with earlier | together
      · have shared := ih other.start earlier otherDivides divides otherMember rfl
        have different : span ≠ other := by
          rintro rfl
          exact Nat.lt_irrefl _ earlier
        rcases divides.apart member shared different with after | before <;> omega
      · obtain ⟨otherBefore, otherAfter, otherSplit, otherStarts, otherLongest⟩ :=
          otherDivides.longest other otherMember
        have place : before = otherBefore :=
          eq_of_byteLength (split.symm.trans otherSplit) (by omega)
        rw [split, place, List.append_cancel_left_eq] at otherSplit
        have same : span.chars = other.chars :=
          otherLongest.eq_of_begins longest (otherSplit ▸ List.prefix_append _ _)
            (otherSplit ▸ List.prefix_append _ _)
        have alike : span = other := by
          cases span
          cases other
          simp only [Span.mk.injEq]
          exact ⟨together.symm, same⟩
        rw [alike]
        exact otherMember

theorem ascending (divides : Divides separators gap offset text spans)
    : spans.Pairwise fun span later => span.start < later.start := by
  refine divides.ordered.imp_of_mem fun member _ ordered => ?_
  exact Nat.lt_of_lt_of_le (Span.start_lt_stop (divides.nonempty _ member)) ordered

/-- There is only one way to divide a text. -/
theorem unique (divides : Divides separators gap offset text spans)
    (otherDivides : Divides separators gap offset text others)
    : others = spans := by
  have irreflexive : Std.Irrefl fun span later : Span => span.start < later.start :=
    ⟨fun _ => Nat.lt_irrefl _⟩
  have antisymmetric : Std.Antisymm fun span later : Span => span.start < later.start :=
    ⟨fun _ _ first second => absurd second (Nat.lt_asymm first)⟩
  exact otherDivides.ascending.eq_of_mem_iff divides.ascending
    fun _ => ⟨otherDivides.mem_of_mem divides, divides.mem_of_mem otherDivides⟩

theorem nil : Divides separators gap offset [] [] where
  nonempty := by simp
  ordered := .nil
  longest := by simp
  outside := by
    intro before c after split
    simp at split

theorem offset_le (divides : Divides separators gap offset text spans) {span : Span}
    (member : span ∈ spans)
    : offset ≤ span.start := by
  obtain ⟨before, after, _, starts, _⟩ := divides.longest span member
  rw [starts]
  exact Nat.le_add_right _ _

/-- Only what `gap` says of characters that occur matters. -/
theorem congr (divides : Divides separators inner offset text spans)
    (same : ∀ before c after, text = before ++ c :: after → (inner before c ↔ gap before c))
    : Divides separators gap offset text spans where
  nonempty := divides.nonempty
  ordered := divides.ordered
  longest := divides.longest
  outside := by
    intro before c after split
    rw [divides.outside before c after split]
    exact same before c after split

/-- A character that is left out may precede a text that is divided. -/
theorem skip {c : Char}
    (divides : Divides separators inner (offset + c.utf8Size) text spans) (left : gap [] c)
    (later : ∀ before d, inner before d ↔ gap (c :: before) d)
    : Divides separators gap offset (c :: text) spans where
  nonempty := divides.nonempty
  ordered := divides.ordered
  longest := by
    intro span member
    obtain ⟨before, after, split, starts, longest⟩ := divides.longest span member
    refine ⟨c :: before, after, by rw [split]; rfl, ?_, longest⟩
    rw [starts, byteLength, Nat.add_assoc]
  outside := by
    intro before d after split
    cases before with
    | nil =>
        obtain ⟨rfl, _⟩ := List.cons.inj split
        refine iff_of_true ?_ left
        intro span member covers
        have reach := divides.offset_le member
        have wide := c.utf8Size_pos
        have start := covers.1
        simp only [byteLength] at start
        omega
    | cons first before =>
        obtain ⟨rfl, rest⟩ := List.cons.inj split
        rw [← later, ← divides.outside before d after rest, byteLength, Nat.add_assoc]

/-- A span that is the longest at its place may precede a text that is divided, if nothing in
it is left out.
-/
theorem cons {chars : List Char}
    (divides : Divides separators inner (offset + byteLength chars) text spans)
    (longest : Longest separators chars text)
    (kept : ∀ before c after, chars = before ++ c :: after → ¬ gap before c)
    (later : ∀ before c, inner before c ↔ gap (chars ++ before) c)
    : Divides separators gap offset (chars ++ text) (⟨offset, chars⟩ :: spans) where
  nonempty := by
    rw [List.forall_mem_cons]
    exact ⟨longest.admitted.ne_nil, divides.nonempty⟩
  ordered := .cons (fun _ member => divides.offset_le member) divides.ordered
  longest := by
    rw [List.forall_mem_cons]
    refine ⟨⟨[], text, rfl, rfl, longest⟩, ?_⟩
    intro span member
    obtain ⟨before, after, split, starts, longest⟩ := divides.longest span member
    refine ⟨chars ++ before, after, by rw [split, List.append_assoc], ?_, longest⟩
    rw [starts, byteLength_append, Nat.add_assoc]
  outside := by
    intro before c after split
    rw [List.forall_mem_cons]
    rcases exists_of_append_eq_append_cons split with ⟨more, rfl, rest⟩ | ⟨more, rfl⟩
    · rw [← later, ← divides.outside more c after rest, byteLength_append, Nat.add_assoc]
      refine and_iff_right ?_
      rintro ⟨_, past⟩
      simp only [Span.stop] at past
      omega
    · refine iff_of_false ?_ (kept before c more rfl)
      rintro ⟨first, _⟩
      have wide := c.utf8Size_pos
      refine first ⟨Nat.le_add_right _ _, ?_⟩
      simp only [Span.stop, byteLength_append, byteLength]
      omega

end Divides

/-- Where a lexeme stands, without its class. -/
def Lexeme.toSpan (lexeme : Lexeme) : Span :=
  ⟨lexeme.offset, lexeme.span⟩

theorem Lexeme.next_offset (options : TokenizerOptions) (offset : Nat) (c : Char)
    (rest : List Char)
    : (next options offset c rest).offset = offset := by
  rw [next]
  split
  · rfl
  · split <;> rfl

theorem Lexeme.divides_ofText (options : TokenizerOptions) (offset : Nat) (text : List Char)
    : Divides options.decimalSeparators (fun _ c => isBlank c = true) offset text
        ((ofText options offset text).map toSpan) := by
  fun_induction ofText options offset text with
  | case1 => exact .nil
  | case2 offset c rest blank ih => exact ih.skip blank fun _ _ => Iff.rfl
  | case3 offset c rest visible lexeme ih =>
      have longest := next_longest options offset c rest
      have first : lexeme.toSpan = ⟨offset, lexeme.span⟩ := by
        rw [toSpan, next_offset]
      have kept : ∀ d ∈ lexeme.span, isBlank d = false := by
        have admitted := longest.admitted
        rw [span, next_first] at admitted
        rw [span, next_first]
        exact admitted.isBlank_eq_false (Bool.eq_false_iff.mpr visible)
      rw [List.map_cons, first, ← next_append options offset c rest]
      refine ih.cons longest ?_ fun _ _ => Iff.rfl
      intro before d after split blank
      rw [kept d (by rw [split]; simp)] at blank
      cases blank

theorem Lexeme.divides_ofFormula (options : TokenizerOptions) (formula : String)
    : Divides options.decimalSeparators LeftOut 0 formula.toList
        ((ofFormula options formula).map toSpan) := by
  rw [ofFormula]
  split
  · rename_i rest begins
    rw [begins]
    refine (divides_ofText options _ rest).skip (Or.inr ⟨rfl, rfl⟩) ?_
    intro before c
    simp [LeftOut]
  · rename_i plain
    refine (divides_ofText options 0 formula.toList).congr ?_
    intro before c after split
    refine ⟨Or.inl, ?_⟩
    rintro (blank | ⟨rfl, rfl⟩)
    · exact blank
    · exact (plain after split).elim

/-- The tokens of a formula are the longest matches of the lexical grammar: their spans divide
the formula, no other spans do, and each token has the offset of its span and says what the
span says.
-/
theorem tokenize_longest_match (formula : String) (options : TokenizerOptions)
    : ∃ spans,
        Divides options.decimalSeparators LeftOut 0 formula.toList spans
        ∧ (∀ others, Divides options.decimalSeparators LeftOut 0 formula.toList others
            → others = spans)
        ∧ (tokenize formula options).map (fun token => (token.offset, token.text))
            = spans.map fun span => (span.start, spanText span.chars) := by
  have divides := Lexeme.divides_ofFormula options formula
  refine ⟨_, divides, fun others other => divides.unique other, ?_⟩
  rw [tokenize, List.map_map, List.map_map]
  refine List.map_congr_left ?_
  intro lexeme member
  obtain ⟨offset, c, rest, _, rfl⟩ := Lexeme.exists_next_of_mem_ofFormula member
  simp only [Function.comp, Lexeme.token, Lexeme.toSpan, Lexeme.next_text]

end FormulaLatex
