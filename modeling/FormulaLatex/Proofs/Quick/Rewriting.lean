import FormulaLatex.Proofs.Quick.Callee

/-! Calls rewritten inside a layout. A group is convertible if a function calls it and all groups
in it are convertible. Its notation can be written from the inside out, all groups at once, or
by rewriting innermost calls one function at a time. A step of the second kind does not change
what the first gives, as long as nothing after a group runs into its notation.
-/

namespace FormulaLatex.Quick

open Text

theorem isParenthesis_of_mem_toLatex {function : Function} {body : List Char}
    (plain : ∀ c ∈ body, isParenthesis c = false)
    : ∀ c ∈ function.toLatex body, isParenthesis c = false := by
  have command : ∀ c ∈ function.command, isParenthesis c = false := by
    have commands : ∀ function ∈ Function.all, function.command.any isParenthesis = false := by
      decide
    simpa using commands function (mem_all function)
  have closing : isParenthesis '\x7d' = false ∧ isParenthesis Function.keptClosing = false := by
    decide
  have opening : isParenthesis '\x7b' = false ∧ isParenthesis Function.keptOpening = false := by
    decide
  cases function <;>
    simp only [Function.toLatex, List.forall_mem_append, List.forall_mem_cons,
      List.not_mem_nil, false_implies, implies_true, and_true, opening, closing, true_and] <;>
    first | exact command | exact ⟨command, plain⟩

/-- The stretch that takes the place of the heading and the parentheses of a call. -/
def Stretch.call (function : Function) (heading body : Stretch) : Stretch where
  chars := beforeName heading.chars ++ function.toLatex body.chars
  plain := by
    rw [List.forall_mem_append]
    refine ⟨fun c member => heading.plain c ?_, isParenthesis_of_mem_toLatex body.plain⟩
    exact (List.rdropWhile_prefix isBlank _).subset
      ((List.rdropWhile_prefix isWordCharacter _).subset member)

@[simp]
theorem Stretch.chars_call (function : Function) (heading body : Stretch)
    : (call function heading body).chars
        = beforeName heading.chars ++ function.toLatex body.chars :=
  rfl

namespace Layout

-----------------------------------------------------------------------------------------
-- Convertible groups
-----------------------------------------------------------------------------------------

/-- Whether every group is convertible: a function calls it that accepts what is in it, and
every group in it is convertible.
-/
def converts : Layout → Bool
  | last _ => true
  | group heading inner rest =>
      (callee? heading.chars).any (fun function => function.accepts inner.text)
        && inner.converts && rest.converts

/-- The function that a group is a call of, if the group is convertible. -/
def converter? (heading : Stretch) (inner : Layout) : Option Function :=
  (callee? heading.chars).filter fun function => function.accepts inner.text && inner.converts

/-- A text in which every convertible group, with the name before it, is written as the call that
it is, around what is written for its body. All other groups keep their names and parentheses.
-/
def typesetWith (write : Function → List Char → List Char) : Layout → List Char
  | last stretch => stretch.chars
  | group heading inner rest =>
      match converter? heading inner with
      | some function =>
          beforeName heading.chars ++ write function (inner.typesetWith write)
            ++ rest.typesetWith write
      | none =>
          heading.chars ++ '(' :: (inner.typesetWith write ++ ')' :: rest.typesetWith write)

section unfold

variable (heading : Stretch) (inner rest : Layout)

theorem converts_group
    : (group heading inner rest).converts
        = ((callee? heading.chars).any (fun function => function.accepts inner.text)
          && inner.converts && rest.converts) :=
  rfl

theorem typesetWith_group (write : Function → List Char → List Char)
    : (group heading inner rest).typesetWith write
        = match converter? heading inner with
          | some function =>
              beforeName heading.chars ++ write function (inner.typesetWith write)
                ++ rest.typesetWith write
          | none =>
              heading.chars ++ '(' :: (inner.typesetWith write ++ ')' :: rest.typesetWith write) :=
  rfl

theorem size_group : (group heading inner rest).size = inner.size + rest.size + 1 :=
  rfl

end unfold

/-- The layout after the calls of one function are typeset that have no groups in them. -/
def step (function : Function) : Layout → Layout
  | last stretch => last stretch
  | group heading (last body) rest =>
      if callee? heading.chars = some function ∧ function.accepts body.chars = true then
        (step function rest).prepend (.call function heading body)
      else group heading (last body) (step function rest)
  | group heading (group innerHeading inner after) rest =>
      group heading (step function (group innerHeading inner after)) (step function rest)

/-- Searching a text for calls of a function is a step on its layout. -/
theorem typesetFrom_text (function : Function) (layout : Layout) {rest : List Char}
    (closes : Closes rest)
    : typesetFrom function false (layout.text ++ rest)
        = (step function layout).text ++ typesetFrom function false rest := by
  have opens : ∀ tail : List Char, ∀ c ∈ ('(' :: tail).head?, isParenthesis c = true := by
    simp [isParenthesis]
  have opening : isParenthesis '(' = true ∧ isParenthesis ')' = true := by
    decide
  fun_induction step function layout generalizing rest with
  | case1 stretch =>
      refine typesetFrom_stretch closes.stops fun _ body more _ same _ => ?_
      rw [same] at closes
      exact absurd (closes '(' rfl) (by decide)
  | case2 heading body after called ih =>
      have calls := callsAfter_iff.mpr ⟨called.1, rfl⟩
      rw [text_prepend, text, List.append_assoc, List.cons_append, List.append_assoc,
        List.cons_append, text, typesetFrom_group calls body.plain called.2, ih closes]
      simp
  | case3 heading body after notCalled ih =>
      have kept : typesetFrom function false
          (heading.chars ++ '(' :: (body.chars ++ ')' :: (after.text ++ rest)))
          = heading.chars ++ typesetFrom function false
            ('(' :: (body.chars ++ ')' :: (after.text ++ rest))) := by
        refine typesetFrom_stretch (opens _) fun front other more calls same plain => ?_
        obtain ⟨bodies, _⟩ := plain_append_injective body.plain plain (closes_cons _).stops
          (closes_cons _).stops (List.cons.inj same).2
        rw [Bool.eq_false_iff]
        intro accepted
        exact notCalled ⟨(callsAfter_iff.mp calls).1, by rwa [bodies]⟩
      have inner : typesetFrom function false (body.chars ++ ')' :: (after.text ++ rest))
          = body.chars ++ typesetFrom function false (')' :: (after.text ++ rest)) := by
        refine typesetFrom_stretch (closes_cons _).stops fun _ _ _ _ same _ => ?_
        cases same
      simp only [text, List.append_assoc, List.cons_append, kept, inner,
        typesetFrom_parenthesis function opening.1, typesetFrom_parenthesis function opening.2,
        ih closes]
  | case4 heading innerHeading inner between after innerIh afterIh =>
      have kept : ∀ tail, typesetFrom function false
          (heading.chars ++ '(' :: ((group innerHeading inner between).text ++ ')' :: tail))
          = heading.chars ++ typesetFrom function false
            ('(' :: ((group innerHeading inner between).text ++ ')' :: tail)) := by
        intro tail
        refine typesetFrom_stretch (opens _) fun front other more calls same plain => ?_
        have inside := (List.cons.inj same).2
        rw [text, List.append_assoc, List.cons_append] at inside
        obtain ⟨_, different⟩ := plain_append_injective innerHeading.plain plain (opens _)
          (closes_cons _).stops inside
        cases different
      rw [text, List.append_assoc, List.cons_append, List.append_assoc, List.cons_append, kept,
        typesetFrom_parenthesis function opening.1, innerIh (closes_cons _),
        typesetFrom_parenthesis function opening.2, afterIh closes]
      simp [text]

theorem typeset_text (function : Function) (layout : Layout)
    : typeset function layout.text = (step function layout).text := by
  have searched := typesetFrom_text function layout closes_nil
  rwa [List.append_nil, typesetFrom_nil, List.append_nil] at searched

-----------------------------------------------------------------------------------------
-- What follows a group
-----------------------------------------------------------------------------------------

/-- Whether a layout can come after a group: it neither goes on with a word nor opens a group
right away.
-/
def Follows : Layout → Prop
  | last stretch => stretch.chars.head?.any isWordCharacter = false
  | group heading _ _ =>
      heading.chars.head?.any isWordCharacter = false ∧ heading.chars.all isBlank = false

/-- Whether nothing that comes after a group runs into it. -/
def Apart : Layout → Prop
  | last _ => True
  | group _ inner rest => inner.Apart ∧ rest.Follows ∧ rest.Apart

/-- What precedes a heading does not change what it calls, unless it runs into its words. -/
theorem callee?_append (front : List Char) {heading : List Char}
    (begins : heading.head?.any isWordCharacter = false) (visible : heading.all isBlank = false)
    : callee? (front ++ heading) = callee? heading
        ∧ beforeName (front ++ heading) = front ++ beforeName heading := by
  have split : ∀ {p : Char → Bool} {text : List Char}, (∃ c ∈ text, p c = false) →
      (front ++ text).rdropWhile p = front ++ text.rdropWhile p
        ∧ (front ++ text).rtakeWhile p = text.rtakeWhile p := by
    rintro p text ⟨c, member, stops⟩
    have nonempty : text.rdropWhile p ≠ [] := by
      intro empty
      have all := List.rdropWhile_eq_nil_iff.mp empty c member
      rw [stops] at all
      cases all
    have ends : (front ++ text.rdropWhile p).getLast?.any p = false := by
      rw [List.getLast?_append_of_ne_nil _ nonempty,
        List.getLast?_eq_getLast_of_ne_nil nonempty, Option.any_some]
      simpa using List.rdropWhile_last_not p text nonempty
    have parts := rdropWhile_append ends fun c => List.mem_rtakeWhile_imp (p := p) (l := text)
    rwa [List.append_assoc, List.rdropWhile_append_rtakeWhile] at parts
  have trimmed : trimEnd (front ++ heading) = front ++ trimEnd heading :=
    (split (by simpa using visible)).1
  have stops : ∃ c ∈ trimEnd heading, isWordCharacter c = false := by
    have nonempty : trimEnd heading ≠ [] := by
      intro empty
      have all := List.rdropWhile_eq_nil_iff.mp empty
      rw [List.all_eq_true.mpr all] at visible
      cases visible
    obtain ⟨c, more, chars⟩ := List.exists_cons_of_ne_nil nonempty
    obtain ⟨blanks, whole⟩ : trimEnd heading <+: heading := List.rdropWhile_prefix isBlank heading
    refine ⟨c, by rw [chars]; exact List.mem_cons_self, ?_⟩
    rw [← whole, chars] at begins
    exact begins
  obtain ⟨before, word⟩ := split stops
  simp only [callee?, lastWord, beforeName, trimmed, before, word, and_self]

section prepend

variable (front : Stretch) {layout : Layout} (follows : layout.Follows)
include follows

theorem converts_prepend : (layout.prepend front).converts = layout.converts := by
  cases layout with
  | last stretch => rfl
  | group heading inner rest =>
      simp only [prepend, converts, Stretch.chars_append,
        callee?_append front.chars follows.1 follows.2]

theorem typesetWith_prepend (write : Function → List Char → List Char)
    : (layout.prepend front).typesetWith write = front.chars ++ layout.typesetWith write := by
  cases layout with
  | last stretch => rfl
  | group heading inner rest =>
      have same : converter? (front ++ heading) inner = converter? heading inner := by
        simp only [converter?, Stretch.chars_append,
          callee?_append front.chars follows.1 follows.2]
      rw [prepend, typesetWith, typesetWith, same]
      cases converter? heading inner with
      | none => simp
      | some function => simp [callee?_append front.chars follows.1 follows.2]

end prepend

theorem apart_prepend (front : Stretch) (layout : Layout)
    : (layout.prepend front).Apart ↔ layout.Apart := by
  cases layout <;> rfl

theorem follows_prepend {front : Stretch}
    (begins : front.chars.head?.any isWordCharacter = false)
    (visible : front.chars.all isBlank = false) (layout : Layout)
    : (layout.prepend front).Follows := by
  have first : ∀ rest : List Char, (front.chars ++ rest).head?.any isWordCharacter = false := by
    intro rest
    cases chars : front.chars with
    | nil => simp [chars] at visible
    | cons c more =>
        rw [chars] at begins
        exact begins
  cases layout with
  | last stretch => exact first stretch.chars
  | group heading inner rest => exact ⟨first heading.chars, by simp [visible]⟩

theorem Follows.step {layout : Layout} (follows : layout.Follows) (function : Function)
    : (step function layout).Follows := by
  fun_cases Layout.step function layout with
  | case1 stretch => exact follows
  | case2 heading body rest called =>
      obtain ⟨more, shown⟩ := toLatex_eq_cons function body.chars
      refine follows_prepend ?_ ?_ _
      · obtain ⟨after, whole⟩ : beforeName heading.chars <+: heading.chars :=
          (List.rdropWhile_prefix isWordCharacter _).trans (List.rdropWhile_prefix isBlank _)
        rw [Stretch.chars_call, shown]
        cases chars : beforeName heading.chars with
        | nil =>
            rw [List.nil_append, List.head?_cons, Option.any_some]
            decide +kernel
        | cons c others =>
            have begins := follows.1
            rw [← whole, chars] at begins
            exact begins
      · rw [Stretch.chars_call, shown, List.all_append, List.all_cons]
        simp [show isBlank '\\' = false by decide]
  | case3 heading body rest notCalled => exact follows
  | case4 heading innerHeading inner after rest => exact follows

theorem Apart.step {layout : Layout} (apart : layout.Apart) (function : Function)
    : (step function layout).Apart := by
  fun_induction Layout.step function layout with
  | case1 stretch => trivial
  | case2 heading body rest called ih => exact (apart_prepend _ _).mpr (ih apart.2.2)
  | case3 heading body rest notCalled ih =>
      exact ⟨trivial, apart.2.1.step function, ih apart.2.2⟩
  | case4 heading innerHeading inner after rest innerIh restIh =>
      exact ⟨innerIh apart.1, apart.2.1.step function, restIh apart.2.2⟩

-----------------------------------------------------------------------------------------
-- What a step keeps
-----------------------------------------------------------------------------------------

theorem all_isBlank_group (heading : Stretch) (inner rest : Layout)
    : (group heading inner rest).text.all isBlank = false := by
  rw [List.all_eq_false]
  exact ⟨'(', by simp [text], by decide⟩

/-- A step neither makes a body blank nor makes a blank body visible. -/
theorem accepts_step (function other : Function) (layout : Layout)
    : other.accepts (step function layout).text = other.accepts layout.text := by
  have blank : (step function layout).text.all isBlank = layout.text.all isBlank := by
    fun_cases step function layout with
    | case1 stretch => rfl
    | case2 heading body rest called =>
        obtain ⟨more, shown⟩ := toLatex_eq_cons function body.chars
        rw [all_isBlank_group, List.all_eq_false]
        exact ⟨'\\', by simp [Stretch.chars_call, shown], by decide⟩
    | case3 heading body rest notCalled => rw [all_isBlank_group, all_isBlank_group]
    | case4 heading innerHeading inner after rest =>
        rw [all_isBlank_group, all_isBlank_group]
  cases other with
  | pi => exact blank
  | _ => rfl

theorem converts_step {layout : Layout} (apart : layout.Apart) (function : Function)
    : (step function layout).converts = layout.converts := by
  fun_induction step function layout with
  | case1 stretch => rfl
  | case2 heading body rest called ih =>
      rw [converts_prepend _ (apart.2.1.step function), ih apart.2.2, converts_group, called.1]
      simp [converts, text, called.2]
  | case3 heading body rest notCalled ih =>
      rw [converts_group, converts_group, ih apart.2.2]
  | case4 heading innerHeading inner after rest innerIh restIh =>
      rw [converts_group, converts_group heading, innerIh apart.1, restIh apart.2.2]
      simp only [accepts_step]

/-- Typesetting some calls first does not change what is written in the end. -/
theorem typesetWith_step {layout : Layout} (apart : layout.Apart) (function : Function)
    : (step function layout).typesetWith Function.toLatex
        = layout.typesetWith Function.toLatex := by
  fun_induction step function layout with
  | case1 stretch => rfl
  | case2 heading body rest called ih =>
      have converted : converter? heading (last body) = some function := by
        simp [converter?, called.1, text, called.2, converts]
      rw [typesetWith_prepend _ (apart.2.1.step function), ih apart.2.2, typesetWith_group,
        converted]
      simp [typesetWith]
  | case3 heading body rest notCalled ih =>
      rw [typesetWith_group, typesetWith_group, ih apart.2.2]
  | case4 heading innerHeading inner after rest innerIh restIh =>
      have same : converter? heading (step function (group innerHeading inner after))
          = converter? heading (group innerHeading inner after) := by
        simp only [converter?, accepts_step, converts_step apart.1]
      rw [typesetWith_group, typesetWith_group heading, same, innerIh apart.1,
        restIh apart.2.2]

-----------------------------------------------------------------------------------------
-- Layouts without calls
-----------------------------------------------------------------------------------------

theorem size_step_le (function : Function) (layout : Layout)
    : (step function layout).size ≤ layout.size := by
  fun_induction step function layout with
  | case1 stretch => exact Nat.le_refl _
  | case2 heading body rest called ih =>
      rw [size_prepend, size_group]
      omega
  | case3 heading body rest notCalled ih =>
      rw [size_group, size_group]
      omega
  | case4 heading innerHeading inner after rest innerIh restIh =>
      rw [size_group, size_group heading]
      omega

/-- A step that changes nothing rewrites no call, and changes nothing inside or after a group. -/
theorem step_group_eq_self {function : Function} {heading : Stretch} {inner rest : Layout}
    (kept : step function (group heading inner rest) = group heading inner rest)
    : step function inner = inner ∧ step function rest = rest
        ∧ ∀ body, inner = last body →
          ¬ (callee? heading.chars = some function ∧ function.accepts body.chars = true) := by
  generalize whole : group heading inner rest = layout at kept
  fun_cases step function layout with
  | case1 stretch => cases whole
  | case2 otherHeading body otherRest called =>
      have sizes := congrArg size kept
      have smaller := size_step_le function otherRest
      rw [step, if_pos called, size_prepend, size_group] at sizes
      omega
  | case3 otherHeading body otherRest notCalled =>
      obtain ⟨rfl, rfl, rfl⟩ := Layout.group.inj whole
      rw [step, if_neg notCalled] at kept
      refine ⟨rfl, (Layout.group.inj kept).2.2, ?_⟩
      rintro _ ⟨⟩
      exact notCalled
  | case4 otherHeading innerHeading innermost after otherRest =>
      obtain ⟨rfl, rfl, rfl⟩ := Layout.group.inj whole
      rw [step] at kept
      exact ⟨(Layout.group.inj kept).2.1, (Layout.group.inj kept).2.2, nofun⟩

/-- Where no call is left, only a text without groups has nothing but convertible groups. -/
theorem eq_last_of_converts {layout : Layout}
    (kept : ∀ function, step function layout = layout) (converts : layout.converts = true)
    : ∃ stretch, layout = last stretch := by
  induction layout with
  | last stretch => exact ⟨stretch, rfl⟩
  | group heading inner rest innerIh _ =>
      simp only [Layout.converts, Bool.and_eq_true, Option.any_eq_true] at converts
      obtain ⟨⟨⟨function, called, accepted⟩, innerConverts⟩, _⟩ := converts
      obtain ⟨body, rfl⟩ :=
        innerIh (fun function => (step_group_eq_self (kept function)).1) innerConverts
      exact absurd ⟨called, accepted⟩ ((step_group_eq_self (kept function)).2.2 body rfl)

/-- Where no call is left, the text is what is written. -/
theorem typesetWith_eq_text {layout : Layout}
    (kept : ∀ function, step function layout = layout)
    : layout.typesetWith Function.toLatex = layout.text := by
  induction layout with
  | last stretch => rfl
  | group heading inner rest innerIh restIh =>
      have innerKept := fun function => (step_group_eq_self (kept function)).1
      have restKept := fun function => (step_group_eq_self (kept function)).2.1
      have noCall : converter? heading inner = none := by
        rw [converter?, Option.filter_eq_none_iff]
        intro function called converts
        simp only [Bool.and_eq_true] at converts
        obtain ⟨body, rfl⟩ := eq_last_of_converts innerKept converts.2
        exact (step_group_eq_self (kept function)).2.2 body rfl ⟨called, converts.1⟩
      rw [typesetWith, noCall, text, innerIh innerKept, restIh restKept]

end Layout

end FormulaLatex.Quick
