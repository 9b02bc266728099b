import FormulaLatex.Proofs.CommandLine.Wording

/-! Reading a command line. Whatever the wording and the order of its settings, a command line is
read as what the settings mean. Each phrase adds its settings to what has been read, and so does
a run of phrases, where the value of the last option may still have to be looked at.
-/

namespace FormulaLatex.CommandLine

open ArgumentReading

/-- Arguments with given settings and perhaps a formula. -/
def Arguments.ofGiven (given : List Given) (formula? : Option String) : Arguments where
  formula? := formula?
  options := optionsOf given
  renames := renamesOf given
  renameFile? := renameFileOf? given
  equation := .flag .equation ∈ given
  check := .flag .check ∈ given
  given := (given.map Given.setting).reverse

/-- Whether a setting can be given after others. -/
def Given.Fresh (next : Given) (given : List Given) : Prop :=
  ∀ other ∈ given, other.setting = next.setting → next.setting = .option .rename

variable {subcommand : Subcommand} {given more : List Given} {next : Given}
  {formula? : Option String}

-----------------------------------------------------------------------------------------
-- One more setting
-----------------------------------------------------------------------------------------

/-- A setting that can be given once is looked up in vain where it has not been given. -/
theorem Given.Fresh.findSome?_eq_none {α : Type} {value? : Given → Option α}
    (fresh : next.Fresh given) (notRename : next.setting ≠ .option .rename)
    (only : ∀ other, other.setting ≠ next.setting → value? other = none)
    : given.findSome? value? = none := by
  rw [List.findSome?_eq_none_iff]
  intro other inGiven
  exact only other fun same => notRename (fresh other inGiven same)

theorem markGiven_ofGiven (fresh : next.Fresh given)
    : (Arguments.ofGiven given formula?).markGiven next.setting
        = .ok { Arguments.ofGiven given formula? with
            given := ((given ++ [next]).map Given.setting).reverse } := by
  have notRepeated : ¬ (next.setting ∈ (Arguments.ofGiven given formula?).given
      ∧ next.setting ≠ .option .rename) := by
    rintro ⟨member, notRename⟩
    rw [Arguments.ofGiven, List.mem_reverse] at member
    obtain ⟨other, inGiven, same⟩ := List.mem_map.mp member
    exact notRename (fresh other inGiven same)
  rw [Arguments.markGiven, if_neg notRepeated, List.map_append, List.reverse_append]
  rfl

theorem withFlag_ofGiven {flag : Flag} (notHelp : flag ≠ .help)
    : { Arguments.ofGiven given formula? with
          given := ((given ++ [Given.flag flag]).map Given.setting).reverse }.withFlag flag
        = .ok (Arguments.ofGiven (given ++ [Given.flag flag]) formula?) := by
  cases flag with
  | help => exact absurd rfl notHelp
  | _ =>
      simp [Arguments.withFlag, Arguments.ofGiven, optionsOf, tokenizerOf, renamesOf,
        renameFileOf?]

theorem withOption_ofGiven {option : ValueOption} {value : String}
    (takes : option.Takes value next) (fresh : next.Fresh given)
    : { Arguments.ofGiven given formula? with
          given := ((given ++ [next]).map Given.setting).reverse }.withOption option value
        = .ok (Arguments.ofGiven (given ++ [next]) formula?) := by
  cases takes with
  | rename spelled first named =>
      rw [Arguments.withOption, parseRename_eq spelled first named]
      refine congrArg Except.ok ?_
      simp [Arguments.ofGiven, optionsOf, tokenizerOf, renamesOf, renameFileOf?]
  | renameFile named =>
      have absent : given.findSome? Given.renameFile? = none := by
        refine fresh.findSome?_eq_none (by simp [Given.setting]) fun other different => ?_
        cases other <;> first | rfl | exact absurd rfl different
      simp [Arguments.withOption, named, absent, Arguments.ofGiven, optionsOf, tokenizerOf,
        renamesOf, renameFileOf?]
  | decimal style =>
      have absent : given.findSome? Given.decimalStyle? = none := by
        refine fresh.findSome?_eq_none (by simp [Given.setting]) fun other different => ?_
        cases other <;> first | rfl | exact absurd rfl different
      have chosen : DecimalStyle.choices.lookup style.name = some style := by
        cases style <;> rfl
      rw [Arguments.withOption, Arguments.choice, chosen]
      refine congrArg Except.ok ?_
      simp [absent, Arguments.ofGiven, optionsOf, tokenizerOf, renamesOf, renameFileOf?]
  | separators accepted =>
      have absent : given.findSome? Given.decimalSeparators? = none := by
        refine fresh.findSome?_eq_none (by simp [Given.setting]) fun other different => ?_
        cases other <;> first | rfl | exact absurd rfl different
      have chosen : DecimalSeparators.choices.lookup accepted.name = some accepted := by
        cases accepted <;> rfl
      rw [Arguments.withOption, Arguments.choice, chosen]
      refine congrArg Except.ok ?_
      simp [absent, Arguments.ofGiven, optionsOf, tokenizerOf, renamesOf, renameFileOf?]
  | maxDepth spelled nonempty areDigits bounded =>
      have absent : given.findSome? Given.maxDepth? = none := by
        refine fresh.findSome?_eq_none (by simp [Given.setting]) fun other different => ?_
        cases other <;> first | rfl | exact absurd rfl different
      rw [Arguments.withOption, parseNatBelow_eq spelled nonempty areDigits bounded]
      refine congrArg Except.ok ?_
      simp [absent, Arguments.ofGiven, optionsOf, tokenizerOf, renamesOf, renameFileOf?]

/-- The value of an option adds what it sets. -/
theorem giveOption_ofGiven {option : ValueOption} {value : String}
    (takes : option.Takes value next) (fresh : next.Fresh given)
    : giveOption (.ofGiven given formula?) option (some value)
        = .ok { arguments := .ofGiven (given ++ [next]) formula? } := by
  have setting : next.setting = .option option := by
    cases takes <;> rfl
  rw [giveOption, ← setting, markGiven_ofGiven fresh]
  change (Except.mapError _ (Arguments.withOption _ option value) >>= fun _ => _) = _
  rw [withOption_ofGiven takes fresh]
  rfl

-----------------------------------------------------------------------------------------
-- Readings
-----------------------------------------------------------------------------------------

/-- What has been read: settings and perhaps a formula. The value of the last option may still
have to be looked at, but it is there.
-/
structure ArgumentReading.Tells (reading : ArgumentReading) (given : List Given)
    (formula? : Option String)
    : Prop where
  formula : reading.arguments.formula? = formula?
  settles : reading.settle = .ok { arguments := .ofGiven given formula? }
  supplied : ∀ option, reading.pending? ≠ some (option, none)

variable {reading : ArgumentReading}

theorem tells_ofGiven (given : List Given) (formula? : Option String)
    : ArgumentReading.Tells { arguments := .ofGiven given formula? } given formula? :=
  ⟨rfl, rfl, nofun⟩

theorem ArgumentReading.Tells.readFlag (tells : reading.Tells given formula?) {flag : Flag}
    (notHelp : flag ≠ .help) (fresh : (Given.flag flag).Fresh given)
    : reading.readFlag flag
        = .ok { arguments := .ofGiven (given ++ [.flag flag]) formula? } := by
  rw [ArgumentReading.readFlag, tells.settles]
  change (Except.mapError _ (Arguments.markGiven _ (Given.flag flag).setting)
    >>= fun _ => _) = _
  rw [markGiven_ofGiven fresh]
  change (Arguments.withFlag _ flag >>= fun _ => _) = _
  rw [withFlag_ofGiven notHelp]
  rfl

theorem Once.fresh (once : Once (given ++ next :: more)) : next.Fresh given := by
  intro other inGiven same
  exact (List.pairwise_append.mp once).2.2 other inGiven next List.mem_cons_self same

theorem Once.front (once : Once (given ++ more)) : Once given :=
  (List.pairwise_append.mp once).1

/-- Flags are added one after another. -/
theorem ArgumentReading.Tells.readFlags (tells : reading.Tells given formula?) {flags : List Flag}
    (noHelp : .help ∉ flags) (once : Once (given ++ flags.map .flag))
    : ∃ next, flags.foldlM ArgumentReading.readFlag reading = .ok next
      ∧ next.Tells (given ++ flags.map .flag) formula? := by
  induction flags generalizing reading given with
  | nil => exact ⟨reading, rfl, by simpa using tells⟩
  | cons flag rest ih =>
      rw [List.mem_cons, not_or] at noHelp
      obtain ⟨notHelp, restNoHelp⟩ := noHelp
      have first := tells.readFlag (Ne.symm notHelp) once.fresh
      rw [List.map_cons, List.append_cons] at once ⊢
      rw [List.foldlM_cons, first]
      exact ih (tells_ofGiven _ _) restNoHelp once

theorem ArgumentReading.Tells.readOption (tells : reading.Tells given formula?)
    {option : ValueOption} {value : String} (takes : option.Takes value next)
    (fresh : next.Fresh given)
    : reading.readOption option (some value)
        = .ok { arguments := .ofGiven (given ++ [next]) formula? } := by
  rw [ArgumentReading.readOption, tells.settles]
  exact giveOption_ofGiven takes fresh

/-- A word that cannot be taken for a setting is the value of an option that waits for it. -/
theorem ArgumentReading.Tells.readApart (tells : reading.Tells given formula?)
    {option : ValueOption} {value : String} (takes : option.Takes value next)
    (fresh : next.Fresh given)
    : ∃ waiting supplied, reading.readOption option none = .ok waiting
      ∧ waiting.readPlain value = .ok supplied
      ∧ supplied.Tells (given ++ [next]) formula? := by
  refine ⟨⟨.ofGiven given formula?, some (option, none)⟩,
    ⟨.ofGiven given formula?, some (option, some value)⟩, ?_, rfl, rfl, ?_, ?_⟩
  · rw [ArgumentReading.readOption, tells.settles]
    rfl
  · exact giveOption_ofGiven takes fresh
  · rintro other ⟨⟩

theorem ArgumentReading.Tells.readFormula (tells : reading.Tells given none) (formula : String)
    : reading.readFormula formula = .ok { arguments := .ofGiven given (some formula) } := by
  rw [ArgumentReading.readFormula, tells.formula]
  dsimp only
  rw [tells.settles]
  rfl

-----------------------------------------------------------------------------------------
-- Words
-----------------------------------------------------------------------------------------

theorem find?_long : ∀ setting ∈ subcommand.settings,
    subcommand.settings.find? (fun known => known.long == setting.long) = some setting := by
  cases subcommand <;> decide

theorem find?_short {setting : Setting} (known : setting ∈ subcommand.settings) {letter : Char}
    (short : setting.short? = some letter)
    : subcommand.settings.find? (fun known => known.short? == some letter) = some setting := by
  have unique : ∀ setting ∈ subcommand.settings, setting.short? = none
      ∨ subcommand.settings.find? (fun known => known.short? == setting.short?)
        = some setting := by
    cases subcommand <;> decide
  rcases unique setting known with none | found
  · rw [none] at short
    cases short
  · rwa [short] at found

/-- Names of settings can be told from what stands around them on a command line. -/
theorem names_of_mem_settings : ∀ setting ∈ Subcommand.convert.settings,
    '=' ∉ setting.long.toList ∧ setting.long.toList ≠ [] ∧ setting.short? ≠ some '-' := by
  decide

theorem equals_not_mem_long (setting : Setting) : '=' ∉ setting.long.toList :=
  (names_of_mem_settings setting (mem_settings_convert setting)).1

theorem long_ne_nil (setting : Setting) : setting.long.toList ≠ [] :=
  (names_of_mem_settings setting (mem_settings_convert setting)).2.1

theorem head?_ne_hyphen {setting : Setting} {letter : Char}
    (short : setting.short? = some letter) (rest : List Char)
    : (letter :: rest).head? ≠ some '-' := by
  rw [List.head?_cons, ← short]
  exact (names_of_mem_settings setting (mem_settings_convert setting)).2.2

theorem hyphens_append (name : String)
    : "--" ++ name = String.ofList ('-' :: '-' :: name.toList) := by
  simp [← String.toList_inj]

theorem readArgument_long (setting : Setting)
    : reading.readArgument subcommand ("--" ++ setting.long)
        = reading.readLong subcommand setting.long none := by
  rw [hyphens_append, readArgument, String.toList_ofList]
  simp only
  rw [splitAtEquals?_eq_none (equals_not_mem_long setting), String.ofList_toList]

theorem readArgument_long_equals (setting : Setting) (value : List Char)
    : reading.readArgument subcommand
          (String.ofList ('-' :: '-' :: (setting.long.toList ++ '=' :: value)))
        = reading.readLong subcommand setting.long (some (String.ofList value)) := by
  rw [readArgument, String.toList_ofList]
  simp only
  rw [splitAtEquals?_append (equals_not_mem_long setting)]
  simp only [String.ofList_toList]

theorem readArgument_short {letter : Char} (notHyphen : letter ≠ '-') (rest : List Char)
    : reading.readArgument subcommand (String.ofList ('-' :: letter :: rest))
        = reading.readShort subcommand (letter :: rest) := by
  rw [readArgument, String.toList_ofList]
  split <;> simp_all

theorem readArgument_unhyphenated {word : String} (unhyphenated : Unhyphenated word)
    : reading.readArgument subcommand word = reading.readPlain word := by
  rw [readArgument]
  split
  · rename_i same
    exact absurd same (unhyphenated _ _)
  · rename_i same
    exact absurd same (unhyphenated _ _)
  · rfl

theorem Subcommand.Letters.readShort {letters : List Char} {flags : List Flag}
    (clustered : subcommand.Letters letters flags) (reading : ArgumentReading)
    (rest : List Char)
    : reading.readShort subcommand (letters ++ rest)
        = (flags.foldlM ArgumentReading.readFlag reading
            >>= fun next => next.readShort subcommand rest) := by
  induction clustered generalizing reading with
  | nil => rfl
  | cons has short others ih =>
      rw [List.cons_append, ArgumentReading.readShort, find?_short has.1 short,
        List.foldlM_cons, bind_assoc]
      dsimp only
      congr 1
      funext next
      exact ih next

theorem Subcommand.Letters.noHelp {letters : List Char} {flags : List Flag}
    (clustered : subcommand.Letters letters flags)
    : Flag.help ∉ flags := by
  induction clustered with
  | nil => simp
  | cons has short others ih =>
      rw [List.mem_cons, not_or]
      exact ⟨fun same => has.2 (same ▸ rfl), ih⟩

theorem readLong_flag {flag : Flag} (has : subcommand.Has (.flag flag))
    : reading.readLong subcommand (Setting.flag flag).long none = reading.readFlag flag := by
  rw [readLong.eq_def, find?_long _ has.1]

theorem readLong_option {option : ValueOption} (has : subcommand.Has (.option option))
    (value? : Option String)
    : reading.readLong subcommand (Setting.option option).long value?
        = reading.readOption option value? := by
  rw [readLong.eq_def, find?_long _ has.1]

/-- A cluster of letters does not go on with a second hyphen. -/
theorem Subcommand.Letters.exists_cons {letters : List Char} {flags : List Flag}
    (clustered : subcommand.Letters letters flags) {rest : List Char}
    (nonempty : letters ++ rest ≠ []) (begins : rest.head? ≠ some '-')
    : ∃ c more, letters ++ rest = c :: more ∧ c ≠ '-' := by
  obtain ⟨c, more, same⟩ := List.exists_cons_of_ne_nil nonempty
  refine ⟨c, more, same, fun hyphen => ?_⟩
  cases clustered with
  | nil => exact begins (by rw [← hyphen, ← List.nil_append rest, same, List.head?_cons])
  | cons has short others =>
      obtain ⟨rfl, _⟩ := List.cons.inj same
      exact head?_ne_hyphen short [] (by rw [List.head?_cons, hyphen])

/-- A cluster of letters is read letter by letter. -/
theorem Subcommand.Letters.readArgument {letters : List Char} {flags : List Flag}
    (clustered : subcommand.Letters letters flags) (reading : ArgumentReading)
    (rest : List Char) (nonempty : letters ++ rest ≠ []) (begins : rest.head? ≠ some '-')
    : reading.readArgument subcommand (String.ofList ('-' :: (letters ++ rest)))
        = (flags.foldlM ArgumentReading.readFlag reading
            >>= fun next => next.readShort subcommand rest) := by
  obtain ⟨c, more, same, notHyphen⟩ := clustered.exists_cons nonempty begins
  rw [← clustered.readShort, same]
  exact readArgument_short notHyphen more

/-- An option after a cluster of flags is read with what follows its letter, where an equals sign
has no meaning.
-/
theorem Subcommand.Letters.readOption {letters : List Char} {flags : List Flag} {letter : Char}
    {option : ValueOption} (clustered : subcommand.Letters letters flags)
    (has : subcommand.Has (.option option))
    (short : (Setting.option option).short? = some letter)
    (tells : reading.Tells given formula?) (once : Once (given ++ flags.map .flag))
    : ∃ next : ArgumentReading, next.Tells (given ++ flags.map .flag) formula?
      ∧ reading.readArgument subcommand (String.ofList ('-' :: (letters ++ [letter])))
        = next.readOption option none
      ∧ (∀ value, reading.readArgument subcommand
          (String.ofList ('-' :: (letters ++ letter :: '=' :: value)))
        = next.readOption option (some (String.ofList value)))
      ∧ ∀ value, value ≠ [] → value.head? ≠ some '=' →
        reading.readArgument subcommand (String.ofList ('-' :: (letters ++ letter :: value)))
          = next.readOption option (some (String.ofList value)) := by
  obtain ⟨next, flagsRead, nextTells⟩ := tells.readFlags clustered.noHelp once
  have opens : ∀ rest, reading.readArgument subcommand
      (String.ofList ('-' :: (letters ++ letter :: rest)))
        = next.readShort subcommand (letter :: rest) := by
    intro rest
    rw [clustered.readArgument reading _ (by simp) (head?_ne_hyphen short rest), flagsRead]
    rfl
  refine ⟨next, nextTells, ?_, fun value => ?_, fun value nonempty noEquals => ?_⟩
  · rw [opens, ArgumentReading.readShort, find?_short has.1 short]
  · rw [opens, ArgumentReading.readShort, find?_short has.1 short]
    rfl
  · rw [opens, ArgumentReading.readShort, find?_short has.1 short]
    dsimp only
    split
    · exact absurd rfl nonempty
    · exact absurd rfl noEquals
    · rfl

/-- What names an option is read as the flags before it and then the option. -/
theorem Subcommand.Names.read {front : List Char} {flags : List Flag} {option : ValueOption}
    (names : subcommand.Names front flags option) (tells : reading.Tells given formula?)
    (once : Once (given ++ flags.map .flag))
    : ∃ next : ArgumentReading, next.Tells (given ++ flags.map .flag) formula?
      ∧ reading.readArgument subcommand (String.ofList front) = next.readOption option none
      ∧ ∀ value, reading.readArgument subcommand (String.ofList (front ++ '=' :: value))
        = next.readOption option (some (String.ofList value)) := by
  cases names with
  | long has =>
      refine ⟨reading, by simpa using tells, ?_, fun value => ?_⟩
      · rw [← readLong_option has, ← readArgument_long, hyphens_append]
      · rw [← readLong_option has, ← readArgument_long_equals]
        rfl
  | short clustered has short =>
      obtain ⟨next, nextTells, alone, equals, _⟩ := clustered.readOption has short tells once
      refine ⟨next, nextTells, alone, fun value => ?_⟩
      rw [← equals]
      simp

/-- A word with more than two hyphens is not the one that ends the settings. -/
theorem ne_hyphens {c : Char} {rest : List Char} (more : c ≠ '-' ∨ rest ≠ [])
    : String.ofList ('-' :: c :: rest) ≠ "--" := by
  intro same
  have chars := congrArg String.toList same
  rw [String.toList_ofList] at chars
  obtain ⟨_, chars⟩ := List.cons.inj chars
  obtain ⟨hyphen, empty⟩ := List.cons.inj chars
  exact more.elim (· hyphen) (· empty)

theorem Subcommand.Letters.ne_hyphens {letters : List Char} {flags : List Flag}
    (clustered : subcommand.Letters letters flags) (rest : List Char)
    (nonempty : letters ++ rest ≠ []) (begins : rest.head? ≠ some '-')
    : String.ofList ('-' :: (letters ++ rest)) ≠ "--" := by
  obtain ⟨c, more, same, notHyphen⟩ := clustered.exists_cons nonempty begins
  rw [same]
  exact CommandLine.ne_hyphens (.inl notHyphen)

theorem Subcommand.Names.ne_hyphens {front : List Char} {flags : List Flag}
    {option : ValueOption} (names : subcommand.Names front flags option) (rest : List Char)
    : String.ofList (front ++ rest) ≠ "--" := by
  cases names with
  | long has =>
      refine CommandLine.ne_hyphens (.inr ?_)
      exact List.append_ne_nil_of_left_ne_nil (long_ne_nil _) rest
  | @short letters flags letter option clustered has short =>
      have word := clustered.ne_hyphens _ (by simp) (head?_ne_hyphen short rest)
      simpa using word

-----------------------------------------------------------------------------------------
-- Phrases and command lines
-----------------------------------------------------------------------------------------

theorem readAll_cons {word : String} (notHyphens : word ≠ "--") (rest : List String)
    : reading.readAll subcommand (word :: rest)
        = (reading.readArgument subcommand word >>= fun next => next.readAll subcommand rest) := by
  rw [readAll]
  exact notHyphens

theorem Unhyphenated.ne_hyphens {word : String} (unhyphenated : Unhyphenated word)
    : word ≠ "--" := by
  rintro rfl
  exact unhyphenated '-' [] rfl

/-- A phrase adds its settings, whatever follows. -/
theorem Subcommand.Phrase.read {words : List String} (phrase : subcommand.Phrase words more)
    (tells : reading.Tells given formula?) (once : Once (given ++ more))
    : ∃ next : ArgumentReading, next.Tells (given ++ more) formula?
      ∧ ∀ rest, reading.readAll subcommand (words ++ rest) = next.readAll subcommand rest := by
  cases phrase with
  | @flag flag has =>
      refine ⟨_, tells_ofGiven _ _, fun rest => ?_⟩
      have notHyphens : "--" ++ (Setting.flag flag).long ≠ "--" := by
        rw [hyphens_append]
        exact CommandLine.ne_hyphens (.inr (long_ne_nil _))
      have read := tells.readFlag (fun same => has.2 (same ▸ rfl)) once.fresh
      rw [List.singleton_append, readAll_cons notHyphens, readArgument_long, readLong_flag has,
        read]
      rfl
  | @letters letters flags clustered nonempty =>
      obtain ⟨next, read, nextTells⟩ := tells.readFlags clustered.noHelp once
      refine ⟨next, nextTells, fun rest => ?_⟩
      have word := clustered.readArgument reading [] (by simpa using nonempty) nofun
      rw [List.append_nil] at word
      have notHyphens := clustered.ne_hyphens [] (by simpa using nonempty) nofun
      rw [List.append_nil] at notHyphens
      rw [List.singleton_append, readAll_cons notHyphens, word, read]
      rfl
  | equals names takes =>
      rw [← List.append_assoc] at once ⊢
      obtain ⟨next, nextTells, _, equals⟩ := names.read tells once.front
      refine ⟨_, tells_ofGiven _ _, fun rest => ?_⟩
      have read := nextTells.readOption takes once.fresh
      rw [List.singleton_append, readAll_cons (names.ne_hyphens _), equals, String.ofList_toList,
        read]
      rfl
  | @apart front flags option value given names takes unhyphenated =>
      rw [← List.append_assoc] at once ⊢
      obtain ⟨next, nextTells, alone, _⟩ := names.read tells once.front
      obtain ⟨waiting, supplied, waits, isSupplied, suppliedTells⟩ :=
        nextTells.readApart takes once.fresh
      refine ⟨supplied, suppliedTells, fun rest => ?_⟩
      have notHyphens : String.ofList front ≠ "--" := by
        simpa using names.ne_hyphens []
      rw [List.cons_append, List.singleton_append, readAll_cons notHyphens, alone, waits]
      change waiting.readAll subcommand (value :: rest) = _
      rw [readAll_cons unhyphenated.ne_hyphens, readArgument_unhyphenated unhyphenated,
        isSupplied]
      rfl
  | @attached letters flags letter option value given clustered has short takes nonempty
      noEquals =>
      rw [← List.append_assoc] at once ⊢
      obtain ⟨next, nextTells, _, _, attached⟩ :=
        clustered.readOption has short tells once.front
      refine ⟨_, tells_ofGiven _ _, fun rest => ?_⟩
      have read := nextTells.readOption takes once.fresh
      have word := attached value.toList (by simpa using nonempty) noEquals
      rw [String.ofList_toList] at word
      have notHyphens := clustered.ne_hyphens _ (by simp) (head?_ne_hyphen short value.toList)
      rw [List.singleton_append, readAll_cons notHyphens, word, read]
      rfl

theorem readAll_formula (tells : reading.Tells given none) {formula : String}
    (unhyphenated : Unhyphenated formula) (rest : List String)
    : reading.readAll subcommand (formula :: rest)
        = ArgumentReading.readAll subcommand
            { arguments := .ofGiven given (some formula) } rest := by
  have word : reading.readPlain formula = reading.readFormula formula := by
    rw [readPlain]
    split
    · rename_i option waits
      exact absurd waits (tells.supplied option)
    · rfl
  rw [readAll_cons unhyphenated.ne_hyphens, readArgument_unhyphenated unhyphenated, word,
    tells.readFormula]
  rfl

/-- Reading a command line gives what its settings mean, and its formula. -/
theorem Subcommand.Wording.read {words : List String} {last? : Option String}
    (wording : subcommand.Wording words more last?) (tells : reading.Tells given formula?)
    (once : Once (given ++ more)) (single : formula? = none ∨ last? = none)
    : reading.readAll subcommand words
        = .ok { arguments := .ofGiven (given ++ more) (formula?.or last?) } := by
  induction wording generalizing reading given formula? with
  | nil =>
      rw [readAll, tells.settles, List.append_nil, Option.or_none]
  | settings first others ih =>
      rw [← List.append_assoc] at once ⊢
      obtain ⟨next, nextTells, read⟩ := first.read tells once.front
      rw [read]
      exact ih nextTells once single
  | @formula formula rest more unhyphenated others ih =>
      obtain rfl : formula? = none := single.resolve_right nofun
      rw [readAll_formula tells unhyphenated]
      exact ih (tells_ofGiven _ _) once (.inr rfl)
  | hyphens =>
      rw [readAll, List.foldlM_nil, List.append_nil, Option.or_none]
      exact tells.settles
  | afterHyphens formula =>
      obtain rfl : formula? = none := single.resolve_right nofun
      rw [readAll, List.foldlM_cons, tells.readFormula, List.append_nil]
      rfl

/-- The arguments of a subcommand say what its command line means. -/
theorem Arguments.ofList_of_wording {words : List String}
    (wording : subcommand.Wording words given formula?) (once : Once given)
    : Arguments.ofList subcommand words = .ok (.ofGiven given formula?) := by
  have read := wording.read (tells_ofGiven [] none) once (.inl rfl)
  change (ArgumentReading.readAll subcommand { arguments := .ofGiven [] none } words
    >>= fun next => .ok next.arguments) = _
  rw [read, List.nil_append, Option.none_or]
  rfl

end FormulaLatex.CommandLine
