import Mathlib.Data.List.Nodup
import FormulaLatex.Json.Fields

/-! Restating a record. The members of an object that describes a record can stand in any order,
those whose names no field has mean nothing, and those for fields that have their defaults can be
left out. This holds in records within records as well, so a record can be described by many
objects, but what they mean is the same.
-/

namespace FormulaLatex.Json

-----------------------------------------------------------------------------------------
-- Restated values
-----------------------------------------------------------------------------------------

/-- A value can stand for another one where a record is described whose defaults are given as the
first value, with a member for each field. A change at the front is a change anywhere, as members
can be reordered before it and after it.
-/
inductive Restates : Json → Json → Json → Prop
  | same {defaults json : Json} : Restates defaults json json
  | trans {defaults json middle other : Json} (first : Restates defaults json middle)
    (second : Restates defaults middle other)
    : Restates defaults json other
  | reordered {fields members others : List (String × Json)} (permuted : members.Perm others)
    : Restates (.object fields) (.object members) (.object others)
  | added {fields members : List (String × Json)} {name : String}
    (unknown : name ∉ fields.map Prod.fst) (value : Json)
    : Restates (.object fields) (.object members) (.object ((name, value) :: members))
  | omitted {fields members : List (String × Json)} {name : String} {default value : Json}
    (field : (name, default) ∈ fields) (restated : Restates default default value)
    : Restates (.object fields) (.object ((name, value) :: members)) (.object members)
  | within {fields members : List (String × Json)} {name : String} {default value other : Json}
    (field : (name, default) ∈ fields) (restated : Restates default value other)
    : Restates (.object fields) (.object ((name, value) :: members))
        (.object ((name, other) :: members))

variable {defaults json other : Json}

theorem Restates.eq_or_objects (restates : Restates defaults json other)
    : json = other ∨ ∃ members others, json = .object members ∧ other = .object others := by
  induction restates with
  | same => exact .inl rfl
  | trans _ _ first second =>
      rcases first with rfl | ⟨members, _, rfl, rfl⟩
      · exact second
      · rcases second with rfl | ⟨_, others, _, rfl⟩
        · exact .inr ⟨members, _, rfl, rfl⟩
        · exact .inr ⟨members, others, rfl, rfl⟩
  | reordered | added | omitted | within => exact .inr ⟨_, _, rfl, rfl⟩

/-- Only records can be restated. -/
theorem Restates.eq_of_scalar (restates : Restates defaults json other)
    (scalar : ∀ fields, defaults ≠ .object fields)
    : json = other := by
  induction restates with
  | same => rfl
  | trans _ _ first second => exact (first scalar).trans (second scalar)
  | reordered | added | omitted | within => exact absurd rfl (scalar _)

-----------------------------------------------------------------------------------------
-- Members by name
-----------------------------------------------------------------------------------------

variable {members others : List (String × Json)} {name : String}

theorem uniqueMember?_perm (permuted : members.Perm others) (name : String)
    : uniqueMember? members name = uniqueMember? others name := by
  have named := permuted.filter fun entry => entry.1 == name
  unfold uniqueMember?
  generalize members.filter _ = left, others.filter _ = right at named
  match left, named with
  | [], named => rw [named.nil_eq]
  | [entry], named => rw [named.singleton_eq]
  | first :: second :: left, named =>
      match right, named.length_eq with
      | _ :: _ :: _, _ => rfl

theorem uniqueMember?_cons_of_ne {key : String} (other : key ≠ name) (value : Json)
    (members : List (String × Json))
    : uniqueMember? ((key, value) :: members) name = uniqueMember? members name := by
  rw [uniqueMember?, List.filter_cons_of_neg (by simpa using other), ← uniqueMember?]

/-- A member is the only one of its name if none of the others has the name. -/
theorem uniqueMember?_cons_self {value : Json} {found : Option Json}
    : uniqueMember? ((name, value) :: members) name = some found
      ↔ uniqueMember? members name = some none ∧ found = some value := by
  unfold uniqueMember?
  rw [List.filter_cons_of_pos (by simp)]
  cases members.filter _ with
  | nil => simp [eq_comm]
  | cons entry rest => cases rest <;> simp

-----------------------------------------------------------------------------------------
-- What is read
-----------------------------------------------------------------------------------------

variable {α β : Type}

/-- What is read from a value is read from everything that can stand for it. -/
def Kept (defaults : Json) (read? : Json → Option α) : Prop :=
  ∀ (json other : Json) (meaning : α), Restates defaults json other →
    read? json = some meaning → read? other = some meaning

theorem Kept.of_scalar (scalar : ∀ fields, defaults ≠ .object fields) (read? : Json → Option α)
    : Kept defaults read? := by
  intro json other meaning restates read
  rwa [← restates.eq_of_scalar scalar]

theorem Kept.pure (meaning : α) : Kept defaults fun _ => some meaning :=
  fun _ _ _ _ read => read

theorem Kept.bind {read? : Json → Option α} {next? : α → Json → Option β}
    (first : Kept defaults read?) (second : ∀ part, Kept defaults (next? part))
    : Kept defaults fun json => (read? json).bind fun part => next? part json := by
  intro json other meaning restates read
  obtain ⟨part, found, rest⟩ := Option.bind_eq_some_iff.mp read
  have kept := first _ _ _ restates found
  exact Option.bind_eq_some_iff.mpr ⟨part, kept, second part _ _ _ restates rest⟩

/-- It is enough to know how objects are read. -/
theorem Kept.of_objects {read? objectRead? : Json → Option α}
    (alike : ∀ members, read? (.object members) = objectRead? (.object members))
    (kept : Kept defaults objectRead?)
    : Kept defaults read? := by
  intro json other meaning restates read
  rcases restates.eq_or_objects with rfl | ⟨members, others, rfl, rfl⟩
  · exact read
  · rw [alike] at read ⊢
    exact kept _ _ _ restates read

/-- What a field means in the record that an object describes. -/
def fieldIn? (name : String) (default : α) (read? : Json → Option α) : Json → Option α
  | .object members => (uniqueMember? members name).bind (fieldOr default read?)
  | _ => none

theorem fieldIn?_cons_of_ne {key : String} (other : key ≠ name) (value : Json)
    (members : List (String × Json)) (default : α) (read? : Json → Option α)
    : fieldIn? name default read? (.object ((key, value) :: members))
        = fieldIn? name default read? (.object members) := by
  rw [fieldIn?, fieldIn?, uniqueMember?_cons_of_ne other]

theorem fieldIn?_cons_self {value : Json} {default meaning : α} {read? : Json → Option α}
    : fieldIn? name default read? (.object ((name, value) :: members)) = some meaning
      ↔ uniqueMember? members name = some none ∧ read? value = some meaning := by
  simp only [fieldIn?, Option.bind_eq_some_iff, uniqueMember?_cons_self, and_assoc,
    exists_and_left, exists_eq_left, fieldOr]

/-- A field keeps its meaning if its value does and its default is what is read for the value that
stands for the default.
-/
theorem Kept.fieldIn? {fields : List (String × Json)} (distinct : (fields.map Prod.fst).Nodup)
    (value : Json) (field : (name, value) ∈ fields) {read? : Json → Option α} {default : α}
    (reads : read? value = some default) (kept : Kept value read?)
    : Kept (.object fields) (Json.fieldIn? name default read?) := by
  have valueOf : ∀ {key : String} {found : Json}, (key, found) ∈ fields → key = name →
      found = value := by
    rintro key found member rfl
    have same := List.inj_on_of_nodup_map distinct member field rfl
    exact (Prod.mk.inj same).2
  intro json other meaning restates
  generalize described : Json.object fields = defaults at restates
  induction restates with
  | same => exact id
  | trans _ _ first second => exact fun read => second described (first described read)
  | reordered permuted =>
      rw [Json.fieldIn?, Json.fieldIn?, uniqueMember?_perm permuted]
      exact id
  | @added _ _ key unknown added =>
      cases described
      have apart : key ≠ name := by
        rintro rfl
        exact unknown (List.mem_map_of_mem field)
      rw [fieldIn?_cons_of_ne apart]
      exact id
  | @omitted _ members key _ held member restated =>
      cases described
      by_cases same : key = name
      · obtain rfl := valueOf member same
        subst same
        intro read
        obtain ⟨alone, read⟩ := fieldIn?_cons_self.mp read
        -- What is left out was read as the default, and the default it is now.
        have isDefault := (kept _ _ _ restated reads).symm.trans read
        rw [Json.fieldIn?, alone]
        exact isDefault
      · rw [fieldIn?_cons_of_ne same]
        exact id
  | @within _ members key _ held restatement member restated =>
      cases described
      by_cases same : key = name
      · obtain rfl := valueOf member same
        subst same
        intro read
        obtain ⟨alone, read⟩ := fieldIn?_cons_self.mp read
        exact fieldIn?_cons_self.mpr ⟨alone, kept _ _ _ restated read⟩
      · rw [fieldIn?_cons_of_ne same, fieldIn?_cons_of_ne same]
        exact id

/-- A field whose values are no records keeps its meaning. -/
theorem Kept.scalarField {fields : List (String × Json)} (distinct : (fields.map Prod.fst).Nodup)
    (value : Json) (field : (name, value) ∈ fields) {read? : Json → Option α} {default : α}
    (reads : read? value = some default) (scalar : ∀ fields, value ≠ .object fields)
    : Kept (.object fields) (Json.fieldIn? name default read?) :=
  Kept.fieldIn? distinct value field reads (Kept.of_scalar scalar read?)

end FormulaLatex.Json
