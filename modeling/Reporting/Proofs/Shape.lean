import Mathlib.Data.List.Forall2
import Reporting.Shape

/-!
# Valid readings

What it takes for a reading to end without a fault. Each lemma takes one reader apart; together they
turn the equation `read value = .valid result` into a description of the value and the result. A
reading without a result names at least one fault (`Checked.Explained`).
-/

namespace Reporting

namespace Checked

variable {α β : Type}

/-- What is mapped is valid iff it was. -/
theorem map_eq_valid {f : α → β} {a : Checked α} {result : β} :
    f <$> a = .valid result ↔ ∃ x, a = .valid x ∧ f x = result := by
  cases a with
  | valid x => exact ⟨fun same => ⟨x, rfl, valid.inj same⟩, fun ⟨_, same, value⟩ =>
      congrArg valid (valid.inj same ▸ value)⟩
  | faulty faults => exact ⟨nofun, nofun⟩

/-- Two parts are valid together iff each is. -/
theorem seq_eq_valid {f : Checked (α → β)} {a : Checked α} {result : β} :
    f <*> a = .valid result ↔ ∃ g, f = .valid g ∧ ∃ x, a = .valid x ∧ g x = result := by
  cases f with
  | valid g =>
      cases a with
      | valid x =>
          constructor
          · intro same
            exact ⟨g, rfl, x, rfl, valid.inj same⟩
          · rintro ⟨_, same, _, sameToo, value⟩
            cases same
            cases sameToo
            exact congrArg valid value
      | faulty faults => exact ⟨nofun, nofun⟩
  | faulty faults => cases a <;> exact ⟨nofun, nofun⟩

/-- Where a value stands makes no difference to whether it is valid. -/
theorem within_eq_valid {step : PathStep} {a : Checked α} {result : α} :
    within step a = .valid result ↔ a = .valid result := by
  cases a with
  | valid x => exact Iff.rfl
  | faulty faults => exact ⟨nofun, nofun⟩

/-- Items are valid together iff each is. -/
theorem items_eq_valid {read : Value → Checked α} {index : Nat} {values : List Value}
    {results : List α} : items read index values = .valid results ↔
      List.Forall₂ (fun value result => read value = .valid result) values results := by
  induction values generalizing index results with
  | nil =>
      cases results with
      | nil => exact ⟨fun _ => .nil, fun _ => rfl⟩
      | cons result rest => exact ⟨nofun, nofun⟩
  | cons value rest ih =>
      rw [items, seq_eq_valid, List.forall₂_cons_left_iff]
      constructor
      · rintro ⟨_, first, others, behind, rfl⟩
        obtain ⟨result, head, rfl⟩ := map_eq_valid.mp first
        exact ⟨result, others, within_eq_valid.mp head, ih.mp behind, rfl⟩
      · rintro ⟨result, others, head, behind, rfl⟩
        exact ⟨List.cons result, map_eq_valid.mpr ⟨result, within_eq_valid.mpr head, rfl⟩, others,
          ih.mpr behind, rfl⟩

/-- A result, or at least one fault that stands in its way. -/
def Explained (a : Checked α) : Prop := a ≠ .faulty []

theorem explained_valid (a : α) : Explained (.valid a) := nofun

theorem explained_problem (p : ShapeProblem) : Explained (problem p : Checked α) := nofun

/-- Mapping what is read keeps the faults. -/
theorem Explained.map {f : α → β} {a : Checked α} (explained : a.Explained) :
    Explained (f <$> a) := by
  cases a with
  | valid x => exact explained_valid (f x)
  | faulty faults =>
      intro none
      exact explained (congrArg faulty (faulty.inj none))

/-- Two parts that give faults when they are faulty do so together. -/
theorem Explained.seq {f : Checked (α → β)} {a : Checked α} (first : f.Explained)
    (second : a.Explained) : Explained (f <*> a) := by
  cases f with
  | valid g =>
      cases a with
      | valid x => exact explained_valid (g x)
      | faulty faults =>
          intro none
          exact second (congrArg faulty (faulty.inj none))
  | faulty faults =>
      cases a with
      | valid x =>
          intro none
          exact first (congrArg faulty (faulty.inj none))
      | faulty others =>
          intro none
          obtain ⟨noFirst, -⟩ := List.append_eq_nil_iff.mp (faulty.inj none)
          exact first (congrArg faulty noFirst)

/-- Faults stay faults where they are placed inside something. -/
theorem Explained.within {step : PathStep} {a : Checked α} (explained : a.Explained) :
    Explained (within step a) := by
  cases a with
  | valid x => exact explained_valid x
  | faulty faults =>
      intro none
      exact explained (congrArg faulty (List.map_eq_nil_iff.mp (faulty.inj none)))

/-- Items that give faults when they are faulty do so together. -/
theorem explained_items {read : Value → Checked α} (explained : ∀ value, (read value).Explained)
    (index : Nat) (values : List Value) : (items read index values).Explained := by
  induction values generalizing index with
  | nil => exact explained_valid []
  | cons value rest ih => exact (explained value).within.map.seq (ih (index + 1))

end Checked

namespace Shape

variable {α : Type} {read : Value → Checked α} {members : List (String × Value)}

/-- A record is read from an object, by its members. -/
theorem record_eq_valid {name : String} {read : List (String × Value) → Checked α} {value : Value}
    {result : α} : record name read value = .valid result ↔
      ∃ members, value = .object members ∧ read members = .valid result := by
  cases value with
  | object members =>
      constructor
      · exact fun found => ⟨members, rfl, found⟩
      · rintro ⟨_, same, found⟩
        cases same
        exact found
  | _ => exact ⟨nofun, nofun⟩

/-- A required member is there and valid. -/
theorem required_eq_valid {name : String} {result : α} :
    required name read members = .valid result ↔
      ∃ value, members.lookup name = some value ∧ read value = .valid result := by
  rw [required, Checked.within_eq_valid]
  cases members.lookup name with
  | none => exact ⟨nofun, nofun⟩
  | some value =>
      constructor
      · exact fun found => ⟨value, rfl, found⟩
      · rintro ⟨_, same, found⟩
        cases same
        exact found

/-- A member that may be left out is, or it is valid. -/
theorem optional_eq_valid {name : String} {default result : α} :
    optional name default read members = .valid result ↔
      members.lookup name = none ∧ default = result ∨
        ∃ value, members.lookup name = some value ∧ read value = .valid result := by
  rw [optional]
  cases members.lookup name with
  | none => exact ⟨fun found => Or.inl ⟨rfl, Checked.valid.inj found⟩, fun
      | .inl both => congrArg Checked.valid both.2
      | .inr found => nomatch found⟩
  | some value =>
      dsimp only
      rw [Checked.within_eq_valid]
      constructor
      · exact fun found => Or.inr ⟨value, rfl, found⟩
      · rintro (⟨same, -⟩ | ⟨_, same, found⟩)
        · cases same
        · cases same
          exact found

/-- A list is read item by item, and null as no items. -/
theorem listOrNull_eq_valid {value : Value} {results : List α} :
    listOrNull read value = .valid results ↔
      value = .null ∧ results = [] ∨ ∃ items, value = .list items ∧
        List.Forall₂ (fun item result => read item = .valid result) items results := by
  cases value with
  | null =>
      constructor
      · exact fun found => Or.inl ⟨rfl, (Checked.valid.inj found).symm⟩
      · rintro (⟨-, rfl⟩ | ⟨_, same, -⟩)
        · rfl
        · cases same
  | list items =>
      rw [listOrNull, Checked.items_eq_valid]
      constructor
      · exact fun found => Or.inr ⟨items, rfl, found⟩
      · rintro (⟨same, -⟩ | ⟨_, same, found⟩)
        · cases same
        · cases same
          exact found
  | _ => exact ⟨nofun, nofun⟩

/-- A text is read from a text alone. -/
theorem text_eq_valid {value : Value} {s : String} : text value = .valid s ↔ value = .text s := by
  unfold text
  split
  next found =>
    rw [Checked.valid.injEq, Value.text, Value.scalar.injEq, Scalar.text.injEq]
  next other =>
    constructor
    · exact nofun
    · rintro rfl
      exact absurd rfl (other s)

/-- An integer is read from an integer alone, not from a truth value or a double. -/
theorem exactInteger_eq_valid {value : Value} {n : Int} :
    exactInteger value = .valid n ↔ value = .int n := by
  unfold exactInteger
  split
  next found =>
    rw [Checked.valid.injEq, Value.int, Value.scalar.injEq, Scalar.int.injEq]
  next other =>
    constructor
    · exact nofun
    · rintro rfl
      exact absurd rfl (other n)

/-- Null stands for nothing, and any other value is read. -/
theorem nullable_eq_valid {value : Value} {result : Option α} :
    nullable read value = .valid result ↔
      value = .null ∧ result = none ∨
        value ≠ .null ∧ ∃ found, read value = .valid found ∧ result = some found := by
  unfold nullable
  split
  next =>
    simp only [Checked.valid.injEq, true_and, ne_eq, not_true_eq_false, false_and, or_false]
    exact eq_comm
  next other =>
    rw [Checked.map_eq_valid]
    constructor
    · rintro ⟨found, reads, rfl⟩
      exact Or.inr ⟨other, found, reads, rfl⟩
    · rintro (⟨null, -⟩ | ⟨-, found, reads, rfl⟩)
      · exact absurd null other
      · exact ⟨found, reads, rfl⟩

theorem choice_text_eq_valid {choices : List String} {ofText? : String → Option α} {name : String}
    {result : α} :
    choice choices ofText? (.text name) = .valid result ↔ ofText? name = some result := by
  rw [Value.text, choice]
  cases ofText? name with
  | none => exact ⟨nofun, nofun⟩
  | some found =>
      dsimp only
      rw [Checked.valid.injEq, Option.some.injEq]

/-- A choice is read from a text that names one. -/
theorem choice_eq_valid {choices : List String} {ofText? : String → Option α} {value : Value}
    {result : α} : choice choices ofText? value = .valid result ↔
      ∃ written, value = .text written ∧ ofText? written = some result := by
  constructor
  · intro chosen
    by_cases isText : ∃ written, value = .text written
    · obtain ⟨written, rfl⟩ := isText
      exact ⟨written, rfl, choice_text_eq_valid.mp chosen⟩
    · unfold choice at chosen
      split at chosen
      next written => exact absurd ⟨written, rfl⟩ isText
      next => cases chosen
  · rintro ⟨written, rfl, found⟩
    exact choice_text_eq_valid.mpr found

section Explained

open Checked

/-- A value that is no record gives a fault. -/
theorem explained_record {name : String} {read : List (String × Value) → Checked α}
    (explained : ∀ members, (read members).Explained) (value : Value) :
    (record name read value).Explained := by
  unfold record
  split
  next members => exact explained members
  next => exact explained_problem _

variable (explained : ∀ value, (read value).Explained)

include explained

/-- A required member that is missing gives a fault. -/
theorem explained_required (name : String) (members : List (String × Value)) :
    (required name read members).Explained := by
  unfold required
  apply Explained.within
  split
  next value _ => exact explained value
  next => exact explained_problem _

/-- An optional member gives a fault only if it is there and faulty. -/
theorem explained_optional (name : String) (default : α) (members : List (String × Value)) :
    (optional name default read members).Explained := by
  unfold optional
  split
  next value _ => exact (explained value).within
  next => exact explained_valid default

/-- A value that may be null gives a fault where another one would. -/
theorem explained_nullable (value : Value) : (nullable read value).Explained := by
  unfold nullable
  split
  next => exact explained_valid none
  next => exact (explained value).map

/-- A value that is no list and not null gives a fault. -/
theorem explained_listOrNull (value : Value) : (listOrNull read value).Explained := by
  unfold listOrNull
  split
  next => exact explained_valid []
  next items => exact explained_items explained 0 items
  next => exact explained_problem _

omit explained

theorem explained_text (value : Value) : (text value).Explained := by
  unfold text
  split
  next s => exact explained_valid s
  next => exact explained_problem _

theorem explained_exactInteger (value : Value) : (exactInteger value).Explained := by
  unfold exactInteger
  split
  next n => exact explained_valid n
  next => exact explained_problem _

/-- A value that names no choice gives a fault. -/
theorem explained_choice (choices : List String) (ofText? : String → Option α) (value : Value) :
    (choice choices ofText? value).Explained := by
  unfold choice
  split
  next s =>
    split
    next a _ => exact explained_valid a
    next => exact explained_problem _
  next => exact explained_problem _

end Explained

end Shape

end Reporting
