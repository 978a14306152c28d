import Reporting.Proofs.Report.Reading
import Reporting.Report.Compile

/-!
# The documents of reports

`Report.Describes` states, member by member, which objects describe a report and which report that
is, without saying how one is read. A report is read from exactly the documents that describe one,
and whatever else is read is malformed, with at least one fault (`Report.ofValue_decides`).
-/

namespace Reporting

section Members

variable {α : Type}

/-- An object whose members describe a record. -/
def Value.RecordOf (describes : List (String × Value) → α → Prop) (value : Value) (record : α) :
    Prop :=
  ∃ members, value = .object members ∧ describes members record

def Value.IsText (value : Value) (s : String) : Prop := value = .text s

/-- An integer is told from a truth value, a double and a text. -/
def Value.IsInteger (value : Value) (n : Int) : Prop := value = .int n

/-- Null is no text. -/
theorem Value.not_isText_null (s : String) : ¬ Value.null.IsText s := by
  rw [IsText]
  exact nofun

/-- Null is no integer. -/
theorem Value.not_isInteger_null (n : Int) : ¬ Value.null.IsInteger n := by
  rw [IsInteger]
  exact nofun

/-- A text is read from the texts. -/
theorem Shape.text_iff (value : Value) (s : String) :
    Shape.text value = .valid s ↔ value.IsText s :=
  text_eq_valid

/-- An integer is read from the integers. -/
theorem Shape.exactInteger_iff (value : Value) (n : Int) :
    Shape.exactInteger value = .valid n ↔ value.IsInteger n :=
  exactInteger_eq_valid

/-- A member that may be left out or null. -/
inductive MayBeNull (means : Value → α → Prop) : Option Value → Option α → Prop
  | absent : MayBeNull means none none
  | null : MayBeNull means (some .null) none
  | present {value : Value} {meant : α} (holds : means value meant) :
      MayBeNull means (some value) (some meant)

/-- A member that is a list; left out or null it stands for the empty one. -/
inductive ListOf (means : Value → α → Prop) : Option Value → List α → Prop
  | absent : ListOf means none []
  | null : ListOf means (some .null) []
  | list {items : List Value} {meant : List α} (each : List.Forall₂ means items meant) :
      ListOf means (some (.list items)) meant

/-- What is meant by the items of a list is meant by one of them. -/
theorem ListOf.exists_of_mem {means : Value → α → Prop} {member : Option Value} {results : List α}
    (listOf : ListOf means member results) {result : α} (inside : result ∈ results) :
    ∃ items, member = some (.list items) ∧ ∃ item ∈ items, means item result := by
  cases listOf with
  | absent | null => exact absurd inside List.not_mem_nil
  | list each => exact ⟨_, rfl, Outcome.exists_of_mem_right each inside⟩

/-- Something that is meant is meant by a member. -/
theorem MayBeNull.exists_of_some {means : Value → α → Prop} {member : Option Value}
    {result : Option α} (mayBeNull : MayBeNull means member result) {meant : α}
    (given : result = some meant) : ∃ value, member = some value ∧ means value meant := by
  cases mayBeNull with
  | absent | null => cases given
  | present holds => exact ⟨_, rfl, Option.some.inj given ▸ holds⟩

/-- A member that is a keyword, in any case and spacing. -/
def IsKeyword (member : Option Value) (keyword : String) : Prop :=
  ∃ written, member = some (.text written) ∧ Text.keyword written = keyword

end Members

/-- A direction is left out, or the keyword of one. -/
inductive Direction.WrittenAs : Option Value → Direction → Prop
  | absent : WrittenAs none .ascending
  | keyword {member : Option Value} {direction : Direction}
      (isKeyword : IsKeyword member direction.keyword) : WrittenAs member direction

/-- The members of an object that describe a dimension. -/
structure Dimension.Describes (members : List (String × Value)) (d : Dimension) : Prop where
  field : members.lookup "field" = some (.text d.field)
  label : MayBeNull Value.IsText (members.lookup "alias") d.label

/-- The members of an object that describe a metric. -/
structure Metric.Describes (members : List (String × Value)) (m : Metric) : Prop where
  field : members.lookup "field" = some (.text m.field)
  operation : IsKeyword (members.lookup "operation") m.operation
  label : MayBeNull Value.IsText (members.lookup "alias") m.label

/-- The members of an object that describe a filter; its value may be any and is kept. -/
structure Filter.Describes (members : List (String × Value)) (f : Filter) : Prop where
  field : members.lookup "field" = some (.text f.field)
  operator : IsKeyword (members.lookup "operator") f.operator
  value : (members.lookup "value").getD .null = f.value

/-- The members of an object that describe an entry of the order. -/
structure SortEntry.Describes (members : List (String × Value)) (entry : SortEntry) : Prop where
  field : members.lookup "field" = some (.text entry.field)
  direction : Direction.WrittenAs (members.lookup "direction") entry.direction

/-- The members of an object that describe a report. -/
structure Report.Describes (members : List (String × Value)) (report : Report) : Prop where
  dimensions : ListOf (Value.RecordOf Dimension.Describes) (members.lookup "dimensions")
    report.dimensions
  metrics : ListOf (Value.RecordOf Metric.Describes) (members.lookup "metrics") report.metrics
  filters : ListOf (Value.RecordOf Filter.Describes) (members.lookup "filters") report.filters
  sort : ListOf (Value.RecordOf SortEntry.Describes) (members.lookup "sort") report.sort
  limit : MayBeNull Value.IsInteger (members.lookup "limit") report.limit

section Members

variable {α : Type} {read : Value → Checked α} {means : Value → α → Prop} {name : String}
  {members : List (String × Value)}

/-- A required text is a member that is one. -/
theorem requiredText_iff {s : String} :
    Shape.required name Shape.text members = .valid s ↔ members.lookup name = some (.text s) := by
  simp only [Shape.required_eq_valid, Shape.text_eq_valid, exists_eq_right]

/-- A keyword is read from a text in any case and spacing. -/
theorem keyword_eq_valid {value : Value} {keyword : String} :
    Shape.keyword value = .valid keyword ↔
      ∃ written, value = .text written ∧ Text.keyword written = keyword := by
  simp only [Shape.keyword, Checked.map_eq_valid, Shape.text_eq_valid]

/-- A required keyword is a member that is one. -/
theorem requiredKeyword_iff {keyword : String} :
    Shape.required name Shape.keyword members = .valid keyword ↔
      IsKeyword (members.lookup name) keyword := by
  rw [Shape.required_eq_valid, IsKeyword]
  constructor
  · rintro ⟨value, found, isKeyword⟩
    obtain ⟨written, rfl, same⟩ := keyword_eq_valid.mp isKeyword
    exact ⟨written, found, same⟩
  · rintro ⟨written, found, same⟩
    exact ⟨.text written, found, keyword_eq_valid.mpr ⟨written, rfl, same⟩⟩

variable (reads : ∀ value meant, read value = .valid meant ↔ means value meant)

include reads

/-- A member that may be left out or null is read as it is described. -/
theorem optionalNullable_iff (notNull : ∀ meant, ¬ means .null meant) {result : Option α} :
    Shape.optional name none (Shape.nullable read) members = .valid result ↔
      MayBeNull means (members.lookup name) result := by
  rw [Shape.optional_eq_valid]
  constructor
  · rintro (⟨missing, rfl⟩ | ⟨value, found, given⟩)
    · rw [missing]
      exact .absent
    · rw [found]
      rcases Shape.nullable_eq_valid.mp given with ⟨rfl, rfl⟩ | ⟨-, meant, present, rfl⟩
      · exact .null
      · exact .present ((reads value meant).mp present)
  · intro described
    cases found : members.lookup name with
    | none =>
        rw [found] at described
        cases described
        exact Or.inl ⟨rfl, rfl⟩
    | some value =>
        refine Or.inr ⟨value, rfl, Shape.nullable_eq_valid.mpr ?_⟩
        rw [found] at described
        cases described with
        | null => exact Or.inl ⟨rfl, rfl⟩
        | @present _ meant holds =>
            refine Or.inr ⟨?_, meant, (reads value meant).mpr holds, rfl⟩
            rintro rfl
            exact notNull meant holds

/-- A list that may be left out or null is read as it is described. -/
theorem optionalList_iff {results : List α} :
    Shape.optional name [] (Shape.listOrNull read) members = .valid results ↔
      ListOf means (members.lookup name) results := by
  have same : (fun value result => read value = .valid result) = means := by
    funext value meant
    exact propext (reads value meant)
  rw [Shape.optional_eq_valid]
  simp only [Shape.listOrNull_eq_valid, same]
  constructor
  · rintro (⟨missing, rfl⟩ | ⟨value, found, ⟨rfl, rfl⟩ | ⟨items, rfl, each⟩⟩)
    · rw [missing]
      exact .absent
    · rw [found]
      exact .null
    · rw [found]
      exact .list each
  · intro described
    cases found : members.lookup name with
    | none =>
        rw [found] at described
        cases described
        exact Or.inl ⟨rfl, rfl⟩
    | some value =>
        rw [found] at described
        cases described with
        | null => exact Or.inr ⟨.null, rfl, Or.inl ⟨rfl, rfl⟩⟩
        | list each => exact Or.inr ⟨_, rfl, Or.inr ⟨_, rfl, each⟩⟩

end Members

/-- A label is read as it is described. -/
theorem label_iff {members : List (String × Value)} {label : Option String} :
    Shape.optional "alias" none (Shape.nullable Shape.text) members = .valid label ↔
      MayBeNull Value.IsText (members.lookup "alias") label :=
  optionalNullable_iff Shape.text_iff Value.not_isText_null

/-- A dimension is read from the objects that describe it. -/
theorem Dimension.read_iff (value : Value) (d : Dimension) :
    Dimension.read value = .valid d ↔ value.RecordOf Dimension.Describes d := by
  rw [Dimension.read, Shape.record_eq_valid, Value.RecordOf]
  refine exists_congr fun members => and_congr_right fun _ => ?_
  simp only [Checked.seq_eq_valid, Checked.map_eq_valid, requiredText_iff, label_iff]
  constructor
  · rintro ⟨_, ⟨field, found, rfl⟩, label, given, rfl⟩
    exact ⟨found, given⟩
  · rintro ⟨found, given⟩
    exact ⟨_, ⟨_, found, rfl⟩, _, given, rfl⟩

/-- A metric is read from the objects that describe it. -/
theorem Metric.read_iff (value : Value) (m : Metric) :
    Metric.read value = .valid m ↔ value.RecordOf Metric.Describes m := by
  rw [Metric.read, Shape.record_eq_valid, Value.RecordOf]
  refine exists_congr fun members => and_congr_right fun _ => ?_
  simp only [Checked.seq_eq_valid, Checked.map_eq_valid, requiredText_iff, requiredKeyword_iff,
    label_iff]
  constructor
  · rintro ⟨_, ⟨_, ⟨field, found, rfl⟩, operation, isKeyword, rfl⟩, label, given, rfl⟩
    exact ⟨found, isKeyword, given⟩
  · rintro ⟨found, isKeyword, given⟩
    exact ⟨_, ⟨_, ⟨_, found, rfl⟩, _, isKeyword, rfl⟩, _, given, rfl⟩

/-- The value of a filter is kept, and null where there is none. -/
theorem optionalValue_iff {members : List (String × Value)} {value : Value} :
    Shape.optional "value" .null .valid members = .valid value ↔
      (members.lookup "value").getD .null = value := by
  rw [Shape.optional]
  cases members.lookup "value" with
  | none => exact ⟨Checked.valid.inj, congrArg Checked.valid⟩
  | some held => exact ⟨Checked.valid.inj, congrArg Checked.valid⟩

/-- A filter is read from the objects that describe it. -/
theorem Filter.read_iff (value : Value) (f : Filter) :
    Filter.read value = .valid f ↔ value.RecordOf Filter.Describes f := by
  rw [Filter.read_eq_valid, Value.RecordOf]
  refine exists_congr fun members => and_congr_right fun _ => ?_
  rw [requiredText_iff, requiredKeyword_iff, optionalValue_iff]
  exact ⟨fun ⟨found, isKeyword, kept⟩ => ⟨found, isKeyword, kept⟩,
    fun described => ⟨described.field, described.operator, described.value⟩⟩

/-- A direction is found by its keyword alone. -/
theorem Direction.ofKeyword?_eq_some {keyword : String} {direction : Direction} :
    Direction.ofKeyword? keyword = some direction ↔ keyword = direction.keyword := by
  constructor
  · intro found
    unfold Direction.ofKeyword? at found
    split at found
    next same => exact Option.some.inj found ▸ beq_iff_eq.mp same
    next =>
      split at found
      next same => exact Option.some.inj found ▸ beq_iff_eq.mp same
      next => cases found
  · rintro rfl
    exact Direction.ofKeyword?_keyword direction

/-- A direction is read as it is described. -/
theorem direction_iff {members : List (String × Value)} {direction : Direction} :
    Shape.optional "direction" .ascending SortEntry.readDirection members = .valid direction ↔
      Direction.WrittenAs (members.lookup "direction") direction := by
  rw [Shape.optional_eq_valid]
  simp only [SortEntry.readDirection, Shape.choice_eq_valid, Direction.ofKeyword?_eq_some]
  constructor
  · rintro (⟨missing, rfl⟩ | ⟨value, found, written, rfl, same⟩)
    · rw [missing]
      exact .absent
    · exact .keyword ⟨written, found, same⟩
  · intro described
    cases found : members.lookup "direction" with
    | none =>
        rw [found] at described
        cases described with
        | absent => exact Or.inl ⟨rfl, rfl⟩
        | keyword isKeyword =>
            obtain ⟨written, missing, -⟩ := isKeyword
            cases missing
    | some value =>
        rw [found] at described
        cases described with
        | keyword isKeyword =>
            obtain ⟨written, same, read⟩ := isKeyword
            exact Or.inr ⟨value, rfl, written, Option.some.inj same, read⟩

/-- An entry of the order is read from the objects that describe it. -/
theorem SortEntry.read_iff (value : Value) (entry : SortEntry) :
    SortEntry.read value = .valid entry ↔ value.RecordOf SortEntry.Describes entry := by
  rw [SortEntry.read, Shape.record_eq_valid, Value.RecordOf]
  refine exists_congr fun members => and_congr_right fun _ => ?_
  simp only [Checked.seq_eq_valid, Checked.map_eq_valid, requiredText_iff, direction_iff]
  constructor
  · rintro ⟨_, ⟨field, found, rfl⟩, direction, written, rfl⟩
    exact ⟨found, written⟩
  · rintro ⟨found, written⟩
    exact ⟨_, ⟨_, found, rfl⟩, _, written, rfl⟩

/-- A report is read from exactly the documents that describe it. -/
theorem Report.read_iff (value : Value) (report : Report) :
    Report.read value = .valid report ↔ value.RecordOf Report.Describes report := by
  rw [Report.read_eq_valid, Value.RecordOf]
  refine exists_congr fun members => and_congr_right fun _ => ?_
  rw [optionalList_iff Dimension.read_iff, optionalList_iff Metric.read_iff,
    optionalList_iff Filter.read_iff, optionalList_iff SortEntry.read_iff,
    optionalNullable_iff Shape.exactInteger_iff Value.not_isInteger_null]
  exact ⟨fun ⟨dimensions, metrics, filters, sort, limit⟩ =>
      ⟨dimensions, metrics, filters, sort, limit⟩,
    fun ⟨dimensions, metrics, filters, sort, limit⟩ =>
      ⟨dimensions, metrics, filters, sort, limit⟩⟩

section Explained

open Shape

theorem explained_keyword (value : Value) : (keyword value).Explained :=
  (explained_text value).map

theorem explained_label (members : List (String × Value)) :
    (optional "alias" none (nullable text) members).Explained :=
  explained_optional (explained_nullable explained_text) _ _ members

theorem Dimension.explained_read (value : Value) : (Dimension.read value).Explained :=
  explained_record (fun members =>
    (explained_required explained_text "field" members).map.seq (explained_label members)) value

theorem Metric.explained_read (value : Value) : (Metric.read value).Explained :=
  explained_record (fun members =>
    ((explained_required explained_text "field" members).map.seq
      (explained_required explained_keyword "operation" members)).seq
        (explained_label members)) value

theorem Filter.explained_read (value : Value) : (Filter.read value).Explained :=
  explained_record (fun members =>
    ((explained_required explained_text "field" members).map.seq
      (explained_required explained_keyword "operator" members)).seq
        (explained_optional Checked.explained_valid "value" .null members)) value

theorem SortEntry.explained_readDirection (value : Value) : (readDirection value).Explained :=
  explained_choice _ _ value

theorem SortEntry.explained_read (value : Value) : (SortEntry.read value).Explained :=
  explained_record (fun members =>
    (explained_required explained_text "field" members).map.seq
      (explained_optional explained_readDirection "direction" _ members)) value

/-- A value that is no report gives at least one fault. -/
theorem Report.explained_read (value : Value) : (Report.read value).Explained :=
  explained_record (fun members =>
    ((((explained_optional (explained_listOrNull Dimension.explained_read) _ _ members).map.seq
      (explained_optional (explained_listOrNull Metric.explained_read) _ _ members)).seq
        (explained_optional (explained_listOrNull Filter.explained_read) _ _ members)).seq
          (explained_optional (explained_listOrNull SortEntry.explained_read) _ _ members)).seq
            (explained_optional (explained_nullable explained_exactInteger) _ _ members)) value

end Explained

/-- A value is taken for a report iff it describes it. -/
theorem Report.ofValue_eq_ok_iff {value : Value} {report : Report} :
    Report.ofValue value = .ok report ↔ value.RecordOf Report.Describes report := by
  rw [← Report.read_iff, Report.ofValue]
  cases Report.read value with
  | valid found => rw [Except.ok.injEq, Checked.valid.injEq]
  | faulty faults => exact ⟨nofun, nofun⟩

/-- A value is taken for a report iff it is an object that describes one, and for that report; any
other value is malformed, with at least one fault, and no other reason is ever given. -/
theorem Report.ofValue_decides (value : Value) :
    (∀ report, Report.ofValue value = .ok report ↔ value.RecordOf Report.Describes report) ∧
      ((∃ faults, faults ≠ [] ∧ Report.ofValue value = .error (.malformed faults)) ↔
        ¬ ∃ report, value.RecordOf Report.Describes report) ∧
      ∀ rejection, Report.ofValue value = .error rejection →
        ∃ faults, faults ≠ [] ∧ rejection = .malformed faults := by
  have explained := Report.explained_read value
  refine ⟨fun report => ofValue_eq_ok_iff, ?_⟩
  simp only [← Report.read_iff, Report.ofValue]
  cases read : Report.read value with
  | valid report => exact ⟨⟨nofun, fun undescribed => absurd ⟨report, rfl⟩ undescribed⟩, nofun⟩
  | faulty faults =>
      rw [read] at explained
      have some : faults ≠ [] := fun none => explained (congrArg Checked.faulty none)
      refine ⟨⟨fun _ => nofun, fun _ => ⟨faults, some, rfl⟩⟩, ?_⟩
      intro rejection refused
      exact ⟨faults, some, (Except.error.inj refused).symm⟩

end Reporting
