import Mathlib.Logic.Relation
import Reporting.Cache.Key
import Reporting.Proofs.Report.Stored
import Reporting.Proofs.Text.Keyword

/-!
# Reading reports again

The plain form of a report has every member present, its keywords as they were read, and the values
of its filters as they are. Where every keyword is its own keyword the plain form describes the
report itself and no other (`Normal.describes_toValue`), and so it is for every report that was
read. A report may therefore be stored and read back any number of times without changing its cache
key or what it compiles to (`Report.rereading_keeps`).
-/

namespace Reporting

/-- A keyword that was read from a member is its own keyword. -/
theorem IsKeyword.keyword_eq {member : Option Value} {keyword : String}
    (isKeyword : IsKeyword member keyword) : Text.keyword keyword = keyword := by
  obtain ⟨written, -, rfl⟩ := isKeyword
  exact Text.keyword_keyword written

/-- A list is meant by the values of its items. -/
theorem ListOf.map_toValue {α : Type} {means : Value → α → Prop} {toValue : α → Value}
    {meant : List α} (each : ∀ a ∈ meant, means (toValue a) a) :
    ListOf means (some (.list (meant.map toValue))) meant :=
  .list (List.forall₂_map_left_iff.mpr (List.forall₂_same.mpr each))

/-- Nothing is written as null. -/
theorem MayBeNull.getD_null {α : Type} {means : Value → α → Prop} (write : α → Value)
    (writes : ∀ a, means (write a) a) (held : Option α) :
    MayBeNull means (some ((held.map write).getD .null)) held := by
  cases held with
  | none => exact .null
  | some a => exact .present (writes a)

theorem mayBeNull_label (label : Option String) :
    MayBeNull Value.IsText (some ((label.map Value.text).getD .null)) label :=
  .getD_null Value.text (fun _ => rfl) label

/-- The keyword of a direction is its own keyword. -/
theorem Direction.keyword_keyword (direction : Direction) :
    Text.keyword direction.keyword = direction.keyword := by
  cases direction <;> decide +kernel

/-- The plain form of a dimension describes it. -/
theorem Dimension.describes_toValue (d : Dimension) : d.toValue.RecordOf Describes d :=
  ⟨_, rfl, rfl, mayBeNull_label d.label⟩

/-- So does that of a metric whose operation is its own keyword. -/
theorem Metric.describes_toValue {m : Metric} (normal : Text.keyword m.operation = m.operation) :
    m.toValue.RecordOf Describes m :=
  ⟨_, rfl, rfl, ⟨m.operation, rfl, normal⟩, mayBeNull_label m.label⟩

/-- So does that of a filter whose operator is its own keyword. -/
theorem Filter.describes_toValue {f : Filter} (normal : Text.keyword f.operator = f.operator) :
    f.toValue.RecordOf Describes f :=
  ⟨_, rfl, rfl, ⟨f.operator, rfl, normal⟩, rfl⟩

/-- So does that of an entry of the order. -/
theorem SortEntry.describes_toValue (entry : SortEntry) : entry.toValue.RecordOf Describes entry :=
  ⟨_, rfl, rfl, .keyword ⟨entry.direction.keyword, rfl, entry.direction.keyword_keyword⟩⟩

namespace Report

/-- Every operation and operator of the report is its own keyword. -/
structure Normal (report : Report) : Prop where
  operations : ∀ m ∈ report.metrics, Text.keyword m.operation = m.operation
  operators : ∀ f ∈ report.filters, Text.keyword f.operator = f.operator

variable {report restored : Report}

/-- What is described is normal. -/
theorem Describes.normal {members : List (String × Value)} (described : Describes members report) :
    report.Normal := by
  constructor
  · intro m member
    obtain ⟨_, -, _, -, _, -, describes⟩ := described.metrics.exists_of_mem member
    exact describes.operation.keyword_eq
  · intro f member
    obtain ⟨_, -, _, -, _, -, describes⟩ := described.filters.exists_of_mem member
    exact describes.operator.keyword_eq

/-- The plain form of a normal report describes it. -/
theorem Normal.describes_toValue (normal : report.Normal) :
    report.toValue.RecordOf Describes report :=
  ⟨_, rfl,
    .map_toValue fun d _ => d.describes_toValue,
    .map_toValue fun m member => m.describes_toValue (normal.operations m member),
    .map_toValue fun f member => f.describes_toValue (normal.operators f member),
    .map_toValue fun entry _ => entry.describes_toValue,
    .getD_null Value.int (fun _ => rfl) report.limit⟩

/-- A report that was read is normal. -/
theorem normal_of_ofValue {value : Value} (read : ofValue value = .ok report) : report.Normal := by
  obtain ⟨_, -, described⟩ := ofValue_eq_ok_iff.mp read
  exact described.normal

/-- A normal report is read from its plain form. -/
theorem Normal.ofValue_toValue (normal : report.Normal) : ofValue report.toValue = .ok report :=
  ofValue_eq_ok_iff.mpr normal.describes_toValue

/-- A normal report is read from every document that stands for its plain form. -/
theorem Normal.ofDocument (normal : report.Normal) {depth : Nat} {document : Value}
    (yields : document.Yields depth report.toValue) :
    Report.ofDocument depth document = .ok report :=
  ofDocument_eq_ok_iff.mpr ⟨_, yields, normal.describes_toValue⟩

/-- A report is stored as a document that stands for its plain form, and another is read back. -/
def RestoredAs (report restored : Report) : Prop :=
  ∃ depth document, document.Yields depth report.toValue ∧
    Report.ofDocument depth document = .ok restored

/-- A normal report can be stored, as its plain form if nothing else. -/
theorem Normal.restoredAs_self (normal : report.Normal) : report.RestoredAs report := by
  have noText : ∀ text, report.toValue ≠ .text text := nofun
  have yields : report.toValue.Yields 0 report.toValue :=
    ⟨Value.not_overruns_of_noText noText, .itself noText⟩
  exact ⟨0, report.toValue, yields, normal.ofDocument yields⟩

/-- What is read back is what was stored. -/
theorem Normal.eq_of_restoredAs (normal : report.Normal) (stored : report.RestoredAs restored) :
    restored = report := by
  obtain ⟨depth, document, yields, read⟩ := stored
  exact Except.ok.inj (read.symm.trans (normal.ofDocument yields))

/-- However often a normal report is stored and read back, it stays as it is. -/
theorem Normal.eq_of_reflTransGen (normal : report.Normal)
    (often : Relation.ReflTransGen RestoredAs report restored) : restored = report := by
  induction often with
  | refl => rfl
  | tail _ last ih =>
      subst ih
      exact normal.eq_of_restoredAs last

/-- A report that was read is read from its plain form as it is, with the keyword of every text its
own keyword and every direction read from its keyword; the same holds of each document that stands
for the plain form. It can be stored, and stored and read back any number of times it keeps its
cache key on every table and what every schema compiles it to. -/
theorem rereading_keeps {value : Value} (read : ofValue value = .ok report) :
    ofValue report.toValue = .ok report ∧
      (∀ text, Text.keyword (Text.keyword text) = Text.keyword text) ∧
      (∀ m ∈ report.metrics, Text.keyword m.operation = m.operation) ∧
      (∀ f ∈ report.filters, Text.keyword f.operator = f.operator) ∧
      (∀ direction : Direction,
        Direction.ofKeyword? (Text.keyword direction.keyword) = some direction) ∧
      (∀ depth document, document.Yields depth report.toValue →
        Report.ofDocument depth document = .ok report) ∧
      report.RestoredAs report ∧
      ∀ restored, Relation.ReflTransGen RestoredAs report restored →
        ∀ table, cacheKey table restored = cacheKey table report ∧
          ∀ schema : Schema, schema.compile table restored = schema.compile table report := by
  have normal := normal_of_ofValue read
  refine ⟨normal.ofValue_toValue, Text.keyword_keyword, normal.operations, normal.operators,
    fun direction => ?_, fun _ _ => normal.ofDocument, normal.restoredAs_self,
    fun restored often table => ?_⟩
  · rw [direction.keyword_keyword]
    exact Direction.ofKeyword?_keyword direction
  · rw [normal.eq_of_reflTransGen often]
    exact ⟨rfl, fun _ => rfl⟩

/-- A document with a ligature, a sharp s and blanks of several kinds in its keywords. -/
def blankDocument : Value :=
  .object [
    ("metrics", .list [.object [("field", .text "id"), ("operation", .text " ﬁrst\t\n maß ")]]),
    ("filters", .list [.object [("field", .text "status"), ("operator", .text "Is\u2003 null")]]),
    ("sort", .list [.object [("field", .text "id"), ("direction", .text "\u00a0desc")]]),
    ("dimensions", .null)]

/-- The report that such a document describes. -/
def blankReport : Report where
  metrics := [⟨"id", "FIRST MASS", none⟩]
  filters := [⟨"status", "IS NULL", .null⟩]
  sort := [⟨"id", .descending⟩]

/-- Keywords in odd spellings are read once and for all. -/
theorem rereading_of_blanks :
    ofValue blankDocument = .ok blankReport ∧ ofValue blankReport.toValue = .ok blankReport := by
  have read : ofValue blankDocument = .ok blankReport := rfl
  exact ⟨read, (rereading_keeps read).1⟩

end Report

end Reporting
