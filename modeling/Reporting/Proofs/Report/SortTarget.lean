import Mathlib.Order.Bounds.Basic
import Reporting.Proofs.Report.Columns

/-!
# What the order names

An entry of the order goes by a field or a label, and means the first item of the report that has
it, dimensions before metrics (`Report.sortTarget?_eq_some_iff`). Its position is the least of the
positions of such items (`Report.sortTarget?_isLeast`), and the select list shows it at the position
where it stands among all items (`Report.exists_selection_of_isFirst`).
-/

namespace Reporting.Report

open Sql

/-- The field of an item. -/
def itemField : Dimension ⊕ Metric → String
  | .inl d => d.field
  | .inr m => m.field

/-- The label that an item was given. -/
def itemLabel : Dimension ⊕ Metric → Option String
  | .inl d => d.label
  | .inr m => m.label

/-- A name means the items with this field, and those with this label unless it is empty. -/
def Means (name : String) (item : Dimension ⊕ Metric) : Prop :=
  itemField item = name ∨ (itemLabel item = some name ∧ name ≠ "")

instance (name : String) (item : Dimension ⊕ Metric) : Decidable (Means name item) :=
  inferInstanceAs (Decidable (_ ∨ _))

variable {report : Report} {name : String} {target : SortTarget}

/-- An entry names an item by its field or its label. -/
theorem namesItem_eq_true {item : Dimension ⊕ Metric} :
    namesItem name (itemField item) (itemLabel item) = true ↔ Means name item := by
  simp only [namesItem, Means, Bool.or_eq_true, beq_iff_eq, givenLabel?_eq_some,
    eq_comm (a := name)]

/-- The outputs of a report are those of its items. -/
theorem outputs_eq_map_items (report : Report) :
    report.outputs = report.items.map fun item => (itemField item, itemName item) := by
  simp only [outputs, items, List.map_append, List.map_map]
  rfl

/-- The first item that a name means; `position` is that of the first of the list. -/
def findItem? (name : String) : (position : Nat) → List (Dimension ⊕ Metric) → Option SortTarget
  | _, [] => none
  | position, item :: rest =>
    if namesItem name (itemField item) (itemLabel item) then
      some ⟨position, itemLabel item, item.isRight⟩
    else findItem? name (position + 1) rest

/-- Dimensions are searched like items. -/
theorem findDimension?_eq (position : Nat) (dimensions : List Dimension) :
    findDimension? name position dimensions = findItem? name position (dimensions.map .inl) := by
  induction dimensions generalizing position with
  | nil => rfl
  | cons d rest ih => simp only [findDimension?, List.map_cons, findItem?, ih]; rfl

/-- Metrics are searched like items. -/
theorem findMetric?_eq (position : Nat) (metrics : List Metric) :
    findMetric? name position metrics = findItem? name position (metrics.map .inr) := by
  induction metrics generalizing position with
  | nil => rfl
  | cons m rest ih => simp only [findMetric?, List.map_cons, findItem?, ih]; rfl

/-- What is not found in front is searched behind, with its position counted on. -/
theorem findItem?_append (position : Nat) (front back : List (Dimension ⊕ Metric)) :
    findItem? name position (front ++ back) =
      (findItem? name position front).orElse fun _ =>
        findItem? name (position + front.length) back := by
  induction front generalizing position with
  | nil => rfl
  | cons item rest ih =>
      simp only [List.cons_append, findItem?]
      split
      · rfl
      · rw [ih, List.length_cons, Nat.add_right_comm, Nat.add_assoc]

/-- Dimensions and metrics are searched as one list of items. -/
theorem sortTarget?_eq (report : Report) (name : String) :
    report.sortTarget? name = findItem? name 1 report.items := by
  rw [sortTarget?, findDimension?_eq, findMetric?_eq, items, findItem?_append, List.length_map,
    Nat.add_comm 1]

/-- What is found is the first item that is meant, with its position. -/
theorem findItem?_eq_some {position : Nat} {items : List (Dimension ⊕ Metric)} :
    findItem? name position items = some target ↔
      ∃ before item, IsFirst (Means name) items before item ∧
        target = ⟨position + before.length, itemLabel item, item.isRight⟩ := by
  induction items generalizing position with
  | nil => simp only [findItem?, reduceCtorEq, not_isFirst_nil, false_and, exists_false]
  | cons item rest ih =>
      simp only [findItem?, namesItem_eq_true]
      by_cases meant : Means name item
      · simp only [meant, ↓reduceIte, isFirst_cons_of_holds meant, Option.some.injEq]
        constructor
        · intro same
          exact ⟨[], item, ⟨rfl, rfl⟩, same.symm⟩
        · rintro ⟨_, _, ⟨rfl, rfl⟩, same⟩
          exact same.symm
      · simp only [meant, ↓reduceIte, isFirst_cons_of_not meant, ih]
        constructor
        · rintro ⟨before, other, first, rfl⟩
          refine ⟨item :: before, other, ⟨before, rfl, first⟩, ?_⟩
          rw [List.length_cons, Nat.add_right_comm, Nat.add_assoc]
        · rintro ⟨_, other, ⟨before, rfl, first⟩, rfl⟩
          refine ⟨before, other, first, ?_⟩
          rw [List.length_cons, Nat.add_right_comm, Nat.add_assoc]

/-- What a name of the order means: the first item that goes by it, and its position. -/
theorem sortTarget?_eq_some_iff :
    report.sortTarget? name = some target ↔
      ∃ before item, IsFirst (Means name) report.items before item ∧
        target = ⟨before.length + 1, itemLabel item, item.isRight⟩ := by
  simp only [sortTarget?_eq, findItem?_eq_some, Nat.add_comm 1]

/-- There is a target iff an item is meant. -/
theorem exists_sortTarget? :
    (∃ target, report.sortTarget? name = some target) ↔ ∃ item ∈ report.items, Means name item := by
  constructor
  · rintro ⟨target, found⟩
    obtain ⟨before, item, first, -⟩ := sortTarget?_eq_some_iff.mp found
    exact ⟨item, first.mem, first.holds⟩
  · intro meant
    obtain ⟨before, item, first⟩ := exists_isFirst meant
    exact ⟨_, sortTarget?_eq_some_iff.mpr ⟨before, item, first, rfl⟩⟩

/-- Dimensions stand before metrics. -/
theorem isRight_iff_of_getElem? {i : Nat} {item : Dimension ⊕ Metric}
    (found : report.items[i]? = some item) :
    item.isRight = true ↔ report.dimensions.length ≤ i := by
  rw [items] at found
  by_cases front : i < report.dimensions.length
  · rw [List.getElem?_append_left (by simpa using front), List.getElem?_map] at found
    obtain ⟨d, -, rfl⟩ := Option.map_eq_some_iff.mp found
    simpa using front
  · rw [List.getElem?_append_right (by simpa using front), List.getElem?_map] at found
    obtain ⟨m, -, rfl⟩ := Option.map_eq_some_iff.mp found
    simpa using front

/-- The positions of the items that a name means, counted from one. -/
def positionsOf (report : Report) (name : String) : Set Nat :=
  {position | ∃ index item, report.items[index]? = some item ∧ Means name item ∧
    position = index + 1}

/-- The first item that a name means has the least position, and is a metric if that lies behind
all dimensions. -/
theorem isLeast_of_sortTarget? (found : report.sortTarget? name = some target) :
    IsLeast (report.positionsOf name) target.position ∧
      (∃ item, report.items[target.position - 1]? = some item ∧ target.label = itemLabel item) ∧
      (target.isMetric = true ↔ report.dimensions.length < target.position) := by
  obtain ⟨before, item, first, rfl⟩ := sortTarget?_eq_some_iff.mp found
  have here := first.getElem?_length
  refine ⟨⟨⟨before.length, item, here, first.holds, rfl⟩, ?_⟩, ⟨item, here, rfl⟩, ?_⟩
  · rintro _ ⟨index, other, stands, meant, rfl⟩
    exact Nat.succ_le_succ (first.length_le stands meant)
  · rw [isRight_iff_of_getElem? here, Nat.lt_succ_iff]

/-- The entry of a select list at the position of the item that a name means shows this item. -/
theorem exists_selection_of_isFirst {schema : Schema} {table : String}
    {selections : List Selection} {before : List (Dimension ⊕ Metric)} {item : Dimension ⊕ Metric}
    (shown : List.Forall₂ (ShownAs schema table) report.items selections)
    (first : IsFirst (Means name) report.items before item) :
    ∃ selection, selections[before.length]? = some selection ∧
      ShownAs schema table item selection := by
  have inside : before.length < selections.length := by
    rw [← shown.length_eq]
    exact first.length_lt
  have here : report.items[before.length]? = some item := first.getElem?_length
  have shows := shown.get first.length_lt inside
  refine ⟨selections[before.length], List.getElem?_eq_getElem inside, ?_⟩
  rw [List.getElem?_eq_getElem first.length_lt, Option.some.injEq] at here
  rw [← here]
  exact shows

/-- A name means nothing iff no item has it as field or as label. Otherwise it means the item with
the least position among those that do, under the label of this item, and as a metric iff the
position lies behind the dimensions. -/
theorem sortTarget?_isLeast (report : Report) (name : String) :
    (report.sortTarget? name = none ↔ ∀ item ∈ report.items, ¬ Means name item) ∧
      ∀ target, report.sortTarget? name = some target ↔
        IsLeast (report.positionsOf name) target.position ∧
          (∃ item, report.items[target.position - 1]? = some item ∧
            target.label = itemLabel item) ∧
          (target.isMetric = true ↔ report.dimensions.length < target.position) := by
  constructor
  · rw [← Option.not_isSome_iff_eq_none, Option.isSome_iff_exists, exists_sortTarget?]
    simp only [not_exists, not_and]
  · intro target
    refine ⟨isLeast_of_sortTarget?, ?_⟩
    rintro ⟨least, ⟨item, here, label⟩, metric⟩
    obtain ⟨index, meantItem, stands, meant, -⟩ := least.1
    obtain ⟨other, found⟩ :=
      exists_sortTarget?.mpr ⟨meantItem, List.mem_of_getElem? stands, meant⟩
    -- Nothing but this target has the position, and with it the label and the kind.
    obtain ⟨leastToo, ⟨itemToo, hereToo, labelToo⟩, metricToo⟩ := isLeast_of_sortTarget? found
    have position : target.position = other.position := least.unique leastToo
    rw [position, hereToo, Option.some.injEq] at here
    have sameLabel : target.label = other.label := by rw [label, labelToo, here]
    have sameKind : target.isMetric = other.isMetric := by
      rw [Bool.eq_iff_iff, metric, metricToo, position]
    rw [found, Option.some.injEq, SortTarget.mk.injEq]
    exact ⟨position.symm, sameLabel.symm, sameKind.symm⟩

/-- An empty label names nothing, and a label of a dimension comes before one of a metric. -/
example :
    let report : Report :=
      { dimensions := [⟨"status", some ""⟩, ⟨"id", some "n"⟩],
        metrics := [⟨"id", "COUNT", some "n"⟩, ⟨"total_points", "SUM", none⟩] }
    report.sortTarget? "" = none ∧ report.sortTarget? "n" = some ⟨2, some "n", false⟩ ∧
      report.sortTarget? "total_points" = some ⟨4, none, true⟩ := by
  decide

end Reporting.Report
