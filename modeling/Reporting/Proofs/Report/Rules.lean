import Mathlib.Data.List.Basic
import Reporting.Proofs.Join
import Reporting.Proofs.Report.Binding
import Reporting.Report.Rules

/-!
# What the rules ask for

`Report.Obeys` states the rules of a report one by one, without the order in which they are checked;
`Report.check_eq_ok` says that the check passes exactly the reports that obey them all.
-/

namespace Reporting.Report

open Outcome

variable {schema : Schema} {table : String} {report : Report}

/-- The operation of a metric is known, and only numbers are summed. -/
def MetricAllowed (schema : Schema) (table : String) (metric : Metric) : Prop :=
  ∃ aggregate, metric.aggregate? = some aggregate ∧
    (aggregate = .sum →
      ∃ resolved, schema.resolveField table metric.field = .ok resolved ∧ resolved.numeric = true)

/-- A report of a table that breaks no rule. -/
structure Obeys (schema : Schema) (table : String) (report : Report) : Prop where
  source : schema.isReportable table = true
  shown : report.dimensions ≠ [] ∨ report.metrics ≠ []
  grouped : report.metrics ≠ [] → report.dimensions ≠ []
  fields : ∃ plan, schema.planJoins table report.referencedFields = .ok plan
  metrics : ∀ metric ∈ report.metrics, MetricAllowed schema table metric
  sort : ∀ entry ∈ report.sort, ∃ target, report.sortTarget? entry.field = some target
  bounded : ∀ entry ∈ report.sort, ∀ target, report.sortTarget? entry.field = some target →
    target.isMetric = true → report.isBounded = true
  limit : ∀ n, report.limit = some n → 0 ≤ n ∧ n ≤ greatestLimit
  filters : ∀ filter ∈ report.filters, ∃ test, filter.test = .ok test
  labels : ∀ label ∈ report.labels, Sql.isLabel label.toList = true
  outputs : ∃ names : List String,
    report.outputs.map (·.2) = names.map Except.ok ∧ names.Nodup

/-- A source passes iff it is reportable. -/
theorem checkSource_eq_ok :
    schema.checkSource table = .ok () ↔ schema.isReportable table = true := by
  unfold Schema.checkSource
  split
  next reportable => simp [reportable]
  next other => simp [other]

/-- A report passes if it shows anything. -/
theorem checkNotEmpty_eq_ok :
    report.checkNotEmpty = .ok () ↔ report.dimensions ≠ [] ∨ report.metrics ≠ [] := by
  simp only [checkNotEmpty, ite_error_eq_ok, and_true, Bool.and_eq_true, List.isEmpty_iff,
    not_and_or, ne_eq]

/-- A report passes if its metrics have a dimension beside them. -/
theorem checkGrouping_eq_ok :
    report.checkGrouping = .ok () ↔ (report.metrics ≠ [] → report.dimensions ≠ []) := by
  unfold checkGrouping
  split
  next metric rest dimensions metrics => simp [dimensions, metrics]
  next other =>
    simp only [true_iff]
    intro some none
    obtain ⟨metric, rest, metrics⟩ := List.exists_cons_of_ne_nil some
    exact other metric rest none metrics

/-- The fields pass iff their joins can be planned. -/
theorem checkFields_eq_ok :
    report.checkFields schema table = .ok () ↔
      ∃ plan, schema.planJoins table report.referencedFields = .ok plan := by
  simp only [checkFields, map_eq_ok, and_true]

/-- A metric passes iff it is allowed. -/
theorem checkMetric_eq_ok {metric : Metric} :
    checkMetric schema table metric = .ok () ↔ MetricAllowed schema table metric := by
  unfold checkMetric MetricAllowed
  split
  next unknown => simp [unknown]
  next count => simp [count]
  next sum =>
    simp only [bind_eq_ok, sum, Option.some.injEq, exists_eq_left', forall_const]
    constructor
    · rintro ⟨resolved, found, passed⟩
      split at passed
      next numeric => exact ⟨resolved, found, numeric⟩
      · cases passed
    · rintro ⟨resolved, found, numeric⟩
      exact ⟨resolved, found, if_pos numeric⟩

/-- An entry of the order passes iff it means an item. -/
theorem checkSortEntry_eq_ok {entry : SortEntry} :
    report.checkSortEntry entry = .ok () ↔
      ∃ target, report.sortTarget? entry.field = some target := by
  simp only [checkSortEntry, ite_error_eq_ok, and_true, Option.isNone_iff_eq_none,
    Option.ne_none_iff_exists']

/-- An entry passes iff it means no metric or the report is bounded. -/
theorem checkBound_eq_ok {entry : SortEntry} :
    report.checkBound entry = .ok () ↔
      ∀ target, report.sortTarget? entry.field = some target → target.isMetric = true →
        report.isBounded = true := by
  simp only [checkBound, ite_error_eq_ok, and_true, Bool.and_eq_true, Bool.not_eq_true',
    Option.any_eq_true, not_and, not_exists]
  constructor
  · intro bounded target found metric
    by_contra unbounded
    exact bounded (by simpa using unbounded) target found metric
  · intro bounded unbounded target found metric
    exact absurd (bounded target found metric) (by simp [unbounded])

/-- A limit passes iff it is in its range. -/
theorem checkLimit_eq_ok :
    report.checkLimit = .ok () ↔ ∀ n, report.limit = some n → 0 ≤ n ∧ n ≤ greatestLimit := by
  unfold checkLimit
  split
  next absent => simp [absent]
  next n given =>
    simp only [ite_error_eq_ok, and_true, given, Option.some.injEq, forall_eq', not_or,
      Int.not_lt]

/-- A filter passes iff it gives a test. -/
theorem checkFilter_eq_ok {f : Filter} : checkFilter f = .ok () ↔ ∃ test, f.test = .ok test := by
  simp only [checkFilter, map_eq_ok, and_true]

/-- A label passes iff it is one. -/
theorem checkLabel_eq_ok {label : String} :
    checkLabel label = .ok () ↔ Sql.isLabel label.toList = true := by
  simp only [checkLabel, map_eq_ok, and_true, Sql.vetLabel_eq_ok, exists_and_left,
    exists_eq, and_true]

/-- Columns pass iff each has a name, no two the same one and none a name seen before. -/
theorem checkOutputs_eq_ok {seen : List (String × String)}
    {items : List (String × Except Rejection String)} :
    checkOutputs seen items = .ok () ↔ ∃ names : List String,
      items.map (·.2) = names.map Except.ok ∧ names.Nodup ∧
        ∀ name ∈ names, seen.lookup name = none := by
  induction items generalizing seen with
  | nil =>
      simp only [checkOutputs, List.map_nil, true_iff]
      exact ⟨[], rfl, List.nodup_nil, by simp⟩
  | cons item rest ih =>
      obtain ⟨field, outcome⟩ := item
      simp only [checkOutputs, bind_eq_ok, List.map_cons]
      constructor
      · rintro ⟨name, rfl, passed⟩
        split at passed
        · cases passed
        next fresh =>
          obtain ⟨names, same, nodup, unseen⟩ := ih.mp passed
          have apart : ∀ other ∈ names, other ≠ name ∧ seen.lookup other = none := by
            intro other member
            have missing := unseen other member
            rw [List.lookup_cons] at missing
            split at missing
            · cases missing
            next different => exact ⟨by simpa using different, missing⟩
          refine ⟨name :: names, by rw [same]; rfl, ?_, ?_⟩
          · exact List.nodup_cons.mpr ⟨fun member => (apart name member).1 rfl, nodup⟩
          · intro other member
            rcases List.mem_cons.mp member with rfl | later
            · exact fresh
            · exact (apart other later).2
      · rintro ⟨names, same, nodup, unseen⟩
        cases names with
        | nil => cases same
        | cons name names =>
            rw [List.map_cons, List.cons.injEq] at same
            obtain ⟨distinct, nodup⟩ := List.nodup_cons.mp nodup
            refine ⟨name, same.1, ?_⟩
            rw [unseen name List.mem_cons_self]
            refine ih.mpr ⟨names, same.2, nodup, ?_⟩
            intro other member
            have different : other ≠ name := by
              rintro rfl
              exact distinct member
            rw [List.lookup_cons, beq_false_of_ne different]
            exact unseen other (List.mem_cons_of_mem name member)

/-- Names that are seen, the latest first. -/
theorem lookup_seen_eq_some {ι : Type} {field name : ι → String} {done : List ι}
    (nodup : (done.map name).Nodup) {other value : String} :
    (done.reverse.map fun item => (name item, field item)).lookup other = some value ↔
      ∃ first ∈ done, name first = other ∧ field first = value := by
  constructor
  · intro found
    obtain ⟨before, after, split, -⟩ := List.lookup_eq_some_iff.mp found
    have member : (other, value) ∈ done.reverse.map fun item => (name item, field item) := by
      rw [split]
      simp
    obtain ⟨first, listed, same⟩ := List.mem_map.mp member
    obtain ⟨rfl, rfl⟩ := Prod.mk.inj same
    exact ⟨first, List.mem_reverse.mp listed, rfl, rfl⟩
  · rintro ⟨first, listed, rfl, rfl⟩
    cases found : (done.reverse.map fun item => (name item, field item)).lookup (name first) with
    | none =>
        have missing := List.lookup_eq_none_iff.mp found (name first, field first)
          (List.mem_map.mpr ⟨first, List.mem_reverse.mpr listed, rfl⟩)
        simp at missing
    | some value =>
        obtain ⟨before, after, split, -⟩ := List.lookup_eq_some_iff.mp found
        have member : (name first, value) ∈
            done.reverse.map fun item => (name item, field item) := by
          rw [split]
          simp
        obtain ⟨other, listedToo, same⟩ := List.mem_map.mp member
        obtain ⟨names, rfl⟩ := Prod.mk.inj same
        rw [List.inj_on_of_nodup_map nodup (List.mem_reverse.mp listedToo) listed names]

/-- A name that was seen before is refused, with the field that had it first. -/
theorem checkOutputs_of_seen {seen : List (String × String)} {field name first : String}
    (taken : seen.lookup name = some first) (rest : List (String × Except Rejection String)) :
    checkOutputs seen ((field, .ok name) :: rest) =
      .error (.duplicateOutput first field name) := by
  simp only [checkOutputs, Except.bind, bind, taken]

/-- A new name is kept in mind with its field. -/
theorem checkOutputs_of_new {seen : List (String × String)} {field name : String}
    (new : seen.lookup name = none) (rest : List (String × Except Rejection String)) :
    checkOutputs seen ((field, .ok name) :: rest) =
      checkOutputs ((name, field) :: seen) rest := by
  simp only [checkOutputs, Except.bind, bind, new]

/-- The first item of a list that has the name of an item done before or of an earlier one. -/
structure Repeats {ι : Type} (name : ι → String) (done items before : List ι) (item first : ι) :
    Prop where
  split : ∃ after, items = before ++ item :: after
  distinct : ((done ++ before).map name).Nodup
  earlier : first ∈ done ++ before
  same : name first = name item

section Repeats

variable {ι : Type} {field name : ι → String} {done before rest : List ι} {head item first : ι}

/-- Where the first item repeats a name it is the first to do so. -/
theorem repeats_cons_of_seen (nodup : (done.map name).Nodup) (taken : name head ∈ done.map name) :
    Repeats name done (head :: rest) before item first ↔
      before = [] ∧ item = head ∧ first ∈ done ∧ name first = name head := by
  constructor
  · rintro ⟨⟨after, split⟩, distinct, earlier, same⟩
    cases before with
    | nil =>
        obtain ⟨rfl, -⟩ := List.cons.inj split
        rw [List.append_nil] at earlier
        exact ⟨rfl, rfl, earlier, same⟩
    | cons second before =>
        obtain ⟨rfl, -⟩ := List.cons.inj split
        rw [List.map_append, List.nodup_append] at distinct
        exact absurd rfl (distinct.2.2 _ taken _ (by simp))
  · rintro ⟨rfl, rfl, earlier, same⟩
    exact ⟨⟨rest, rfl⟩, by simpa using nodup, by simpa using earlier, same⟩

/-- Where the first item has a new name the repetition is behind it. -/
theorem repeats_cons_of_new (new : name head ∉ done.map name) :
    Repeats name done (head :: rest) before item first ↔
      ∃ others, before = head :: others ∧ Repeats name (done ++ [head]) rest others item first := by
  constructor
  · rintro ⟨⟨after, split⟩, distinct, earlier, same⟩
    cases before with
    | nil =>
        obtain ⟨rfl, -⟩ := List.cons.inj split
        rw [List.append_nil] at earlier
        exact absurd (List.mem_map.mpr ⟨first, earlier, same⟩) new
    | cons second before =>
        obtain ⟨rfl, rfl⟩ := List.cons.inj split
        exact ⟨before, rfl, ⟨after, rfl⟩, by simpa using distinct, by simpa using earlier, same⟩
  · rintro ⟨others, rfl, ⟨after, rfl⟩, distinct, earlier, same⟩
    exact ⟨⟨after, rfl⟩, by simpa using distinct, by simpa using earlier, same⟩

/-- Behind columns of different names, the first column whose name was given before is reported with
the one that has the name. -/
theorem checkOutputs_eq_error_iff (nodup : (done.map name).Nodup) (items : List ι)
    {rejection : Rejection} :
    checkOutputs (done.reverse.map fun item => (name item, field item))
        (items.map fun item => (field item, .ok (name item))) = .error rejection ↔
      ∃ before item first, Repeats name done items before item first ∧
        rejection = .duplicateOutput (field first) (field item) (name item) := by
  induction items generalizing done with
  | nil =>
      simp only [checkOutputs, List.map_nil, reduceCtorEq, false_iff, not_exists, not_and]
      rintro before item first ⟨⟨after, split⟩, -, -, -⟩
      simp at split
  | cons head rest ih =>
      rw [List.map_cons]
      by_cases taken : name head ∈ done.map name
      · obtain ⟨first, listed, same⟩ := List.mem_map.mp taken
        have seen : (done.reverse.map fun item => (name item, field item)).lookup (name head) =
            some (field first) :=
          (lookup_seen_eq_some nodup).mpr ⟨first, listed, same, rfl⟩
        rw [checkOutputs_of_seen seen, Except.error.injEq]
        simp only [repeats_cons_of_seen nodup taken]
        constructor
        · rintro rfl
          exact ⟨[], head, first, ⟨rfl, rfl, listed, same⟩, rfl⟩
        · rintro ⟨_, _, other, ⟨rfl, rfl, listedToo, sameToo⟩, rfl⟩
          rw [List.inj_on_of_nodup_map nodup listedToo listed (sameToo.trans same.symm)]
      · have unseen : (done.reverse.map fun item => (name item, field item)).lookup (name head) =
            none := by
          cases found : (done.reverse.map fun item => (name item, field item)).lookup (name head)
          · rfl
          next value =>
            obtain ⟨first, listed, same, -⟩ := (lookup_seen_eq_some nodup).mp found
            exact absurd (List.mem_map.mpr ⟨first, listed, same⟩) taken
        have extended : ((done ++ [head]).map name).Nodup := by
          rw [List.map_append, List.map_singleton, List.nodup_append]
          refine ⟨nodup, by simp, ?_⟩
          rintro other member _ single rfl
          rw [List.mem_singleton.mp single] at member
          exact taken member
        have next :
            (name head, field head) :: done.reverse.map (fun item => (name item, field item)) =
            (done ++ [head]).reverse.map fun item => (name item, field item) := by
          rw [List.reverse_concat, List.map_cons]
        rw [checkOutputs_of_new unseen, next, ih extended]
        simp only [repeats_cons_of_new taken]
        constructor
        · rintro ⟨others, item, first, repeated, rfl⟩
          exact ⟨head :: others, item, first, ⟨others, rfl, repeated⟩, rfl⟩
        · rintro ⟨_, item, first, ⟨others, rfl, repeated⟩, rfl⟩
          exact ⟨others, item, first, repeated, rfl⟩

end Repeats

/-- The check passes exactly the reports that obey all rules. -/
theorem check_eq_ok : report.check schema table = .ok () ↔ report.Obeys schema table := by
  simp only [check, check_bind_eq_ok, BuildFault.lift_eq_ok, checkSource_eq_ok, checkNotEmpty_eq_ok,
    checkGrouping_eq_ok, checkFields_eq_ok, checkAll_eq_ok,
    checkMetric_eq_ok, checkSortEntry_eq_ok, checkBound_eq_ok, checkLimit_eq_ok,
    checkFilter_eq_ok, checkLabel_eq_ok, checkOutputs_eq_ok, List.lookup_nil, implies_true,
    and_true]
  constructor
  · rintro ⟨source, shown, grouped, fields, metrics, sort, bounded, limit, filters, labels, outputs⟩
    exact ⟨source, shown, grouped, fields, metrics, sort, bounded, limit, filters, labels, outputs⟩
  · rintro ⟨source, shown, grouped, fields, metrics, sort, bounded, limit, filters, labels, outputs⟩
    exact ⟨source, shown, grouped, fields, metrics, sort, bounded, limit, filters, labels, outputs⟩

/-- The limit, or the value of a filter that is to be made into a pattern, cannot be written. -/
def HasLongPart (report : Report) : Prop :=
  (∃ n, report.limit = some n ∧ isShortInteger n = false) ∨ ∃ f ∈ report.filters, ¬ f.Written

/-- A limit is refused by a rejection, unless it cannot be written. -/
theorem faultsIn_checkLimit (report : Report) :
    FaultsIn (fun fault => fault.IsRejection ∨ (fault = .longInteger ∧ report.HasLongPart))
      report.checkLimit := by
  intro fault failed
  unfold checkLimit at failed
  split at failed
  · cases failed
  next n given =>
    split at failed
    · obtain rfl := Except.error.inj failed
      by_cases short : isShortInteger n = true
      · exact .inl ⟨_, if_pos short⟩
      · exact .inr ⟨if_neg short, .inl ⟨n, given, by simpa using short⟩⟩
    · cases failed

/-- What is reported of a report is a rejection, unless a part of it cannot be written. -/
theorem faultsIn_check (schema : Schema) (table : String) (report : Report) :
    FaultsIn (fun fault => fault.IsRejection ∨ (fault = .longInteger ∧ report.HasLongPart))
      (report.check schema table) := by
  have lifted (outcome : Except Rejection Unit) :
      FaultsIn (fun fault => fault.IsRejection ∨ (fault = .longInteger ∧ report.HasLongPart))
        (BuildFault.lift outcome) := (BuildFault.faultsIn_lift outcome).mono fun _ => .inl
  unfold check
  -- The rules before the limit can do no more than reject.
  iterate 7 refine faultsIn_bind (lifted _) fun _ _ => ?_
  refine faultsIn_bind report.faultsIn_checkLimit fun _ _ => ?_
  refine faultsIn_bind (faultsIn_checkAll fun f member => faultsIn_map ?_) fun _ _ => ?_
  · exact f.faultsIn_test.mono fun _ => Or.imp_right fun ⟨long, unwritten⟩ =>
      ⟨long, .inr ⟨f, member, unwritten⟩⟩
  · exact faultsIn_bind (lifted _) fun _ _ => lifted _

/-- A report that obeys the rules has a dimension. -/
theorem Obeys.dimensions_ne_nil (obeys : report.Obeys schema table) : report.dimensions ≠ [] := by
  rcases obeys.shown with dimensions | metrics
  · exact dimensions
  · exact obeys.grouped metrics

end Reporting.Report
