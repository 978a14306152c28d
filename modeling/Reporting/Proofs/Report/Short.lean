import Reporting.Proofs.Json.Decoding
import Reporting.Proofs.Json.Documents
import Reporting.Proofs.Report.Placeholders
import Reporting.Proofs.Report.Stored
import Reporting.Proofs.Text.Digit

/-!
# Reports whose integers can be written

A text that is read within limits of at most `digitLimit` digits gives a value whose integers are
short (`Json.isShort_of_read`), and a report takes its integers from the value that it is read from
(`Report.isShort_of_recordOf`).
-/

namespace Reporting

namespace Value

/-- A list is short iff its items are. -/
theorem isShort_list {items : List Value} :
    (Value.list items).isShort = true ↔ ∀ item ∈ items, item.isShort = true := by
  rw [isShort]
  induction items with
  | nil => simp [areShort]
  | cons item rest ih => rw [areShort, Bool.and_eq_true, ih, List.forall_mem_cons]

/-- An object is short iff its values are. -/
theorem isShort_object {members : List (String × Value)} :
    (Value.object members).isShort = true ↔ ∀ member ∈ members, member.2.isShort = true := by
  rw [isShort]
  induction members with
  | nil => simp [areMembersShort]
  | cons member rest ih => rw [areMembersShort, Bool.and_eq_true, ih, List.forall_mem_cons]

/-- The members of an object have no other values than those that were written. -/
theorem isShort_ofMembers {written : List (String × Value)}
    (each : ∀ member ∈ written, member.2.isShort = true) :
    (ofMembers written).isShort = true := by
  have folded (members : List (String × Value))
      (short : ∀ member ∈ members, member.2.isShort = true) :
      ∀ member ∈ written.foldl (fun members member => put members member.1 member.2) members,
        member.2.isShort = true := by
    induction written generalizing members with
    | nil => exact short
    | cons first rest ih =>
        obtain ⟨here, behind⟩ := List.forall_mem_cons.mp each
        refine ih behind _ fun member inside => ?_
        rcases mem_put inside with same | within
        · exact same ▸ here
        · exact short member within
  exact isShort_object.mpr (folded [] (List.forall_mem_nil _))

/-- A member of a short object is short. -/
theorem isShort_of_lookup {members : List (String × Value)} {name : String} {value : Value}
    (short : (Value.object members).isShort = true) (found : members.lookup name = some value) :
    value.isShort = true := by
  obtain ⟨before, after, rfl, -⟩ := List.lookup_eq_some_iff.mp found
  exact isShort_object.mp short (name, value) (List.mem_append_right _ List.mem_cons_self)

end Value

/-- A number of few digits is short. -/
theorem isShortInteger_of_lt {n : Int} {length : Nat} (small : n.natAbs < 10 ^ length)
    (few : length ≤ digitLimit) : isShortInteger n = true := by
  unfold isShortInteger
  -- The power is not to be evaluated where the two sides are compared.
  generalize digitLimit = limit at few ⊢
  exact decide_eq_true (small.trans_le (Nat.pow_le_pow_right (by decide) few))

theorem Text.natAbs_signed (negative : Bool) (n : Nat) : (signed negative n).natAbs = n := by
  cases negative with
  | true => exact Int.natAbs_neg n
  | false => rfl

namespace Json

/-- The whole part of a number is made of digits. -/
theorem WholeText.digits_of {whole : List Char} (isWhole : WholeText whole) :
    ∀ c ∈ whole, Text.isAsciiDigit c = true := by
  cases isWhole with
  | zero => exact List.forall_mem_singleton.mpr rfl
  | digits first _ others => exact List.forall_mem_cons.mpr ⟨first, others⟩

/-- A number has a whole part. -/
theorem NumeralText.isWhole {text : List Char} {numeral : Numeral}
    (written : NumeralText text numeral) : WholeText numeral.whole := by
  cases written with
  | plain magnitude _ | minus magnitude _ =>
      cases magnitude with
      | mk isWhole _ _ => exact isWhole

variable {limits : Limits}

/-- A number within the limits is short. -/
theorem isShort_of_numeral (few : limits.digits ≤ digitLimit) {text : List Char}
    {numeral : Numeral} {value : Value} (written : NumeralText text numeral)
    (denotes : numeral.value none = .ok value) (short : Short (some limits) numeral) :
    value.isShort = true := by
  unfold Numeral.value at denotes
  split at denotes
  next isInteger =>
    rw [Bool.and_eq_true, List.isEmpty_iff, Option.isNone_iff_eq_none] at isInteger
    obtain ⟨-, -, denotes⟩ := Outcome.bind_eq_ok.mp denotes
    rw [← Outcome.pure_eq_ok.mp denotes]
    rw [Value.isShort, Scalar.isShort]
    refine isShortInteger_of_lt ?_ ((short limits rfl isInteger).trans few)
    rw [Text.natAbs_signed]
    exact Text.digitsValue_lt written.isWhole.digits_of
  next =>
    rw [← Except.ok.inj denotes]
    rfl

/-- A value that is spelled within the limits has short integers only. -/
theorem isShort_of_spells (few : limits.digits ≤ digitLimit) {outside : Nat} {text : List Char}
    {value : Value} (spells : Spells (some limits) outside text value) : value.isShort = true := by
  induction spells with
  | word isWord => cases isWord <;> rfl
  | number written denotes short => exact isShort_of_numeral few written denotes short
  | text => rfl
  | emptyList => rfl
  | list _ _ _ _ ih => exact Value.isShort_list.mpr (List.forall_mem_map.mpr ih)
  | emptyObject => rfl
  | object _ _ _ _ _ ih => exact Value.isShort_ofMembers (List.forall_mem_map.mpr ih)

/-- Integers that are read within limits of few digits can be written. -/
theorem isShort_of_read (few : limits.digits ≤ digitLimit) {text : String} {value : Value}
    (decoded : read (some limits) text = .ok value) : value.isShort = true := by
  obtain ⟨piece, -, spells, -, rfl⟩ := read_eq_ok_iff.mp decoded
  exact isShort_of_spells few spells

end Json

namespace Report

variable {report : Report}

/-- The integers of a report are its limit and those in the values of its filters. -/
theorem isShort_toValue_iff :
    report.toValue.isShort = true ↔
      (∀ f ∈ report.filters, f.value.isShort = true) ∧
        ∀ n, report.limit = some n → isShortInteger n = true := by
  have label (label : Option String) : ((label.map Value.text).getD .null).isShort = true := by
    cases label <;> rfl
  have limit : ((report.limit.map Value.int).getD .null).isShort = true ↔
      ∀ n, report.limit = some n → isShortInteger n = true := by
    cases report.limit with
    | none => simp [Value.isShort]
    | some n => simp [Value.isShort, Scalar.isShort]
  simp only [toValue, Dimension.toValue, Metric.toValue, Filter.toValue, SortEntry.toValue,
    Value.isShort_object, Value.isShort_list, List.forall_mem_cons, List.forall_mem_map,
    List.not_mem_nil, false_imp_iff, implies_true, and_true, limit, label]
  simp [Value.isShort, Scalar.isShort]

/-- A report takes its integers from the value that describes it. -/
theorem isShort_of_recordOf {document : Value} (short : document.isShort = true)
    (described : document.RecordOf Describes report) : report.toValue.isShort = true := by
  obtain ⟨members, rfl, described⟩ := described
  refine isShort_toValue_iff.mpr ⟨fun f member => ?_, fun n given => ?_⟩
  · obtain ⟨items, found, item, inside, parts, rfl, part⟩ :=
      described.filters.exists_of_mem member
    have itemShort := Value.isShort_list.mp (Value.isShort_of_lookup short found) _ inside
    rw [← part.value]
    cases given : parts.lookup "value" with
    | none => rfl
    | some value => exact Value.isShort_of_lookup itemShort given
  · obtain ⟨value, found, isInteger⟩ := described.limit.exists_of_some given
    have valueShort := Value.isShort_of_lookup short found
    rw [isInteger, Value.isShort, Scalar.isShort] at valueShort
    exact valueShort

theorem isShort_of_read {document : Value} (short : document.isShort = true)
    (read : Report.read document = .valid report) : report.toValue.isShort = true :=
  isShort_of_recordOf short ((Report.read_iff document report).mp read)

/-- A report that is read from a text is short. -/
theorem isShort_of_ofDocument {depth : Nat} {text : String}
    (read : ofDocument depth (.text text) = .ok report) : report.toValue.isShort = true := by
  obtain ⟨value, yields, described⟩ := ofDocument_eq_ok_iff.mp read
  have decoded : readStoredText depth text = .ok value := Value.decoded_eq_ok_iff.mpr yields
  exact isShort_of_recordOf (Json.isShort_of_read (Nat.le_refl digitLimit) decoded) described

/-- No part of such a report is too long to be written. -/
theorem not_hasLongPart (short : report.toValue.isShort = true) : ¬ report.HasLongPart := by
  obtain ⟨filters, limit⟩ := isShort_toValue_iff.mp short
  rintro (⟨n, given, long⟩ | ⟨f, member, unwritten⟩)
  · rw [limit n given] at long
    cases long
  · exact unwritten fun _ => filters f member

end Report

/-- The values that a filter binds are written as far as its own value is. -/
theorem Filter.Binds.isShort {f : Filter} {values : List Scalar} (binds : f.Binds values)
    (short : f.value.isShort = true) : ∀ item ∈ values, item.isShort = true := by
  cases binds with
  | nothing operator => exact List.forall_mem_nil _
  | items operator value =>
      rw [value, Value.isShort_list] at short
      exact fun item member => short _ (List.mem_map_of_mem member)
  | pattern operator value itemShort => exact List.forall_mem_singleton.mpr rfl
  | single operator value =>
      rw [value] at short
      exact List.forall_mem_singleton.mpr short

/-- Of such a report no value is too long to be written when it is compiled. -/
theorem Schema.isShort_params {schema : Schema} {table : String} {report : Report}
    {compiled : CompiledQuery} (short : report.toValue.isShort = true)
    (compiles : schema.compile table report = .ok compiled) :
    ∀ item ∈ compiled.params, item.isShort = true := by
  obtain ⟨filters, limit⟩ := Report.isShort_toValue_iff.mp short
  obtain ⟨values, binds, params⟩ := exists_binds_of_compile compiles
  intro item member
  rw [params, List.mem_append, List.mem_flatten] at member
  rcases member with ⟨own, inside, member⟩ | member
  · obtain ⟨f, isFilter, bound⟩ := Outcome.exists_of_mem_right binds inside
    exact bound.isShort (filters f isFilter) item member
  · rw [Report.limitValues] at member
    split at member
    next n given =>
      split at member
      · rw [List.mem_singleton.mp member]
        exact limit n given
      · cases member
    next => cases member

end Reporting
