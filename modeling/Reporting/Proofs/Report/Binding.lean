import Mathlib.Data.List.Basic
import Reporting.Proofs.Outcome
import Reporting.Report.Binding

/-!
# What filters bind

`Filter.Binds` states operator by operator which values a filter binds; the test of a filter holds
exactly these (`Filter.binds_of_test`). A filter that has no test is a `Filter.Misfit`: its operator
is not supported, its value does not fit, or it wants a pattern of an integer that is too long to be
written.
-/

namespace Reporting

open Sql

/-- What the operators of filters bind. -/
inductive Filter.Binds (f : Filter) : List Scalar → Prop where
  | nothing (operator : f.operator = "IS NULL" ∨ f.operator = "IS NOT NULL") : Binds f []
  | items {items : List Scalar} (operator : f.operator = "IN" ∨ f.operator = "NOT IN")
      (value : f.value = .list (items.map .scalar)) : Binds f items
  | pattern {item : Scalar} (operator : f.operator = "LIKE") (value : f.value = .scalar item)
      (short : item.isShort = true) : Binds f [.text ("%" ++ item.plain ++ "%")]
  | single {item : Scalar} (operator : f.operator ∈ ["=", "!=", ">", "<", ">=", "<="])
      (value : f.value = .scalar item) : Binds f [item]

/-- The keyword of an operator. -/
def Operator.keyword : Operator → String
  | .compare .equal => "="
  | .compare .notEqual => "!="
  | .compare .greater => ">"
  | .compare .less => "<"
  | .compare .greaterOrEqual => ">="
  | .compare .lessOrEqual => "<="
  | .like => "LIKE"
  | .membership true => "IN"
  | .membership false => "NOT IN"
  | .nullTest true => "IS NULL"
  | .nullTest false => "IS NOT NULL"

/-- A supported word is the keyword of its operator. -/
theorem Operator.eq_keyword {word : String} {operator : Operator}
    (found : ofKeyword? word = some operator) : word = operator.keyword := by
  unfold ofKeyword? at found
  split at found <;> cases found <;> rfl

/-- A scalar is written as its bare text, if it can be. -/
theorem Scalar.written?_eq_some {item : Scalar} {text : String} :
    item.written? = some text ↔ item.isShort = true ∧ item.plain = text := by
  simp only [Scalar.written?, Option.ite_none_right_eq_some, Option.some.injEq]

theorem Scalar.written?_eq_none {item : Scalar} : item.written? = none ↔ item.isShort = false := by
  simp only [Scalar.written?, ite_eq_right_iff, reduceCtorEq, imp_false, Bool.not_eq_true]

/-- Values that are all scalars are the scalars found. -/
theorem Value.scalars?_eq_some {items : List Value} {scalars : List Scalar}
    (found : Value.scalars? items = some scalars) : items = scalars.map .scalar := by
  induction items generalizing scalars with
  | nil =>
      cases found
      rfl
  | cons item rest ih =>
      simp only [Value.scalars?, Option.bind_eq_bind, Option.bind_eq_some_iff, Option.pure_def,
        Option.some.injEq] at found
      obtain ⟨first, isScalar, others, tail, rfl⟩ := found
      rw [List.map_cons, ← ih tail]
      cases item with
      | scalar value =>
          cases isScalar
          rfl
      | null => cases isScalar
      | list items => cases isScalar
      | object members => cases isScalar

namespace Filter

variable {f : Filter}

/-- The items of a membership test make up the list that is given. -/
theorem memberValues_eq_ok {items : List Scalar} (found : f.memberValues = .ok items) :
    f.value = .list (items.map .scalar) := by
  unfold memberValues at found
  split at found
  · cases found
  next values _ given =>
    split at found
    next scalars known =>
      cases found
      rw [given, Value.scalars?_eq_some known]
    · cases found
  · cases found

/-- The value of a comparison is the scalar that is given. -/
theorem singleValue_eq_ok {item : Scalar} : f.singleValue = .ok item ↔ f.value = .scalar item := by
  unfold singleValue
  split
  next given => simp only [given, Except.ok.injEq, Value.scalar.injEq]
  next other =>
    simp only [mismatch, reduceCtorEq, false_iff]
    exact other item

/-- A pattern is made of the text of a single scalar that can be written. -/
theorem pattern_eq_ok {text : String} :
    f.pattern = .ok text ↔ ∃ item : Scalar, f.value = .scalar item ∧ item.isShort = true ∧
      text = containsPattern item.plain := by
  simp only [pattern, Outcome.bind_eq_ok, BuildFault.lift_eq_ok, singleValue_eq_ok]
  refine exists_congr fun item => and_congr_right fun _ => ?_
  split
  next written =>
    obtain ⟨short, rfl⟩ := Scalar.written?_eq_some.mp written
    rw [Outcome.pure_eq_ok, and_iff_right short, eq_comm]
  next unwritten =>
    simp only [Scalar.written?_eq_none.mp unwritten, Bool.false_eq_true, false_and, iff_false]
    exact fun written => nomatch written

/-- A pattern is missing where the value is no single scalar, or one that cannot be written. -/
theorem pattern_eq_error {fault : BuildFault} :
    f.pattern = .error fault ↔ BuildFault.lift f.singleValue = .error fault ∨
      ∃ item : Scalar, f.value = .scalar item ∧ item.isShort = false ∧ fault = .longInteger := by
  simp only [pattern, Outcome.bind_eq_error, BuildFault.lift_eq_ok, singleValue_eq_ok]
  refine or_congr_right (exists_congr fun item => and_congr_right fun _ => ?_)
  split
  next written =>
    simp only [(Scalar.written?_eq_some.mp written).1, Outcome.pure_ne_error, Bool.true_eq_false,
      false_and]
  next unwritten =>
    simp only [Scalar.written?_eq_none.mp unwritten, throw, throwThe, MonadExceptOf.throw,
      Except.error.injEq, true_and, eq_comm]

/-- The values of a filter's test are what its operator binds. -/
theorem binds_of_test {test : Test} (found : f.test = .ok test) : f.Binds test.values := by
  unfold Filter.test at found
  split at found
  next => cases found
  next wanted known =>
    have keyword := Operator.eq_keyword known
    cases found
    cases wanted with
    | true => exact Binds.nothing (Or.inl keyword)
    | false => exact Binds.nothing (Or.inr keyword)
  next wanted known =>
    have keyword := Operator.eq_keyword known
    obtain ⟨items, listed, rfl⟩ := Outcome.map_eq_ok.mp found
    have value := memberValues_eq_ok (BuildFault.lift_eq_ok.mp listed)
    cases wanted with
    | true => exact Binds.items (Or.inl keyword) value
    | false => exact Binds.items (Or.inr keyword) value
  next known =>
    obtain ⟨text, made, rfl⟩ := Outcome.map_eq_ok.mp found
    obtain ⟨item, value, short, rfl⟩ := pattern_eq_ok.mp made
    exact Binds.pattern (Operator.eq_keyword known) value short
  next comparison known =>
    have keyword := Operator.eq_keyword known
    obtain ⟨item, alone, rfl⟩ := Outcome.map_eq_ok.mp found
    refine Binds.single ?_ (singleValue_eq_ok.mp (BuildFault.lift_eq_ok.mp alone))
    rw [keyword]
    cases comparison <;> simp [Operator.keyword]

end Filter

/-- The operators that take no value. -/
def nullOperators : List String := ["IS NULL", "IS NOT NULL"]

/-- The operators that take a list of values. -/
def listOperators : List String := ["IN", "NOT IN"]

/-- The operators that take a single value. -/
def singleOperators : List String := ["=", "!=", ">", "<", ">=", "<=", "LIKE"]

/-- The operators without a value are the null tests. -/
theorem mem_nullOperators_iff {word : String} :
    word ∈ nullOperators ↔ ∃ wanted, Operator.ofKeyword? word = some (.nullTest wanted) := by
  constructor
  · intro member
    rcases List.mem_pair.mp member with rfl | rfl
    · exact ⟨true, rfl⟩
    · exact ⟨false, rfl⟩
  · rintro ⟨wanted, known⟩
    rw [Operator.eq_keyword known]
    cases wanted <;> decide

/-- The operators with a list are the membership tests. -/
theorem mem_listOperators_iff {word : String} :
    word ∈ listOperators ↔ ∃ wanted, Operator.ofKeyword? word = some (.membership wanted) := by
  constructor
  · intro member
    rcases List.mem_pair.mp member with rfl | rfl
    · exact ⟨true, rfl⟩
    · exact ⟨false, rfl⟩
  · rintro ⟨wanted, known⟩
    rw [Operator.eq_keyword known]
    cases wanted <;> decide

/-- The operators with a single value are the containment test and the comparisons. -/
theorem mem_singleOperators_iff {word : String} :
    word ∈ singleOperators ↔ Operator.ofKeyword? word = some .like ∨
      ∃ comparison, Operator.ofKeyword? word = some (.compare comparison) := by
  constructor
  · intro member
    simp only [singleOperators, List.mem_cons, List.not_mem_nil, or_false] at member
    rcases member with rfl | rfl | rfl | rfl | rfl | rfl | rfl
    · exact Or.inr ⟨.equal, rfl⟩
    · exact Or.inr ⟨.notEqual, rfl⟩
    · exact Or.inr ⟨.greater, rfl⟩
    · exact Or.inr ⟨.less, rfl⟩
    · exact Or.inr ⟨.greaterOrEqual, rfl⟩
    · exact Or.inr ⟨.lessOrEqual, rfl⟩
    · exact Or.inl rfl
  · rintro (known | ⟨comparison, known⟩)
    · rw [Operator.eq_keyword known]
      decide
    · rw [Operator.eq_keyword known]
      cases comparison <;> decide

/-- A keyword of another operator is not that of the containment test. -/
theorem ne_like_of_ofKeyword? {word : String} {operator : Operator}
    (known : Operator.ofKeyword? word = some operator) (other : operator ≠ .like) :
    word ≠ "LIKE" := by
  rintro rfl
  cases known
  exact other rfl

theorem not_mem_listOperators_of_single {word : String} (single : word ∈ singleOperators) :
    word ∉ listOperators := by
  have apart : ∀ word ∈ singleOperators, word ∉ listOperators := by decide
  exact apart word single

theorem not_mem_others_of_null {word : String} (null : word ∈ nullOperators) :
    word ∉ listOperators ∧ word ∉ singleOperators := by
  have apart : ∀ word ∈ nullOperators, word ∉ listOperators ∧ word ∉ singleOperators := by decide
  exact apart word null

/-- Scalars are found among values that are scalars. -/
theorem Value.scalars?_map (scalars : List Scalar) :
    Value.scalars? (scalars.map .scalar) = some scalars := by
  induction scalars with
  | nil => rfl
  | cons scalar rest ih =>
      rw [List.map_cons, Value.scalars?, ih]
      rfl

/-- A list is not one of scalars iff it has another item. -/
theorem Value.scalars?_eq_none_iff {items : List Value} :
    Value.scalars? items = none ↔ ∃ item ∈ items, ∀ scalar, item ≠ .scalar scalar := by
  induction items with
  | nil => simp [Value.scalars?]
  | cons item rest ih =>
      simp only [List.exists_mem_cons_iff, ← ih, Value.scalars?]
      cases item with
      | scalar value => cases Value.scalars? rest <;> simp [Value.scalar?]
      | null => simp [Value.scalar?]
      | list items => simp [Value.scalar?]
      | object members => simp [Value.scalar?]

namespace Filter

variable {f : Filter}

/-- An operator that is supported and a value that fits it. -/
inductive Fits (f : Filter) : Prop where
  | nothing (operator : f.operator ∈ nullOperators) : Fits f
  | items {items : List Scalar} (operator : f.operator ∈ listOperators)
      (value : f.value = .list (items.map .scalar)) (some : items ≠ []) : Fits f
  | single {item : Scalar} (operator : f.operator ∈ singleOperators)
      (value : f.value = .scalar item) : Fits f

/-- The value of a pattern can be written. -/
def Written (f : Filter) : Prop := f.operator = "LIKE" → f.value.isShort = true

/-- What is reported of an operator that is not supported, of a value that does not fit, or of a
pattern that cannot be made. -/
inductive Misfit (f : Filter) : BuildFault → Prop where
  | unsupported (operator : f.operator ∉ nullOperators ++ listOperators ++ singleOperators) :
      Misfit f (.rejected (.unsupportedOperator f.operator f.field))
  | notList (operator : f.operator ∈ listOperators) (value : ∀ items, f.value ≠ .list items) :
      Misfit f (.rejected (.valueMismatch .notList f.operator f.field))
  | emptyList (operator : f.operator ∈ listOperators) (value : f.value = .list []) :
      Misfit f (.rejected (.valueMismatch .emptyList f.operator f.field))
  | itemNotScalar {items : List Value} (operator : f.operator ∈ listOperators)
      (value : f.value = .list items) (other : ∃ item ∈ items, ∀ scalar, item ≠ .scalar scalar) :
      Misfit f (.rejected (.valueMismatch .itemNotScalar f.operator f.field))
  | notScalar (operator : f.operator ∈ singleOperators)
      (value : ∀ scalar, f.value ≠ .scalar scalar) :
      Misfit f (.rejected (.valueMismatch .notScalar f.operator f.field))
  | longInteger {item : Scalar} (operator : f.operator = "LIKE") (value : f.value = .scalar item)
      (long : item.isShort = false) : Misfit f .longInteger

/-- A filter that does not fit is rejected, unless it is a pattern of a long integer. -/
theorem Misfit.rejected_or {fault : BuildFault} (misfit : f.Misfit fault) :
    fault.IsRejection ∨ fault = .longInteger ∧ f.operator = "LIKE" ∧
      ∃ item : Scalar, f.value = .scalar item ∧ item.isShort = false := by
  cases misfit with
  | longInteger operator value long => exact .inr ⟨rfl, operator, _, value, long⟩
  | unsupported => exact .inl ⟨_, rfl⟩
  | notList => exact .inl ⟨_, rfl⟩
  | emptyList => exact .inl ⟨_, rfl⟩
  | itemNotScalar => exact .inl ⟨_, rfl⟩
  | notScalar => exact .inl ⟨_, rfl⟩

/-- What fits and is reported all the same is a pattern that cannot be written. -/
theorem misfit_longInteger_iff : f.Misfit .longInteger ↔ f.Fits ∧ ¬ f.Written := by
  constructor
  · intro misfit
    cases misfit with
    | longInteger operator value long =>
        refine ⟨.single (by rw [operator]; decide) value, fun written => ?_⟩
        have short := written operator
        rw [value] at short
        exact absurd (short.symm.trans long) (by decide)
  · rintro ⟨fits, unwritten⟩
    obtain ⟨like, long⟩ := Classical.not_imp.mp unwritten
    rw [Bool.not_eq_true] at long
    cases fits with
    | nothing null =>
        rw [like] at null
        exact absurd null (by decide)
    | items listed =>
        rw [like] at listed
        exact absurd listed (by decide)
    | single _ value =>
        rw [value] at long
        exact .longInteger like value long

/-- Where no pattern is made, a filter that does not fit is rejected. -/
theorem Misfit.rejected {fault : BuildFault} (misfit : f.Misfit fault)
    (other : f.operator ≠ "LIKE") : fault.IsRejection := by
  rcases misfit.rejected_or with rejected | ⟨-, like, -⟩
  · exact rejected
  · exact absurd like other

/-- A membership test has items iff a list of scalars is given that is not empty. -/
theorem exists_memberValues_iff :
    (∃ values, f.memberValues = .ok values) ↔
      ∃ items : List Scalar, f.value = .list (items.map .scalar) ∧ items ≠ [] := by
  constructor
  · rintro ⟨values, found⟩
    refine ⟨values, memberValues_eq_ok found, ?_⟩
    rintro rfl
    rw [memberValues, memberValues_eq_ok found] at found
    cases found
  · rintro ⟨items, value, some⟩
    obtain ⟨item, rest, rfl⟩ := List.exists_cons_of_ne_nil some
    refine ⟨item :: rest, ?_⟩
    have scalars := Value.scalars?_map (item :: rest)
    rw [List.map_cons] at scalars value
    simp only [memberValues, value, scalars]

/-- What is reported of the values of a membership test. -/
theorem memberValues_eq_error_iff (operator : f.operator ∈ listOperators) {rejection : Rejection} :
    f.memberValues = .error rejection ↔ f.Misfit (.rejected rejection) := by
  constructor
  · intro refused
    unfold memberValues at refused
    split at refused
    next value =>
      cases refused
      exact .emptyList operator value
    next items _ value =>
      split at refused
      · cases refused
      next missing =>
        cases refused
        exact .itemNotScalar operator value (Value.scalars?_eq_none_iff.mp missing)
    next _ other =>
      cases refused
      exact .notList operator other
  · intro misfit
    cases misfit with
    | unsupported missing => exact absurd (by simp [operator]) missing
    | notScalar single => exact absurd operator (not_mem_listOperators_of_single single)
    | emptyList operator value => rw [memberValues, value]; rfl
    | notList operator other =>
        unfold memberValues
        split
        next value => exact absurd value (other [])
        next items _ value => exact absurd value (other items)
        next => rfl
    | @itemNotScalar items operator value others =>
        have missing := Value.scalars?_eq_none_iff.mpr others
        obtain ⟨item, member, -⟩ := others
        obtain ⟨first, rest, rfl⟩ := List.exists_cons_of_ne_nil (List.ne_nil_of_mem member)
        simp only [memberValues, value, missing]
        rfl

/-- What is reported of the value of a comparison. -/
theorem singleValue_eq_error_iff (operator : f.operator ∈ singleOperators) {rejection : Rejection} :
    f.singleValue = .error rejection ↔ f.Misfit (.rejected rejection) := by
  constructor
  · intro refused
    unfold singleValue at refused
    split at refused
    · cases refused
    next _ other =>
      cases refused
      exact .notScalar operator other
  · intro misfit
    have noList := not_mem_listOperators_of_single operator
    cases misfit with
    | unsupported missing => exact absurd (by simp [operator]) missing
    | notList listed other => exact absurd listed noList
    | emptyList listed value => exact absurd listed noList
    | itemNotScalar listed value others => exact absurd listed noList
    | notScalar operator other =>
        unfold singleValue
        split
        next scalar value => exact absurd value (other scalar)
        next => rfl

/-- A filter has a test iff its operator is supported, its value fits and a pattern can be made. -/
theorem exists_test_iff : (∃ test, f.test = .ok test) ↔ f.Fits ∧ f.Written := by
  constructor
  · rintro ⟨test, found⟩
    unfold Filter.test at found
    split at found
    next => cases found
    next wanted known =>
      have other : f.operator ≠ "LIKE" := ne_like_of_ofKeyword? known (by simp)
      exact ⟨.nothing (mem_nullOperators_iff.mpr ⟨wanted, known⟩), fun like => absurd like other⟩
    next wanted known =>
      have other : f.operator ≠ "LIKE" := ne_like_of_ofKeyword? known (by simp)
      obtain ⟨values, listed, -⟩ := Outcome.map_eq_ok.mp found
      obtain ⟨items, value, some⟩ :=
        exists_memberValues_iff.mp ⟨values, BuildFault.lift_eq_ok.mp listed⟩
      exact ⟨.items (mem_listOperators_iff.mpr ⟨wanted, known⟩) value some,
        fun like => absurd like other⟩
    next known =>
      obtain ⟨text, made, -⟩ := Outcome.map_eq_ok.mp found
      obtain ⟨item, value, short, -⟩ := pattern_eq_ok.mp made
      refine ⟨.single (mem_singleOperators_iff.mpr (Or.inl known)) value, fun _ => ?_⟩
      rw [value]
      exact short
    next comparison known =>
      have other : f.operator ≠ "LIKE" := ne_like_of_ofKeyword? known (by simp)
      obtain ⟨item, alone, -⟩ := Outcome.map_eq_ok.mp found
      exact ⟨.single (mem_singleOperators_iff.mpr (Or.inr ⟨comparison, known⟩))
        (singleValue_eq_ok.mp (BuildFault.lift_eq_ok.mp alone)), fun like => absurd like other⟩
  · rintro ⟨fits, written⟩
    cases fits with
    | nothing operator =>
        obtain ⟨wanted, known⟩ := mem_nullOperators_iff.mp operator
        exact ⟨_, by rw [Filter.test, known]⟩
    | items operator value some =>
        obtain ⟨wanted, known⟩ := mem_listOperators_iff.mp operator
        obtain ⟨values, listed⟩ := exists_memberValues_iff.mpr ⟨_, value, some⟩
        exact ⟨_, by rw [Filter.test, known, listed]; rfl⟩
    | single operator value =>
        rcases mem_singleOperators_iff.mp operator with known | ⟨comparison, known⟩
        · have short := written (Operator.eq_keyword known)
          rw [value] at short
          have made := pattern_eq_ok.mpr ⟨_, value, short, rfl⟩
          exact ⟨_, by rw [Filter.test, known, made]; rfl⟩
        · exact ⟨_, by rw [Filter.test, known, singleValue_eq_ok.mpr value]; rfl⟩

/-- Where the value decides and no pattern is made, what is reported of it is what is reported of
the filter. -/
theorem lift_eq_error_iff {α : Type} {values : Except Rejection α} (other : f.operator ≠ "LIKE")
    (reported : ∀ rejection, values = .error rejection ↔ f.Misfit (.rejected rejection))
    {fault : BuildFault} : BuildFault.lift values = .error fault ↔ f.Misfit fault := by
  rw [BuildFault.lift_eq_error]
  constructor
  · rintro ⟨rejection, refused, rfl⟩
    exact (reported rejection).mp refused
  · intro misfit
    obtain ⟨rejection, rfl⟩ := misfit.rejected other
    exact ⟨rejection, (reported rejection).mpr misfit, rfl⟩

/-- What is reported of a pattern that cannot be made. -/
theorem pattern_eq_error_iff (operator : f.operator = "LIKE") {fault : BuildFault} :
    f.pattern = .error fault ↔ f.Misfit fault := by
  have single : f.operator ∈ singleOperators := by
    rw [operator]
    decide
  rw [pattern_eq_error, BuildFault.lift_eq_error]
  constructor
  · rintro (⟨rejection, refused, rfl⟩ | ⟨item, value, long, rfl⟩)
    · exact (singleValue_eq_error_iff single).mp refused
    · exact .longInteger operator value long
  · intro misfit
    rcases misfit.rejected_or with ⟨rejection, rfl⟩ | ⟨rfl, -, item, value, long⟩
    · exact .inl ⟨rejection, (singleValue_eq_error_iff single).mpr misfit, rfl⟩
    · exact .inr ⟨item, value, long, rfl⟩

/-- What is reported of a filter that does not fit. -/
theorem test_eq_error_iff {fault : BuildFault} : f.test = .error fault ↔ f.Misfit fault := by
  unfold Filter.test
  split
  next missing =>
    have unsupported : f.operator ∉ nullOperators ++ listOperators ++ singleOperators := by
      simp only [List.mem_append, mem_nullOperators_iff, mem_listOperators_iff,
        mem_singleOperators_iff, missing, reduceCtorEq, exists_false, or_self, not_false_eq_true]
    constructor
    · intro refused
      cases refused
      exact .unsupported unsupported
    · intro misfit
      simp only [List.mem_append, not_or] at unsupported
      cases misfit with
      | unsupported => rfl
      | notList operator => exact absurd operator unsupported.1.2
      | emptyList operator => exact absurd operator unsupported.1.2
      | itemNotScalar operator => exact absurd operator unsupported.1.2
      | notScalar operator => exact absurd operator unsupported.2
      | longInteger operator =>
          rw [operator] at missing
          cases missing
  next wanted known =>
    have operator := mem_nullOperators_iff.mpr ⟨wanted, known⟩
    simp only [reduceCtorEq, false_iff]
    intro misfit
    have others := not_mem_others_of_null operator
    cases misfit with
    | unsupported missing => exact missing (by simp [operator])
    | notList listed => exact others.1 listed
    | emptyList listed => exact others.1 listed
    | itemNotScalar listed => exact others.1 listed
    | notScalar single => exact others.2 single
    | longInteger like =>
        rw [like] at known
        cases known
  next wanted known =>
    have operator := mem_listOperators_iff.mpr ⟨wanted, known⟩
    have other : f.operator ≠ "LIKE" := ne_like_of_ofKeyword? known (by simp)
    rw [Outcome.map_eq_error]
    exact lift_eq_error_iff other fun _ => memberValues_eq_error_iff operator
  next known =>
    rw [Outcome.map_eq_error]
    exact pattern_eq_error_iff (Operator.eq_keyword known)
  next comparison known =>
    have operator := mem_singleOperators_iff.mpr (Or.inr ⟨comparison, known⟩)
    have other : f.operator ≠ "LIKE" := ne_like_of_ofKeyword? known (by simp)
    rw [Outcome.map_eq_error]
    exact lift_eq_error_iff other fun _ => singleValue_eq_error_iff operator

/-- What is reported of a filter is a rejection, unless its pattern cannot be written. -/
theorem faultsIn_test (f : Filter) :
    Outcome.FaultsIn (fun fault => fault.IsRejection ∨ (fault = .longInteger ∧ ¬ f.Written))
      f.test := by
  intro fault failed
  have misfit := test_eq_error_iff.mp failed
  rcases misfit.rejected_or with rejected | ⟨rfl, -⟩
  · exact .inl rejected
  · exact .inr ⟨rfl, (misfit_longInteger_iff.mp misfit).2⟩

end Filter

end Reporting
