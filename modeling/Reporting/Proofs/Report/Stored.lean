import Reporting.Proofs.Json.Limits
import Reporting.Proofs.Report.Grammar
import Reporting.Report.Stored

/-!
# Reading stored reports

A stored report is a text or a value. A text stands for the value that it spells. Reading it gives
the report that the value describes, and says whether a text spells no value, whether the value is
no object, or whether the object describes no report. A text may run over the limits before any of
this is known, and then no such answer is given (`Report.ofDocument_decides`).
-/

namespace Reporting

namespace Value

def IsObject (value : Value) : Prop := ∃ members, value = .object members

/-- A document stands for a value: a text for the one that it spells, any other for itself. -/
inductive StandsFor : Value → Value → Prop
  | text {text : String} {value : Value} (represents : Json.Represents none text value) :
      StandsFor (.text text) value
  | itself {value : Value} (noText : ∀ text, value ≠ .text text) : StandsFor value value

/-- A document is a text that runs over the limits on stored text. -/
def Overruns (document : Value) (depth : Nat) (excess : Json.Excess) : Prop :=
  ∃ text, document = .text text ∧ Json.Overruns (storedTextLimits depth) text excess

/-- A document keeps within the limits and stands for a value. -/
def Yields (document : Value) (depth : Nat) (value : Value) : Prop :=
  (¬ ∃ excess, document.Overruns depth excess) ∧ document.StandsFor value

section Depth

variable {depth : Nat}

theorem digits_storedTextLimits_pos : 0 < (storedTextLimits depth).digits := Nat.succ_pos 4299

theorem overruns_text {text : String} {excess : Json.Excess} :
    (Value.text text).Overruns depth excess ↔
      Json.Overruns (storedTextLimits depth) text excess := by
  simp [Overruns]

theorem standsFor_text {text : String} {value : Value} :
    (Value.text text).StandsFor value ↔ Json.Represents none text value := by
  constructor
  · intro stands
    cases stands with
    | text represents => exact represents
    | itself noText => exact absurd rfl (noText text)
  · exact .text

/-- A document that is no text stands for itself alone. -/
theorem standsFor_of_noText {document value : Value} (noText : ∀ text, document ≠ .text text) :
    document.StandsFor value ↔ document = value := by
  constructor
  · intro stands
    cases stands with
    | text _ => exact absurd rfl (noText _)
    | itself _ => rfl
  · rintro rfl
    exact .itself noText

/-- The value of a document, as far as it can be told. -/
def decoded (depth : Nat) : Value → Except Json.Error Value
  | .scalar (.text text) => readStoredText depth text
  | value => .ok value

/-- A document that is no text is its own value. -/
theorem decoded_of_noText {document : Value} (noText : ∀ text, document ≠ .text text) :
    document.decoded depth = .ok document := by
  unfold decoded
  split
  next text => exact absurd rfl (noText text)
  next => rfl

/-- A document that is no text keeps within all limits. -/
theorem not_overruns_of_noText {document : Value} (noText : ∀ text, document ≠ .text text) :
    ¬ ∃ excess, document.Overruns depth excess := by
  rintro ⟨_, text, same, -⟩
  exact noText text same

/-- A document is decoded to the value that it stands for, within the limits. -/
theorem decoded_eq_ok_iff {document value : Value} :
    document.decoded depth = .ok value ↔ document.Yields depth value := by
  by_cases isText : ∃ text, document = .text text
  · obtain ⟨text, rfl⟩ := isText
    simp only [Yields, overruns_text, standsFor_text]
    exact Json.read_eq_ok_iff_represents digits_storedTextLimits_pos
  · have noText := not_exists.mp isText
    rw [decoded_of_noText noText, Yields, standsFor_of_noText noText]
    simp [not_overruns_of_noText noText]

/-- A document is malformed iff it stands for nothing, within the limits. -/
theorem decoded_eq_malformed_iff {document : Value} :
    (∃ fault, document.decoded depth = .error (.malformed fault)) ↔
      (¬ ∃ excess, document.Overruns depth excess) ∧ ¬ ∃ value, document.StandsFor value := by
  by_cases isText : ∃ text, document = .text text
  · obtain ⟨text, rfl⟩ := isText
    simp only [overruns_text, standsFor_text]
    exact Json.read_eq_malformed_iff digits_storedTextLimits_pos
  · have noText := not_exists.mp isText
    simp [decoded_of_noText noText, standsFor_of_noText noText]

/-- A document is beyond the limits iff it overruns them. -/
theorem decoded_eq_beyondLimits_iff {document : Value} {excess : Json.Excess} :
    document.decoded depth = .error (.beyondLimits excess) ↔ document.Overruns depth excess := by
  by_cases isText : ∃ text, document = .text text
  · obtain ⟨text, rfl⟩ := isText
    rw [overruns_text]
    exact Json.read_eq_beyondLimits_iff digits_storedTextLimits_pos
  · have noText := not_exists.mp isText
    rw [decoded_of_noText noText]
    simp only [reduceCtorEq, false_iff]
    exact fun overruns => not_overruns_of_noText noText ⟨excess, overruns⟩

end Depth

end Value

namespace Report

/-! ### Values other than texts -/

/-- An object is read as a report. -/
theorem ofObject_of_object {value : Value} (isObject : value.IsObject) :
    ofObject value = match Report.read value with
      | .valid report => .ok report
      | .faulty faults => .error (.malformed faults) := by
  obtain ⟨members, rfl⟩ := isObject
  rfl

/-- Any other value is refused by its kind. -/
theorem ofObject_of_not_isObject {value : Value} (noObject : ¬ value.IsObject) :
    ofObject value = .error (.notObject value.kind) := by
  unfold ofObject
  split
  next members => exact absurd ⟨members, rfl⟩ noObject
  next => rfl

/-- A report is read from exactly the values that describe it. -/
theorem ofObject_eq_ok_iff {value : Value} {report : Report} :
    ofObject value = .ok report ↔ value.RecordOf Report.Describes report := by
  rw [← Report.read_iff]
  by_cases isObject : value.IsObject
  · rw [ofObject_of_object isObject]
    cases Report.read value <;> simp
  · rw [ofObject_of_not_isObject isObject]
    simp only [reduceCtorEq, false_iff, Report.read_iff]
    rintro ⟨members, rfl, -⟩
    exact isObject ⟨members, rfl⟩

/-- A value is refused by its kind iff it is no object. -/
theorem ofObject_eq_notObject_iff {value : Value} {kind : String} :
    ofObject value = .error (.notObject kind) ↔ ¬ value.IsObject ∧ value.kind = kind := by
  by_cases isObject : value.IsObject
  · rw [ofObject_of_object isObject]
    cases Report.read value <;> simp [isObject]
  · simp [ofObject_of_not_isObject isObject, isObject]

/-- A value is malformed iff it is an object that describes no report. -/
theorem ofObject_eq_malformed_iff {value : Value} :
    (∃ faults, ofObject value = .error (.malformed faults)) ↔
      value.IsObject ∧ ¬ ∃ report, value.RecordOf Report.Describes report := by
  simp only [← Report.read_iff]
  by_cases isObject : value.IsObject
  · rw [ofObject_of_object isObject]
    cases Report.read value <;> simp [isObject]
  · simp [ofObject_of_not_isObject isObject, isObject]

/-- A value that was decoded fails neither as no JSON nor beyond the limits. -/
theorem ofObject_readable (value : Value) :
    (∀ fault, ofObject value ≠ .error (.notJson fault)) ∧
      ∀ excess, ofObject value ≠ .error (.beyondLimits excess) := by
  by_cases isObject : value.IsObject
  · rw [ofObject_of_object isObject]
    cases Report.read value <;> simp
  · simp [ofObject_of_not_isObject isObject]

/-- An object that describes no report has at least one fault. -/
theorem ne_nil_of_ofObject {value : Value} {faults : List ShapeFault}
    (malformed : ofObject value = .error (.malformed faults)) : faults ≠ [] := by
  have isObject := (ofObject_eq_malformed_iff.mp ⟨faults, malformed⟩).1
  have explained := Report.explained_read value
  rw [ofObject_of_object isObject] at malformed
  cases read : Report.read value with
  | valid report => simp [read] at malformed
  | faulty others =>
      simp only [read, Except.error.injEq, DocumentFault.malformed.injEq] at malformed
      rw [read] at explained
      rintro rfl
      exact explained (by rw [malformed])

/-! ### Documents -/

/-- A document is decoded and then read. -/
theorem ofDocument_eq (depth : Nat) (document : Value) :
    ofDocument depth document = match document.decoded depth with
      | .ok value => ofObject value
      | .error (.malformed fault) => .error (.notJson fault)
      | .error (.beyondLimits excess) => .error (.beyondLimits excess) := by
  by_cases isText : ∃ text, document = .text text
  · obtain ⟨text, rfl⟩ := isText
    rfl
  · rw [Value.decoded_of_noText (not_exists.mp isText), ofDocument.eq_def]
    split
    next text => exact absurd ⟨text, rfl⟩ isText
    next => rfl

/-- A report is read from exactly the documents within the limits whose value describes it. -/
theorem ofDocument_eq_ok_iff {depth : Nat} {document : Value} {report : Report} :
    ofDocument depth document = .ok report ↔
      ∃ value, document.Yields depth value ∧ value.RecordOf Report.Describes report := by
  simp only [← Value.decoded_eq_ok_iff, ofDocument_eq]
  cases document.decoded depth with
  | ok value => simp only [Except.ok.injEq, exists_eq_left', ofObject_eq_ok_iff]
  | error fault => cases fault <;> simp

/-- A document that keeps within the limits gives a report iff the value that it stands for
describes it; it is no JSON iff it stands for no value, no object iff it stands for another value,
and malformed, with at least one fault, iff it stands for an object that describes no report. A
document that does not keep within the limits gives none of these answers. -/
theorem ofDocument_decides (depth : Nat) (document : Value) :
    (∀ report, ofDocument depth document = .ok report ↔
      ∃ value, document.Yields depth value ∧ value.RecordOf Report.Describes report) ∧
    ((∃ fault, ofDocument depth document = .error (.notJson fault)) ↔
      (¬ ∃ excess, document.Overruns depth excess) ∧ ¬ ∃ value, document.StandsFor value) ∧
    (∀ kind, ofDocument depth document = .error (.notObject kind) ↔
      ∃ value, document.Yields depth value ∧ ¬ value.IsObject ∧ value.kind = kind) ∧
    ((∃ faults, ofDocument depth document = .error (.malformed faults)) ↔
      ∃ value, document.Yields depth value ∧ value.IsObject ∧
        ¬ ∃ report, value.RecordOf Report.Describes report) ∧
    (∀ faults, ofDocument depth document = .error (.malformed faults) → faults ≠ []) ∧
    ∀ excess, ofDocument depth document = .error (.beyondLimits excess) ↔
      document.Overruns depth excess := by
  refine ⟨fun report => ofDocument_eq_ok_iff, ?_⟩
  rw [← Value.decoded_eq_malformed_iff]
  simp only [← Value.decoded_eq_ok_iff, ← Value.decoded_eq_beyondLimits_iff, ofDocument_eq]
  cases document.decoded depth with
  | ok value =>
      obtain ⟨isJson, isWithin⟩ := ofObject_readable value
      simp only [Except.ok.injEq, exists_eq_left', ofObject_eq_notObject_iff,
        ofObject_eq_malformed_iff, isJson, isWithin, reduceCtorEq, exists_false, implies_true,
        true_and, and_true]
      exact fun faults => ne_nil_of_ofObject
  | error fault => cases fault <;> simp

theorem numeralText_ones {n : Nat} (some : 0 < n) :
    Json.NumeralText (List.replicate n '1') ⟨false, List.replicate n '1', [], none⟩ := by
  obtain ⟨less, rfl⟩ := Nat.exists_eq_add_one_of_ne_zero some.ne'
  have isWhole : Json.WholeText (List.replicate (less + 1) '1') :=
    .digits (by decide) (by decide) fun d member => by
      rw [List.eq_of_mem_replicate member]
      decide
  have magnitude : Json.MagnitudeText (List.replicate (less + 1) '1' ++ ([] ++ []))
      ⟨false, List.replicate (less + 1) '1', [], none⟩ := .mk isWhole .none .none
  rw [List.append_nil, List.append_nil] at magnitude
  exact .plain magnitude rfl

/-- A text of ones spells an integer. -/
theorem standsFor_ones {n : Nat} (some : 0 < n) :
    ∃ i, (Value.text (String.ofList (List.replicate n '1'))).StandsFor (.int i) := by
  refine ⟨_, .text ⟨⟨[], List.replicate n '1', [], _⟩, ⟨nofun, nofun⟩,
    .number (numeralText_ones some) rfl nofun, ?_, rfl⟩⟩
  rw [Json.Piece.written, List.nil_append, List.append_nil, String.toList_ofList]

/-- A text of too many ones overruns the limits at once, whatever the depth. -/
theorem overruns_ones {depth n : Nat} (many : digitLimit < n) :
    (Value.text (String.ofList (List.replicate n '1'))).Overruns depth
      (.integer digitLimit n) := by
  have exceeds : Json.Exceeds (storedTextLimits depth) 0 (List.replicate n '1' ++ [])
      (.integer digitLimit (List.replicate n '1').length) :=
    .integer (numeralText_ones (by omega)) ⟨rfl, rfl⟩ (by rwa [List.length_replicate]) nofun
  rw [List.append_nil, List.length_replicate] at exceeds
  exact Value.overruns_text.mpr ⟨[], _, nofun, exceeds, String.toList_ofList⟩

/-- A text of 4301 digits spells an integer, and is taken neither for a report nor for any of the
faults of one. -/
theorem ofDocument_of_long_integer :
    (∃ i, (Value.text (String.ofList (List.replicate 4301 '1'))).StandsFor (.int i)) ∧
      ∀ depth, Report.ofDocument depth (.text (String.ofList (List.replicate 4301 '1'))) =
        .error (.beyondLimits (.integer 4300 4301)) := by
  refine ⟨standsFor_ones (by decide), fun depth => ?_⟩
  have overruns : (Value.text (String.ofList (List.replicate 4301 '1'))).Overruns depth
      (.integer digitLimit 4301) := overruns_ones (by decide)
  rw [ofDocument_eq, Value.decoded_eq_beyondLimits_iff.mpr overruns]
  rfl

end Report

end Reporting
