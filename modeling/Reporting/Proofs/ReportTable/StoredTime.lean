import Reporting.Proofs.Outcome
import Reporting.Proofs.Text.Digit
import Reporting.ReportTable

/-!
# Times as they are stored

A stored time is a text of numbers at their full widths, so texts stand in the order of their times:
`StoredTime.text_lt_iff`. A fraction is written only for a submitted time, and so of two equal times
the text of the one without a fraction comes first. All this holds of times whose numbers fit their
widths (`StoredTime.InRange`), as the numbers of every time do that is read from a text
(`StoredTime.inRange_of_ofIso`).
-/

namespace Reporting

namespace StoredTime

/-- Every number of the time fits its width. -/
structure InRange (t : StoredTime) : Prop where
  year : t.date.year < 10 ^ 4
  month : t.date.month < 10 ^ 2
  day : t.date.day < 10 ^ 2
  hour : t.hour < 10 ^ 2
  minute : t.minute < 10 ^ 2
  second : t.second < 10 ^ 2
  microsecond : ∀ n, t.microsecond = some n → n < 10 ^ 6

/-- The numbers of the time, the greatest unit first. -/
def fields (t : StoredTime) : List Nat :=
  [t.date.year, t.date.month, t.date.day, t.hour, t.minute, t.second, t.microsecond.getD 0]

/-- The text behind the seconds. -/
def fraction (t : StoredTime) : List Char :=
  match t.microsecond with
  | some n => '.' :: (Moment.padded 6 n).toList
  | none => []

/-- The stored text, number by number, and the fraction behind it. -/
theorem toList_text (t : StoredTime) :
    t.text.toList = (Moment.padded 4 t.date.year).toList ++ '-' ::
      ((Moment.padded 2 t.date.month).toList ++ '-' ::
        ((Moment.padded 2 t.date.day).toList ++ ' ' :: ((Moment.padded 2 t.hour).toList ++ ':' ::
          ((Moment.padded 2 t.minute).toList ++ ':' ::
            ((Moment.padded 2 t.second).toList ++ t.fraction))))) := by
  unfold text fraction
  cases t.microsecond <;> simp [String.toList_append]

variable {a b : StoredTime}

/-- Fractions stand in the order of their numbers, and none comes before zero. -/
theorem fraction_lt_iff (fits : a.InRange) (fitsToo : b.InRange) :
    a.fraction < b.fraction ↔ a.microsecond.getD 0 < b.microsecond.getD 0 ∨
      a.microsecond.getD 0 = b.microsecond.getD 0 ∧
        a.microsecond = none ∧ b.microsecond.isSome = true := by
  unfold fraction
  cases left : a.microsecond with
  | none =>
      cases right : b.microsecond with
      | none => simp
      | some n =>
          have positive : 0 < n ∨ 0 = n := by omega
          simpa using positive
  | some m =>
      cases right : b.microsecond with
      | none => simp
      | some n =>
          have bound := fits.microsecond m left
          have boundToo := fitsToo.microsecond n right
          simp [Moment.padded_lt_padded_iff bound boundToo]

/-- Texts stand in the order of their times, and of equal times the one without a fraction comes
first. -/
theorem text_lt_iff (fits : a.InRange) (fitsToo : b.InRange) :
    a.text < b.text ↔ a.fields < b.fields ∨
      a.fields = b.fields ∧ a.microsecond = none ∧ b.microsecond.isSome = true := by
  rw [String.lt_iff_toList_lt, toList_text, toList_text,
    Moment.padded_append_lt_iff fits.year fitsToo.year, List.cons_lt_cons_iff,
    Moment.padded_append_lt_iff fits.month fitsToo.month, List.cons_lt_cons_iff,
    Moment.padded_append_lt_iff fits.day fitsToo.day, List.cons_lt_cons_iff,
    Moment.padded_append_lt_iff fits.hour fitsToo.hour, List.cons_lt_cons_iff,
    Moment.padded_append_lt_iff fits.minute fitsToo.minute, List.cons_lt_cons_iff,
    Moment.padded_append_lt_iff fits.second fitsToo.second, fraction_lt_iff fits fitsToo]
  simp only [fields, List.cons_lt_cons_iff, List.cons.injEq, lt_irrefl, false_or, true_and,
    and_true, and_false, or_false]
  tauto

/-- Times with the same numbers are the same, if both have a fraction or neither has. -/
theorem eq_of_fields_eq (same : a.fields = b.fields)
    (alike : a.microsecond = none ↔ b.microsecond = none) : a = b := by
  obtain ⟨⟨year, month, day⟩, hour, minute, second, left⟩ := a
  obtain ⟨⟨_, _, _⟩, _, _, _, right⟩ := b
  simp only [fields, List.cons.injEq, and_true] at same
  obtain ⟨rfl, rfl, rfl, rfl, rfl, rfl, same⟩ := same
  cases left with
  | none => rw [show right = none from alike.mp rfl]
  | some m =>
      cases right with
      | none => cases alike.mpr rfl
      | some n => rw [show m = n from same]

/-- Different times have different texts. -/
theorem text_eq_iff (fits : a.InRange) (fitsToo : b.InRange) : a.text = b.text ↔ a = b := by
  refine ⟨fun same => ?_, congrArg text⟩
  have less : ¬ a.text < b.text := not_lt_of_ge same.ge
  have greater : ¬ b.text < a.text := not_lt_of_ge same.le
  rw [text_lt_iff fits fitsToo, not_or, not_and] at less
  rw [text_lt_iff fitsToo fits, not_or, not_and] at greater
  have fields : a.fields = b.fields := by
    rcases lt_trichotomy a.fields b.fields with before | fields | behind
    · exact absurd before less.1
    · exact fields
    · exact absurd behind greater.1
  refine eq_of_fields_eq fields ⟨fun none => ?_, fun none => ?_⟩
  · simpa [none] using less.2 fields
  · simpa [none] using greater.2 fields.symm

end StoredTime

/-! ### Times that are read from texts -/

namespace CalendarDate

theorem daysIn_le (year month : Nat) : daysIn year month ≤ 31 := by
  unfold daysIn
  repeat' split
  all_goals decide

/-- The numbers of a date that is in range. -/
theorem bounds_of_checkRange {date : CalendarDate} (checked : date.checkRange = .ok ()) :
    date.year ≤ 9999 ∧ date.month ≤ 12 ∧ date.day ≤ 31 := by
  obtain ⟨year, others⟩ := Outcome.guarded_eq_ok.mp checked
  obtain ⟨month, others⟩ := Outcome.guarded_eq_ok.mp others
  have days := daysIn_le date.year date.month
  split at others
  · cases others
  next day =>
    simp only [Bool.or_eq_true, decide_eq_true_eq] at year month day
    omega

end CalendarDate

namespace Moment.Iso

/-- A number of so many digits fits their width. -/
theorem number?_eq_some {digits : List Char} {n : Nat} (read : number? digits = some n) :
    n < 10 ^ digits.length := by
  unfold number? at read
  split at read
  next each =>
    rw [← Option.some.inj read]
    exact Text.digitsValue_lt (List.all_eq_true.mp each)
  · cases read

/-- A fraction counts less than a second. -/
theorem microsecond_lt_of_readFraction? {units : List Nat} {span : Nat} {text : List Char}
    {parts : Parts} (read : readFraction? units span text = some parts) :
    parts.microsecond < 10 ^ 6 := by
  simp only [readFraction?] at read
  split at read
  · cases read
  next long =>
    obtain ⟨value, number, same⟩ := Option.bind_eq_some_iff.mp read
    obtain rfl := Option.some.inj same
    have count : (text.take (min span 6)).length = min span 6 := by
      rw [List.length_take]
      omega
    have bound := number?_eq_some number
    rw [count] at bound
    calc value * Nat.pow 10 (6 - min span 6)
        < 10 ^ min span 6 * 10 ^ (6 - min span 6) :=
          Nat.mul_lt_mul_of_pos_right bound (Nat.pow_pos (by decide))
      _ = 10 ^ 6 := by rw [← Nat.pow_add, Nat.add_sub_cancel' (Nat.min_le_right span 6)]

/-- However many parts a time has, its microseconds fit six digits. -/
theorem microsecond_lt_of_readParts? {left : Nat} {colons : Option Bool} {units : List Nat}
    {span : Nat} {text : List Char} {parts : Parts}
    (read : readParts? left colons units span text = some parts) : parts.microsecond < 10 ^ 6 := by
  induction left generalizing colons units span text with
  | zero => exact microsecond_lt_of_readFraction? read
  | succ left ih =>
      unfold readParts? at read
      split at read
      next a b rest =>
        obtain ⟨unit, -, read⟩ := Option.bind_eq_some_iff.mp read
        simp only at read
        split at read
        · rw [← Option.some.inj read]
          exact Nat.pow_pos (by decide)
        split at read
        · exact ih read
        split at read
        · exact microsecond_lt_of_readFraction? read
        split at read
        · cases read
        · exact ih read
      next => cases read

/-- They do with an offset behind them. -/
theorem microsecond_lt_of_readTime? {text : List Char} {parts : Parts} {offset : Option Int}
    (read : readTime? text = some (parts, offset)) : parts.microsecond < 10 ^ 6 := by
  obtain ⟨other, parsed, read⟩ := Option.bind_eq_some_iff.mp read
  have same : other = parts := by
    split at read
    · split at read
      · cases read
        rfl
      · cases read
    · obtain ⟨span, -, same⟩ := Option.bind_eq_some_iff.mp read
      cases same
      rfl
  exact same ▸ microsecond_lt_of_readParts? parsed

/-- They do with a date in front of them. -/
theorem microsecond_lt_of_readText? {text : List Char} {date : CalendarDate} {parts : Parts}
    {offset : Option Int} (read : readText? text = some (date, parts, offset)) :
    parts.microsecond < 10 ^ 6 := by
  obtain ⟨_, -, read⟩ := Option.bind_eq_some_iff.mp read
  split at read
  · cases read
    decide
  · obtain ⟨_, timed, same⟩ := Option.bind_eq_some_iff.mp read
    cases same
    exact microsecond_lt_of_readTime? timed

/-- The numbers of a time of day that is in range. -/
theorem bounds_of_timeOfDay {parts : Parts} {offset : Option Int} {time : TimeOfDay}
    (checked : timeOfDay parts offset = .ok time) :
    time.hour ≤ 23 ∧ time.minute ≤ 59 ∧ time.second ≤ 59 ∧
      time.microsecond = parts.microsecond := by
  obtain ⟨hour, others⟩ := Outcome.guarded_eq_ok.mp checked
  obtain ⟨minute, others⟩ := Outcome.guarded_eq_ok.mp others
  obtain ⟨second, others⟩ := Outcome.guarded_eq_ok.mp others
  obtain rfl := Outcome.pure_eq_ok.mp others
  exact ⟨not_lt.mp hour, not_lt.mp minute, not_lt.mp second, rfl⟩

end Moment.Iso

/-- What is read from a text has a date and a time of day that are in range. -/
theorem Moment.exists_of_ofIso {text : String} {m : Moment} (read : ofIso text = .ok m) :
    ∃ parts offset time, Iso.readText? text.toList = some (m.date, parts, offset) ∧
      m.date.checkRange = .ok () ∧ Iso.timeOfDay parts offset = .ok time ∧ m.time = some time := by
  unfold ofIso at read
  split at read
  · cases read
  next date parts offset parsed =>
    have finished (rest : (date.checkRange >>= fun _ =>
        Iso.timeOfDay parts offset >>= fun time => pure (⟨date, some time⟩ : Moment)) = .ok m) :
        ∃ parts offset time, Iso.readText? text.toList = some (m.date, parts, offset) ∧
          m.date.checkRange = .ok () ∧ Iso.timeOfDay parts offset = .ok time ∧
          m.time = some time := by
      obtain ⟨checked, rest⟩ := Outcome.check_bind_eq_ok.mp rest
      obtain ⟨time, timed, same⟩ := Outcome.bind_eq_ok.mp rest
      obtain rfl := Outcome.pure_eq_ok.mp same
      exact ⟨parts, offset, time, parsed, checked, timed, rfl⟩
    cases offset with
    | none => exact finished read
    | some span => exact finished (Outcome.guarded_eq_ok.mp read).2

/-- The numbers of a time that is read from a text fit their widths. -/
theorem StoredTime.inRange_of_ofIso {text : String} {m : Moment}
    (read : Moment.ofIso text = .ok m) : (ofMoment m).InRange := by
  obtain ⟨parts, offset, time, parsed, checked, timed, given⟩ := Moment.exists_of_ofIso read
  obtain ⟨year, month, day⟩ := CalendarDate.bounds_of_checkRange checked
  obtain ⟨hour, minute, second, same⟩ := Moment.Iso.bounds_of_timeOfDay timed
  have fraction := Moment.Iso.microsecond_lt_of_readText? parsed
  have made : ofMoment m =
      ⟨m.date, time.hour, time.minute, time.second, some time.microsecond⟩ := by
    rw [ofMoment, given, Option.getD_some]
  rw [made]
  refine ⟨year.trans_lt (by decide), month.trans_lt (by decide), day.trans_lt (by decide),
    hour.trans_lt (by decide), minute.trans_lt (by decide), second.trans_lt (by decide),
    fun n written => ?_⟩
  rw [← Option.some.inj written, same]
  exact fraction

end Reporting
