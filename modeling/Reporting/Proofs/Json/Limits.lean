import Reporting.Proofs.Json.Decoding

/-!
# Reading within limits

Limits change nothing but one thing: a text that goes beyond them is reported, and the grammar says
which texts these are (`read_eq_beyondLimits_iff`). All other texts are read as without limits
(`read_within`).
-/

namespace Reporting.Json

open Text

/-! ### Texts that go beyond the limits -/

/-- An escape goes beyond no limit. -/
theorem readUnit_ne_beyondLimits (text : List Char) (excess : Excess) :
    readUnit text ≠ .error (.beyondLimits excess) := by
  unfold readUnit
  repeat' split
  all_goals simp

/-- No limit is on the length of texts. -/
theorem readString_ne_beyondLimits (opening fuel : Nat) (before text : List Char)
    (excess : Excess) : readString opening fuel before text ≠ .error (.beyondLimits excess) := by
  induction fuel generalizing before text with
  | zero => simp [readString]
  | succ fuel ih =>
      cases text with
      | nil => simp [readString]
      | cons c rest =>
          rw [readString.eq_def]
          dsimp only
          split
          next => simp
          next =>
            split
            next =>
              split
              next => simp
              next =>
                split
                next failed =>
                  intro beyond
                  rw [Except.error.inj beyond] at failed
                  exact readUnit_ne_beyondLimits _ excess failed
                next => exact ih _ _
              next =>
                split
                next => exact ih _ _
                next => simp
            next =>
              split
              next => simp
              next => exact ih _ _

theorem readText_ne_beyondLimits (text : List Char) (excess : Excess) :
    readText text ≠ .error (.beyondLimits excess) :=
  readString_ne_beyondLimits _ _ _ _ _

/-- Behind a number of several digits without a fraction and an exponent the text does not go on
with it: the reader has taken as much as there is. -/
theorem not_continues_readMagnitude? {negative : Bool} {text rest : List Char} {numeral : Numeral}
    (read : readMagnitude? negative text = some (numeral, rest)) (isInteger : numeral.IsInteger)
    (several : 1 < numeral.whole.length) : ¬ Continues rest := by
  obtain ⟨⟨whole, behind⟩, wholeRead, built⟩ := Option.bind_eq_some_iff.mp read
  obtain ⟨rfl, rfl⟩ := Prod.mk.inj (Option.some.inj built)
  obtain ⟨noFraction, noExponent⟩ := isInteger
  have fractionLeft := readFraction_eq_nil noFraction
  rw [fractionLeft] at noExponent ⊢
  have exponentLeft := readExponent_eq_none noExponent
  rw [exponentLeft]
  intro continues
  cases continues with
  | digit digit =>
      have stops := readWhole?_stops wholeRead several
      rw [stops _ rfl] at digit
      cases digit
  | fraction digit => exact readFraction_ne_nil digit noFraction
  | exponent isLetter isSign digit => exact readExponent_ne_none isLetter isSign digit noExponent

/-- An integer that was read in full does not go on. -/
theorem not_continues_readNumeral? {text rest : List Char} {numeral : Numeral}
    (read : readNumeral? text = some (numeral, rest)) (isInteger : numeral.IsInteger)
    (several : 1 < numeral.whole.length) : ¬ Continues rest := by
  by_cases minus : '-' ∈ text.head?
  · obtain ⟨more, rfl⟩ := List.head?_eq_some_iff.mp minus
    rw [readNumeral?_minus] at read
    exact not_continues_readMagnitude? read isInteger several
  · rw [readNumeral?_plain minus] at read
    exact not_continues_readMagnitude? read isInteger several

variable {bounds : Limits}

/-- A container is too deep only inside as many others as are allowed. -/
theorem keepWithin_eq_beyondLimits {container : Container} {outside : Nat} {excess : Excess}
    (beyond : keepWithin (some bounds) (deepContainer? container outside) =
      .error (.beyondLimits excess)) :
    bounds.depth ≤ outside ∧ excess = .depth container := by
  by_cases deep : bounds.depth ≤ outside
  · rw [keepWithin_deep deep] at beyond
    cases beyond
    exact ⟨deep, rfl⟩
  · have kept : keepWithin (some bounds) (deepContainer? container outside) = .ok () :=
      shallow_iff.mpr (shallow_some.mpr (not_le.mp deep))
    rw [kept] at beyond
    cases beyond

/-- A number is too long only if it is an integer of more digits than are allowed. -/
theorem numeral_value_eq_beyondLimits {numeral : Numeral} {excess : Excess}
    (beyond : numeral.value (some bounds) = .error (.beyondLimits excess)) :
    numeral.IsInteger ∧ bounds.digits < numeral.whole.length ∧
      excess = .integer bounds.digits numeral.whole.length := by
  unfold Numeral.value at beyond
  split at beyond
  next integer =>
    by_cases long : bounds.digits < numeral.whole.length
    · have isInteger := isInteger_iff.mp integer
      have value := numeral_value_long isInteger long
      rw [Numeral.value, if_pos integer] at value
      rw [value] at beyond
      cases beyond
      exact ⟨isInteger, long, rfl⟩
    · simp [keepWithin, longInteger?, long, bind, Except.bind, pure, Except.pure] at beyond
  next => cases beyond

/-- A word or a number that is beyond the limits starts with what exceeds them. -/
theorem readPlain_beyondLimits (some : 0 < bounds.digits) {text : List Char} {excess : Excess}
    (beyond : readPlain (.some bounds) text = .error (.beyondLimits excess)) (outside : Nat) :
    Exceeds bounds outside text excess := by
  unfold readPlain at beyond
  split at beyond
  case h_7 =>
    split at beyond
    next => cases beyond
    next numeral rest found =>
      obtain ⟨isInteger, long, rfl⟩ :=
        numeral_value_eq_beyondLimits (Outcome.map_eq_error.mp beyond)
      have ends := not_continues_readNumeral? found isInteger (by omega)
      obtain ⟨word, isNumeral, rfl⟩ := readNumeral?_sound found
      exact .integer isNumeral isInteger long ends
  all_goals cases beyond

/-- One of the items of a list goes beyond the limits, behind others that do not. -/
def ItemExceeds (bounds : Limits) (outside : Nat) (text : List Char) (excess : Excess) : Prop :=
  ∃ (pieces : List Piece) (before value : List Char), (∀ piece ∈ pieces, piece.Padded) ∧
    (∀ piece ∈ pieces, Spells (some bounds) outside piece.text piece.value) ∧
    IsBlanks before ∧ Exceeds bounds outside value excess ∧
    text = ahead (pieces.map Piece.written) ++ (before ++ value)

/-- The value of a member of an object goes beyond the limits, behind others that do not. -/
def MemberExceeds (bounds : Limits) (outside : Nat) (text : List Char) (excess : Excess) : Prop :=
  ∃ (entries : List Entry) (beforeKey body key behindKey before value : List Char),
    (∀ entry ∈ entries, entry.Padded) ∧ (∀ entry ∈ entries, Body entry.body entry.key) ∧
    (∀ entry ∈ entries, Spells (some bounds) outside entry.piece.text entry.piece.value) ∧
    IsBlanks beforeKey ∧ Body body key ∧ IsBlanks behindKey ∧ IsBlanks before ∧
    Exceeds bounds outside value excess ∧
    text = ahead (entries.map Entry.written) ++
      (label beforeKey body behindKey ++ (before ++ value))

/-- What the reader reports within an amount of fuel goes beyond the limits. -/
structure Reports (bounds : Limits) (fuel : Nat) : Prop where
  value : ∀ {outside : Nat} {text : List Char} {excess : Excess},
    readValue (some bounds) fuel outside text = .error (.beyondLimits excess) →
      Exceeds bounds outside text excess
  items : ∀ {outside : Nat} {read : List Value} {text : List Char} {excess : Excess},
    readItems (some bounds) fuel outside read (skipBlank text) = .error (.beyondLimits excess) →
      ItemExceeds bounds outside text excess
  members : ∀ {outside : Nat} {read : List (String × Value)} {text : List Char} {excess : Excess},
    readMembers (some bounds) fuel outside read (skipBlank text) =
        .error (.beyondLimits excess) →
      MemberExceeds bounds outside text excess

namespace Reports

variable {fuel : Nat}

/-- With one more unit of fuel what is reported still goes beyond the limits. -/
theorem succ_value (reports : Reports bounds fuel) (some : 0 < bounds.digits) {outside : Nat}
    {text : List Char} {excess : Excess}
    (beyond : readValue (.some bounds) (fuel + 1) outside text = .error (.beyondLimits excess)) :
    Exceeds bounds outside text excess := by
  rw [readValue.eq_def] at beyond
  dsimp only at beyond
  split at beyond
  next => exact absurd (Outcome.map_eq_error.mp beyond) (readText_ne_beyondLimits _ _)
  next left =>
    rcases Outcome.bind_eq_error.mp beyond with failed | ⟨_, shallow, beyond⟩
    · obtain ⟨deep, rfl⟩ := keepWithin_eq_beyondLimits failed
      exact .object deep
    · rw [shallow_iff, shallow_some] at shallow
      split at beyond
      next => cases beyond
      next =>
        obtain ⟨entries, beforeKey, body, key, behindKey, before, value, padded, keys, each,
          blanksBefore, isBody, blanksBehind, isBlanks, inside, rfl⟩ := reports.members beyond
        exact .member shallow padded keys each blanksBefore isBody blanksBehind isBlanks inside
  next left =>
    rcases Outcome.bind_eq_error.mp beyond with failed | ⟨_, shallow, beyond⟩
    · obtain ⟨deep, rfl⟩ := keepWithin_eq_beyondLimits failed
      exact .list deep
    · rw [shallow_iff, shallow_some] at shallow
      split at beyond
      next => cases beyond
      next =>
        obtain ⟨pieces, before, value, padded, each, isBlanks, inside, rfl⟩ :=
          reports.items beyond
        exact .item shallow padded each isBlanks inside
  next => exact readPlain_beyondLimits some beyond outside

/-- So it does inside a list. -/
theorem succ_items (reports : Reports bounds fuel) {outside : Nat} {read : List Value}
    {text : List Char} {excess : Excess}
    (beyond : readItems (some bounds) (fuel + 1) outside read (skipBlank text) =
      .error (.beyondLimits excess)) :
    ItemExceeds bounds outside text excess := by
  rw [readItems_succ] at beyond
  rcases Outcome.bind_eq_error.mp beyond with here | ⟨⟨item, left⟩, itemRead, behind⟩
  · obtain ⟨before, isBlanks, split⟩ := exists_skipBlank text
    exact ⟨[], before, skipBlank text, by simp, by simp, isBlanks, reports.value here,
      by simpa [ahead] using split⟩
  · dsimp only at behind
    split at behind
    next => cases behind
    next ended =>
      obtain ⟨piece, padded, spells, -, rfl⟩ :=
        exists_piece ((sound _ fuel).value itemRead) ended
      obtain ⟨pieces, before, value, allPadded, each, isBlanks, inside, rfl⟩ :=
        reports.items behind
      exact ⟨piece :: pieces, before, value, List.forall_mem_cons.mpr ⟨padded, allPadded⟩,
        List.forall_mem_cons.mpr ⟨spells, each⟩, isBlanks, inside, by simp⟩
    next => cases behind

/-- So it does inside an object. -/
theorem succ_members (reports : Reports bounds fuel) {outside : Nat}
    {read : List (String × Value)} {text : List Char} {excess : Excess}
    (beyond : readMembers (some bounds) (fuel + 1) outside read (skipBlank text) =
      .error (.beyondLimits excess)) :
    MemberExceeds bounds outside text excess := by
  rw [readMembers.eq_def] at beyond
  dsimp only at beyond
  split at beyond
  next opened =>
    rcases Outcome.bind_eq_error.mp beyond with keyFailed | ⟨⟨key, left⟩, keyRead, behindKey⟩
    · exact absurd keyFailed (readText_ne_beyondLimits _ _)
    · dsimp only at behindKey
      split at behindKey
      next colon =>
        obtain ⟨blanks, body, out, gap, blanksBefore, isBody, blanksBehind, rfl, rfl⟩ :=
          exists_label keyRead opened colon
        rcases Outcome.bind_eq_error.mp behindKey with
          here | ⟨⟨member, left⟩, memberRead, behind⟩
        · obtain ⟨before, isBlanks, split⟩ := exists_skipBlank _
          refine ⟨[], blanks, body, out, gap, before, _, by simp, by simp, by simp, blanksBefore,
            isBody, blanksBehind, isBlanks, reports.value here, ?_⟩
          rw [← split]
          rfl
        · dsimp only at behind
          split at behind
          next => cases behind
          next ended =>
            obtain ⟨piece, padded, spells, -, rfl⟩ :=
              exists_piece ((sound _ fuel).value memberRead) ended
            obtain ⟨entries, beforeLater, laterBody, later, behindLater, before, value, allPadded,
              keys, each, blanksBeforeLater, isLaterBody, blanksBehindLater, isBlanks, inside,
              rfl⟩ := reports.members behind
            refine ⟨⟨blanks, body, out, gap, piece⟩ :: entries, beforeLater, laterBody, later,
              behindLater, before, value,
              List.forall_mem_cons.mpr ⟨⟨blanksBefore, blanksBehind, padded⟩, allPadded⟩,
              List.forall_mem_cons.mpr ⟨isBody, keys⟩, List.forall_mem_cons.mpr ⟨spells, each⟩,
              blanksBeforeLater, isLaterBody, blanksBehindLater, isBlanks, inside, ?_⟩
            simp [Entry.written]
          next => cases behind
      next => cases behindKey
  next => cases beyond

end Reports

/-- Whatever the fuel, what the reader reports goes beyond the limits. -/
theorem reports (some : 0 < bounds.digits) (fuel : Nat) : Reports bounds fuel := by
  induction fuel with
  | zero =>
      constructor
      · intro outside text excess beyond
        rw [readValue] at beyond
        cases beyond
      · intro outside read text excess beyond
        rw [readItems] at beyond
        cases beyond
      · intro outside read text excess beyond
        rw [readMembers] at beyond
        cases beyond
  | succ fuel ih => exact ⟨ih.succ_value some, ih.succ_items, ih.succ_members⟩

/-- A document is beyond the limits iff it exceeds them behind the blanks in front. -/
theorem readDocument_eq_beyondLimits_iff (some : 0 < bounds.digits) {text : List Char}
    {excess : Excess} :
    readDocument (.some bounds) text = .error (.beyondLimits excess) ↔
      ∃ before value, IsBlanks before ∧ Exceeds bounds 0 value excess ∧ text = before ++ value := by
  constructor
  · intro beyond
    rw [readDocument] at beyond
    split at beyond
    next => cases beyond
    next =>
      rcases Outcome.bind_eq_error.mp beyond with here | ⟨⟨found, left⟩, -, behind⟩
      · obtain ⟨before, isBlanks, split⟩ := exists_skipBlank text
        exact ⟨before, skipBlank text, isBlanks, (reports some _).value here, split⟩
      · dsimp only at behind
        split at behind
        next => cases behind
        next => cases behind
  · rintro ⟨before, value, isBlanks, exceeds, rfl⟩
    have enough : 2 * value.length < 2 * (before ++ value).length + 1 := by
      rw [List.length_append]
      omega
    have read := readDocument_of_starts (.some bounds) isBlanks (head?_exceeds exceeds) []
    rw [List.append_nil, readValue_of_exceeds exceeds _ enough] at read
    exact read

/-- The reader reports an excess iff the text goes beyond the limits in this way. -/
theorem read_eq_beyondLimits_iff (some : 0 < bounds.digits) {text : String} {excess : Excess} :
    read (.some bounds) text = .error (.beyondLimits excess) ↔ Overruns bounds text excess := by
  rw [Overruns, ← readDocument_eq_beyondLimits_iff some, read]
  cases readDocument (.some bounds) text.toList with
  | ok found => simp
  | error halt => cases halt <;> simp

/-! ### All other texts -/

/-- With limits the outcome is the one without limits, or an excess. -/
def Within {α : Type} (limited free : Except Halt α) : Prop :=
  limited = free ∨ ∃ excess, limited = .error (.beyondLimits excess)

/-- Steps one behind the other are within limits where each is. -/
theorem within_bind {α β : Type} {limited free : Except Halt α} {next others : α → Except Halt β}
    (first : Within limited free) (behind : ∀ value, Within (next value) (others value)) :
    Within (limited >>= next) (free >>= others) := by
  rcases first with rfl | ⟨excess, rfl⟩
  · cases limited with
    | ok value => exact behind value
    | error halt => exact .inl rfl
  · exact .inr ⟨excess, rfl⟩

theorem within_keepWithin (excess? : Limits → Option Excess) :
    Within (keepWithin (some bounds) excess?) (keepWithin none excess?) := by
  unfold keepWithin
  split
  next => exact .inr ⟨_, rfl⟩
  next => exact .inl rfl

theorem Within.map {α β : Type} {limited free : Except Halt α} (within : Within limited free)
    (f : α → β) : Within (limited.map f) (free.map f) := by
  rcases within with rfl | ⟨excess, rfl⟩
  · exact .inl rfl
  · exact .inr ⟨excess, rfl⟩

/-- The value of a number is within limits or too long. -/
theorem within_value (numeral : Numeral) :
    Within (numeral.value (some bounds)) (numeral.value none) := by
  unfold Numeral.value
  split
  next => exact within_bind (within_keepWithin _) fun _ => .inl rfl
  next => exact .inl rfl

/-- A word or a number is read alike with limits, or goes beyond them. -/
theorem within_readPlain (text : List Char) :
    Within (readPlain (some bounds) text) (readPlain none text) := by
  unfold readPlain
  split
  case h_7 =>
    split
    next => exact .inl rfl
    next numeral rest _ => exact (within_value numeral).map _
  all_goals exact .inl rfl

/-- Within an amount of fuel the limits change nothing but to report an excess. -/
structure Agrees (bounds : Limits) (fuel : Nat) : Prop where
  value : ∀ outside text,
    Within (readValue (some bounds) fuel outside text) (readValue none fuel outside text)
  items : ∀ outside read text,
    Within (readItems (some bounds) fuel outside read text) (readItems none fuel outside read text)
  members : ∀ outside read text,
    Within (readMembers (some bounds) fuel outside read text)
      (readMembers none fuel outside read text)

/-- One more unit of fuel keeps the agreement. -/
theorem Agrees.succ {fuel : Nat} (agrees : Agrees bounds fuel) : Agrees bounds (fuel + 1) where
  value := by
    intro outside text
    rw [readValue.eq_def, readValue.eq_def none]
    dsimp only
    split
    next => exact .inl rfl
    next =>
      refine within_bind (within_keepWithin _) fun _ => ?_
      split
      next => exact .inl rfl
      next => exact agrees.members _ _ _
    next =>
      refine within_bind (within_keepWithin _) fun _ => ?_
      split
      next => exact .inl rfl
      next => exact agrees.items _ _ _
    next => exact within_readPlain _
  items := by
    intro outside read text
    rw [readItems_succ, readItems_succ]
    refine within_bind (agrees.value _ _) fun found => ?_
    dsimp only
    split
    next => exact .inl rfl
    next => exact agrees.items _ _ _
    next => exact .inl rfl
  members := by
    intro outside read text
    rw [readMembers.eq_def, readMembers.eq_def none]
    dsimp only
    split
    next =>
      refine within_bind (.inl rfl) fun key => ?_
      split
      next =>
        refine within_bind (agrees.value _ _) fun found => ?_
        split
        next => exact .inl rfl
        next => exact agrees.members _ _ _
        next => exact .inl rfl
      next => exact .inl rfl
    next => exact .inl rfl

/-- Whatever the fuel, limits change nothing but to report an excess. -/
theorem agrees (bounds : Limits) (fuel : Nat) : Agrees bounds fuel := by
  induction fuel with
  | zero =>
      constructor
      · intro outside text
        rw [readValue, readValue]
        exact .inl rfl
      · intro outside read text
        rw [readItems, readItems]
        exact .inl rfl
      · intro outside read text
        rw [readMembers, readMembers]
        exact .inl rfl
  | succ fuel ih => exact ih.succ

/-- Limits change nothing of a document but to report an excess. -/
theorem within_readDocument (bounds : Limits) (text : List Char) :
    Within (readDocument (some bounds) text) (readDocument none text) := by
  rw [readDocument, readDocument]
  split
  next => exact .inl rfl
  next => exact within_bind ((agrees bounds _).value _ _) fun _ => .inl rfl

/-- A text is read as without limits, unless the reader reports an excess. -/
theorem read_within (bounds : Limits) (text : String) :
    read (some bounds) text = read none text ∨
      ∃ excess, read (some bounds) text = .error (.beyondLimits excess) := by
  rw [read, read]
  rcases within_readDocument bounds text.toList with same | ⟨excess, beyond⟩
  · exact .inl (by rw [same])
  · exact .inr ⟨excess, by rw [beyond]⟩

/-- Within limits a text has the value that it has without limits. -/
theorem read_eq_ok_iff_represents (some : 0 < bounds.digits) {text : String} {value : Value} :
    read (.some bounds) text = .ok value ↔
      (¬ ∃ excess, Overruns bounds text excess) ∧ Represents none text value := by
  simp only [← read_eq_beyondLimits_iff some, ← read_eq_ok_iff]
  rcases read_within bounds text with same | ⟨excess, beyond⟩
  · rw [same]
    constructor
    · intro decoded
      exact ⟨by simp [decoded], decoded⟩
    · exact And.right
  · simp [beyond]

/-- The reader finds a fault in a text iff the text keeps within the limits and has no value. -/
theorem read_eq_malformed_iff (some : 0 < bounds.digits) {text : String} :
    (∃ fault, read (.some bounds) text = .error (.malformed fault)) ↔
      (¬ ∃ excess, Overruns bounds text excess) ∧ ¬ ∃ value, Represents none text value := by
  simp only [← read_eq_beyondLimits_iff some, ← read_eq_ok_iff]
  rcases read_within bounds text with same | ⟨excess, beyond⟩
  · rw [same]
    cases read none text with
    | ok value => simp
    | error fault => cases fault <;> simp
  · simp [beyond]

end Reporting.Json
