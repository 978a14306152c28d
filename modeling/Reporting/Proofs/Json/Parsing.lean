import Reporting.Proofs.Json.Leaves

/-!
# The reader and the grammar

Reading a text gives a value exactly where the grammar does (`read_eq_ok_iff`). One way it is shown
with the fuel of the reader, which takes a piece off the text at every step, and the other way with
the rules of the grammar: a piece of text is read in full, whatever stands behind it, as long as
this starts with a blank, a comma or a closing bracket.
-/

namespace Reporting.Json

open Text

variable {limits : Option Limits}

/-! ### Limits -/

/-- Limits are kept iff there are none or nothing exceeds them. -/
theorem keepWithin_eq_ok {excess? : Limits → Option Excess} :
    keepWithin limits excess? = .ok () ↔
      ∀ bounds, limits = some bounds → excess? bounds = none := by
  unfold keepWithin
  cases limits with
  | none => simp
  | some bounds => cases found : excess? bounds <;> simp [found]

/-- A container keeps within the limits iff it does not stand too deep. -/
theorem shallow_iff {container : Container} {outside : Nat} :
    keepWithin limits (deepContainer? container outside) = .ok () ↔ Shallow limits outside := by
  rw [keepWithin_eq_ok]
  refine forall₂_congr fun bounds _ => ?_
  simp [deepContainer?]

/-- A number without a fraction and an exponent is an integer. -/
theorem isInteger_iff {numeral : Numeral} :
    (numeral.fraction.isEmpty && numeral.exponent.isNone) = true ↔ numeral.IsInteger := by
  rw [Bool.and_eq_true, List.isEmpty_iff, Option.isNone_iff_eq_none, Numeral.IsInteger]

/-- A number has the same value with and without limits, as long as it is short enough. -/
theorem numeral_value_eq_ok {numeral : Numeral} {value : Value} :
    numeral.value limits = .ok value ↔ numeral.value none = .ok value ∧ Short limits numeral := by
  unfold Numeral.value
  split
  next integer =>
    have isInteger := isInteger_iff.mp integer
    simp only [Outcome.check_bind_eq_ok, keepWithin_eq_ok, reduceCtorEq, false_implies,
      implies_true, true_and, Short, isInteger, true_implies, longInteger?, ite_eq_right_iff,
      imp_false, not_lt]
    exact and_comm
  next double =>
    rw [iff_self_and]
    intro _ bounds _ isInteger
    exact absurd (isInteger_iff.mpr isInteger) double

/-! ### What stands behind a value -/

/-- Nothing, or a blank, a comma or a closing bracket first. -/
def Ends (rest : List Char) : Prop :=
  ∀ c ∈ rest.head?, isGap c = true ∨ c = ',' ∨ c = ']' ∨ c = '}'

theorem ends_nil : Ends [] := fun _ none => by cases none

/-- Blanks in front of an end are an end. -/
theorem ends_append {blanks : List Char} (isBlanks : IsBlanks blanks) {rest : List Char}
    (ends : Ends rest) : Ends (blanks ++ rest) := by
  cases blanks with
  | nil => exact ends
  | cons c blanks =>
      intro d first
      obtain rfl := Option.some.inj first
      exact .inl (isBlanks c List.mem_cons_self)

theorem ends_cons {c : Char} (closes : c = ',' ∨ c = ']' ∨ c = '}') (rest : List Char) :
    Ends (c :: rest) := by
  intro d first
  obtain rfl := Option.some.inj first
  exact .inr closes

/-- There no number goes on. -/
theorem not_continues_of_ends {rest : List Char} (ends : Ends rest) : ¬ Continues rest := by
  have noDigit {c : Char} (digit : isAsciiDigit c = true) :
      ¬ (isGap c = true ∨ c = ',' ∨ c = ']' ∨ c = '}') := by
    simp only [isGap, Bool.or_eq_true, beq_iff_eq]
    rintro ((((rfl | rfl) | rfl) | rfl) | rfl | rfl | rfl) <;> exact absurd digit (by decide)
  intro continues
  cases continues with
  | digit digit => exact noDigit digit (ends _ rfl)
  | fraction digit => exact absurd (ends '.' rfl) (by decide)
  | exponent isLetter isSign digit =>
      rcases isLetter with rfl | rfl
      · exact absurd (ends 'e' rfl) (by decide)
      · exact absurd (ends 'E' rfl) (by decide)

/-! ### Bare words and numbers -/

theorem ne_of_isAsciiDigit {c d : Char} (digit : isAsciiDigit c = true)
    (noDigit : isAsciiDigit d = false) : c ≠ d := by
  rintro rfl
  rw [noDigit] at digit
  cases digit

/-- The first character of a bare word or a number. -/
def IsPlainStart (c : Char) : Prop := isAsciiDigit c = true ∨ c ∈ ['-', 'n', 't', 'f', 'N', 'I']

/-- A word or a number that is read spells its value. -/
theorem readPlain_sound {text rest : List Char} {value : Value}
    (read : readPlain limits text = .ok (value, rest)) (outside : Nat) :
    ∃ word, text = word ++ rest ∧ Spells limits outside word value := by
  unfold readPlain at read
  split at read
  case h_1 => cases read; exact ⟨_, rfl, .word .null⟩
  case h_2 => cases read; exact ⟨_, rfl, .word .true⟩
  case h_3 => cases read; exact ⟨_, rfl, .word .false⟩
  case h_4 => cases read; exact ⟨_, rfl, .word .notNumber⟩
  case h_5 => cases read; exact ⟨_, rfl, .word .infinity⟩
  case h_6 => cases read; exact ⟨_, rfl, .word .minusInfinity⟩
  case h_7 =>
    split at read
    next => cases read
    next numeral left found =>
      obtain ⟨word, isNumeral, rfl⟩ := readNumeral?_sound found
      obtain ⟨_, denotes, same⟩ := Outcome.map_eq_ok.mp read
      obtain ⟨rfl, rfl⟩ := Prod.mk.inj same
      obtain ⟨denotes, short⟩ := numeral_value_eq_ok.mp denotes
      exact ⟨word, rfl, .number isNumeral denotes short⟩

/-- A word is read as its value, whatever follows. -/
theorem readPlain_word (limits : Option Limits) {word : String} {value : Value}
    (isWord : Word word value) (rest : List Char) :
    readPlain limits (word.toList ++ rest) = .ok (value, rest) := by
  cases isWord <;> rfl

/-- A number is read in full where it does not go on. -/
theorem readPlain_numeral (limits : Option Limits) {word rest : List Char} {numeral : Numeral}
    (isNumeral : NumeralText word numeral) (ends : ¬ Continues rest) :
    readPlain limits (word ++ rest) = (numeral.value limits).map (·, rest) := by
  have found := readNumeral?_numeral isNumeral ends
  have noWord {d : Char} {others : List Char} (noDigit : isAsciiDigit d = false)
      (noMinus : d ≠ '-') : word ++ rest ≠ d :: others := by
    intro same
    cases isNumeral with
    | plain isMagnitude _ =>
        obtain ⟨c, more, rfl, digit⟩ := head?_magnitude isMagnitude
        exact ne_of_isAsciiDigit digit noDigit (List.cons.inj same).1
    | minus _ _ => exact noMinus (List.cons.inj same).1.symm
  have noInfinity {others : List Char} : word ++ rest ≠ '-' :: 'I' :: others := by
    intro same
    cases isNumeral with
    | plain isMagnitude _ =>
        obtain ⟨c, more, rfl, digit⟩ := head?_magnitude isMagnitude
        exact ne_of_isAsciiDigit digit (by decide) (List.cons.inj same).1
    | minus isMagnitude _ =>
        obtain ⟨c, more, rfl, digit⟩ := head?_magnitude isMagnitude
        exact ne_of_isAsciiDigit digit (by decide) (List.cons.inj (List.cons.inj same).2).1
  unfold readPlain
  split
  case h_6 same => exact absurd same noInfinity
  case h_7 => rw [found]
  all_goals next same => exact absurd same (noWord (by decide) (by decide))

/-! ### Values -/

/-- A number starts with a digit or a sign. -/
theorem head?_numeral {word : List Char} {numeral : Numeral}
    (isNumeral : NumeralText word numeral) : ∃ c more, word = c :: more ∧ IsPlainStart c := by
  cases isNumeral with
  | plain isMagnitude _ =>
      obtain ⟨c, more, same, digit⟩ := head?_magnitude isMagnitude
      exact ⟨c, more, same, .inl digit⟩
  | minus _ _ => exact ⟨'-', _, rfl, .inr (by decide)⟩

/-- A word starts with its first letter. -/
theorem head?_word {word : String} {value : Value} (isWord : Word word value) :
    ∃ c more, word.toList = c :: more ∧ IsPlainStart c := by
  cases isWord
  · exact ⟨'n', _, rfl, .inr (by decide)⟩
  · exact ⟨'t', _, rfl, .inr (by decide)⟩
  · exact ⟨'f', _, rfl, .inr (by decide)⟩
  · exact ⟨'N', _, rfl, .inr (by decide)⟩
  · exact ⟨'I', _, rfl, .inr (by decide)⟩
  · exact ⟨'-', _, rfl, .inr (by decide)⟩

/-- What a value starts with is neither a blank nor a closing bracket nor a byte order mark. -/
def IsStart (c : Char) : Prop :=
  isGap c = false ∧ c ≠ ']' ∧ c ≠ '}' ∧ c ≠ Char.ofNat 0xFEFF

instance (c : Char) : Decidable (IsStart c) := inferInstanceAs (Decidable (_ ∧ _))

/-- A text that starts the way values do. -/
def Starts (text : List Char) : Prop := ∃ c more, text = c :: more ∧ IsStart c

/-- What a word or a number starts with, a value starts with, but no text, list or object does. -/
theorem IsPlainStart.isStart {c : Char} (starts : IsPlainStart c) :
    IsStart c ∧ c ≠ doubleQuote ∧ c ≠ '[' ∧ c ≠ '{' := by
  rcases starts with digit | listed
  · have other {d : Char} : isAsciiDigit d = false → c ≠ d := ne_of_isAsciiDigit digit
    refine ⟨⟨?_, other (by decide), other (by decide), other (by decide)⟩, other (by decide),
      other (by decide), other (by decide)⟩
    simp only [isGap, Bool.or_eq_false_iff, beq_eq_false_iff_ne]
    exact ⟨⟨⟨other (by decide), other (by decide)⟩, other (by decide)⟩, other (by decide)⟩
  · simp only [List.mem_cons, List.not_mem_nil, or_false] at listed
    rcases listed with rfl | rfl | rfl | rfl | rfl | rfl <;> decide

/-- What spells a value starts like one. -/
theorem head?_spells {outside : Nat} {text : List Char} {value : Value}
    (spells : Spells limits outside text value) : Starts text := by
  cases spells with
  | word isWord =>
      obtain ⟨c, more, same, starts⟩ := head?_word isWord
      exact ⟨c, more, same, starts.isStart.1⟩
  | number isNumeral _ _ =>
      obtain ⟨c, more, same, starts⟩ := head?_numeral isNumeral
      exact ⟨c, more, same, starts.isStart.1⟩
  | text _ => exact ⟨_, _, rfl, by decide⟩
  | emptyList _ _ => exact ⟨_, _, rfl, by decide⟩
  | list _ _ _ _ => exact ⟨_, _, rfl, by decide⟩
  | emptyObject _ _ => exact ⟨_, _, rfl, by decide⟩
  | object _ _ _ _ _ => exact ⟨_, _, rfl, by decide⟩

/-- A value that starts like a word or a number is read as one. -/
theorem readValue_plain {c : Char} (starts : IsPlainStart c) (fuel outside : Nat)
    (more : List Char) :
    readValue limits (fuel + 1) outside (c :: more) = readPlain limits (c :: more) := by
  obtain ⟨-, noQuote, noList, noObject⟩ := starts.isStart
  rw [readValue.eq_def]
  dsimp only
  split
  next same => exact absurd (List.cons.inj same).1 noQuote
  next same => exact absurd (List.cons.inj same).1 noObject
  next same => exact absurd (List.cons.inj same).1 noList
  next => rfl

/-! ### Steps of the reader -/

/-- A value that starts with a quote is read as a text. -/
theorem readValue_text (fuel outside : Nat) (rest : List Char) :
    readValue limits (fuel + 1) outside (doubleQuote :: rest) =
      (readText rest).map fun (s, rest) => (.text s, rest) := by
  rw [readValue.eq_def]
  rfl

/-- A value that starts with a bracket is read as a list, if it is not too deep. -/
theorem readValue_list (fuel outside : Nat) (rest : List Char) :
    readValue limits (fuel + 1) outside ('[' :: rest) = (do
      keepWithin limits (deepContainer? .list outside)
      match skipBlank rest with
      | ']' :: rest => .ok (.list [], rest)
      | rest => readItems limits fuel (outside + 1) [] rest) := by
  rw [readValue.eq_def]
  rfl

/-- A value that starts with a brace is read as an object, if it is not too deep. -/
theorem readValue_object (fuel outside : Nat) (rest : List Char) :
    readValue limits (fuel + 1) outside ('{' :: rest) = (do
      keepWithin limits (deepContainer? .object outside)
      match skipBlank rest with
      | '}' :: rest => .ok (.object [], rest)
      | rest => readMembers limits fuel (outside + 1) [] rest) := by
  rw [readValue.eq_def]
  rfl

/-- A list with an item is read item by item. -/
theorem readValue_items {outside : Nat} (shallow : Shallow limits outside) {rest : List Char}
    (starts : Starts (skipBlank rest)) (fuel : Nat) :
    readValue limits (fuel + 1) outside ('[' :: rest) =
      readItems limits fuel (outside + 1) [] (skipBlank rest) := by
  obtain ⟨c, more, first, start⟩ := starts
  rw [readValue_list, shallow_iff.mpr shallow, first]
  change (match c :: more with
    | ']' :: rest => _
    | rest => readItems limits fuel (outside + 1) [] rest) = _
  split
  next same => exact absurd (List.cons.inj same).1 start.2.1
  next => rfl

theorem readValue_members {outside : Nat} (shallow : Shallow limits outside) {rest : List Char}
    (starts : ∃ more, skipBlank rest = doubleQuote :: more) (fuel : Nat) :
    readValue limits (fuel + 1) outside ('{' :: rest) =
      readMembers limits fuel (outside + 1) [] (skipBlank rest) := by
  obtain ⟨more, first⟩ := starts
  rw [readValue_object, shallow_iff.mpr shallow, first]
  rfl

/-- Items are read one after another, up to the closing bracket. -/
theorem readItems_succ (fuel outside : Nat) (before : List Value) (text : List Char) :
    readItems limits (fuel + 1) outside before text =
      readValue limits fuel outside text >>= fun (value, rest) =>
        match skipBlank rest with
        | ']' :: rest => .ok (.list (value :: before).reverse, rest)
        | ',' :: rest => readItems limits fuel outside (value :: before) (skipBlank rest)
        | rest => .error (.stop .comma rest.length) :=
  readItems.eq_def limits (fuel + 1) outside before text

/-- A label starts with its quote. -/
theorem skipBlank_label {blanks : List Char} (isBlanks : IsBlanks blanks)
    (body behind rest : List Char) :
    skipBlank (label blanks body behind ++ rest) =
      doubleQuote :: (body ++ doubleQuote :: (behind ++ ':' :: rest)) := by
  simp only [label, List.append_assoc, List.cons_append, List.nil_append]
  rw [skipBlank_append isBlanks, skipBlank_cons (by decide)]

/-- The key and the colon of a member are read first. -/
theorem readMembers_label {blanks body key behind : List Char} (isBlanks : IsBlanks blanks)
    (isBody : Body body key) (blanksBehind : IsBlanks behind) (fuel outside : Nat)
    (before : List (String × Value)) (rest : List Char) :
    readMembers limits (fuel + 1) outside before (skipBlank (label blanks body behind ++ rest)) =
      readValue limits fuel outside (skipBlank rest) >>= fun (value, rest) =>
        match skipBlank rest with
        | '}' :: rest =>
          .ok (Value.ofMembers ((String.ofList key, value) :: before).reverse, rest)
        | ',' :: rest =>
          readMembers limits fuel outside ((String.ofList key, value) :: before) (skipBlank rest)
        | rest => .error (.stop .comma rest.length) := by
  rw [skipBlank_label isBlanks, readMembers.eq_def]
  simp only [doubleQuote]
  rw [← doubleQuote, readText_body isBody]
  simp only [bind, Except.bind]
  rw [skipBlank_append blanksBehind, skipBlank_cons (by decide)]
  rfl

/-! ### Lists and objects -/

/-- The reader gives a value for a text, wherever it stands, as long as the fuel lasts. -/
def ReadsAs (limits : Option Limits) (outside : Nat) (text : List Char) (value : Value) : Prop :=
  ∀ rest, Ends rest → ∀ fuel, 2 * text.length < fuel →
    readValue limits fuel outside (text ++ rest) = .ok (value, rest)

/-- Blanks in front of a value are skipped, and nothing more. -/
theorem skipBlank_starts {blanks text : List Char} (isBlanks : IsBlanks blanks)
    (starts : Starts text) (rest : List Char) :
    skipBlank (blanks ++ (text ++ rest)) = text ++ rest := by
  obtain ⟨c, more, rfl, start⟩ := starts
  rw [skipBlank_append isBlanks, List.cons_append, skipBlank_cons start.1]

@[simp] theorem ahead_cons (head : List Char) (rest : List (List Char)) :
    ahead (head :: rest) = head ++ ',' :: ahead rest := by
  simp [ahead]

theorem listed_singleton (text : List Char) : listed [text] = text := by
  simp [listed, List.intercalate]

theorem listed_cons (head : List Char) {rest : List (List Char)} (some : rest ≠ []) :
    listed (head :: rest) = head ++ ',' :: listed rest := by
  obtain ⟨next, others, rfl⟩ := List.exists_cons_of_ne_nil some
  simp [listed, List.intercalate]

/-- A list is its items but the last, each with a comma, and the last. -/
theorem listed_append_singleton (texts : List (List Char)) (last : List Char) :
    listed (texts ++ [last]) = ahead texts ++ last := by
  induction texts with
  | nil => simp [listed_singleton, ahead]
  | cons head rest ih =>
      rw [List.cons_append, listed_cons head (by simp), ih, ahead_cons, List.append_assoc,
        List.cons_append]

/-- Each item in front brings a comma at least. -/
theorem length_le_ahead (texts : List (List Char)) : texts.length ≤ (ahead texts).length := by
  induction texts with
  | nil => exact Nat.zero_le _
  | cons head rest ih =>
      rw [ahead_cons, List.length_append, List.length_cons, List.length_cons]
      omega

/-- An item in front, with a character for each item, is no longer than all of them. -/
theorem length_add_le_ahead {texts : List (List Char)} {text : List Char} (listed : text ∈ texts) :
    text.length + texts.length ≤ (ahead texts).length := by
  induction texts with
  | nil => exact absurd listed List.not_mem_nil
  | cons head rest ih =>
      have others := length_le_ahead rest
      rw [ahead_cons, List.length_append, List.length_cons, List.length_cons]
      rcases List.mem_cons.mp listed with rfl | later
      · omega
      · have := ih later
        omega

/-- The fuel for several texts lasts for each of them, and for what stands behind them. -/
theorem exists_fuel {texts : List (List Char)} {last : List Char} {fuel : Nat}
    (enough : 2 * (ahead texts ++ last).length + 1 < fuel) :
    ∃ less, fuel = less + 1 + texts.length ∧ 2 * last.length < less ∧
      ∀ text ∈ texts, 2 * text.length < less + 1 := by
  rw [List.length_append] at enough
  have all := length_le_ahead texts
  refine ⟨fuel - texts.length - 1, by omega, by omega, fun text member => ?_⟩
  have := length_add_le_ahead member
  omega

section Items

variable {outside : Nat}

theorem Piece.length_text_le (piece : Piece) : piece.text.length ≤ piece.written.length := by
  rw [Piece.written, List.length_append, List.length_append]
  omega

/-- A value among others is read in full. -/
theorem readValue_piece {piece : Piece} (padded : piece.Padded) (starts : Starts piece.text)
    (reads : ReadsAs limits outside piece.text piece.value) {fuel : Nat}
    (enough : 2 * piece.written.length < fuel) {rest : List Char} (ends : Ends rest) :
    readValue limits fuel outside (skipBlank (piece.written ++ rest)) =
      .ok (piece.value, piece.behind ++ rest) := by
  have length := piece.length_text_le
  rw [Piece.written, List.append_assoc, List.append_assoc, skipBlank_starts padded.1 starts]
  exact reads _ (ends_append padded.2 ends) fuel (by omega)

/-- The items of a list up to a place behind a comma. -/
theorem readItems_ahead {pieces : List Piece} (padded : ∀ piece ∈ pieces, piece.Padded)
    (starts : ∀ piece ∈ pieces, Starts piece.text)
    (each : ∀ piece ∈ pieces, ReadsAs limits outside piece.text piece.value) {fuel : Nat}
    (enough : ∀ text ∈ pieces.map Piece.written, 2 * text.length < fuel) (before : List Value)
    (rest : List Char) :
    readItems limits (fuel + pieces.length) outside before
        (skipBlank (ahead (pieces.map Piece.written) ++ rest)) =
      readItems limits fuel outside ((pieces.map Piece.value).reverse ++ before)
        (skipBlank rest) := by
  induction pieces generalizing before with
  | nil => rfl
  | cons piece others ih =>
      obtain ⟨own, padded⟩ := List.forall_mem_cons.mp padded
      obtain ⟨start, starts⟩ := List.forall_mem_cons.mp starts
      obtain ⟨reads, each⟩ := List.forall_mem_cons.mp each
      obtain ⟨short, enough⟩ := List.forall_mem_cons.mp enough
      have split : ahead ((piece :: others).map Piece.written) ++ rest =
          piece.written ++ ',' :: (ahead (others.map Piece.written) ++ rest) := by
        simp
      rw [split, List.length_cons, ← Nat.add_assoc, readItems_succ,
        readValue_piece own start reads (by omega) (ends_cons (.inl rfl) _)]
      change (match skipBlank (piece.behind ++ _) with
        | ']' :: rest => _
        | ',' :: rest => _
        | rest => _) = _
      rw [skipBlank_append own.2, skipBlank_cons (by decide)]
      change readItems limits _ outside (piece.value :: before) (skipBlank _) = _
      rw [ih padded starts each enough]
      simp

/-- The items of a list up to its closing bracket. -/
theorem readItems_pieces {pieces : List Piece} (some : pieces ≠ [])
    (padded : ∀ piece ∈ pieces, piece.Padded) (starts : ∀ piece ∈ pieces, Starts piece.text)
    (each : ∀ piece ∈ pieces, ReadsAs limits outside piece.text piece.value) {fuel : Nat}
    (enough : 2 * (listed (pieces.map Piece.written)).length + 1 < fuel) (rest : List Char) :
    readItems limits fuel outside []
        (skipBlank (listed (pieces.map Piece.written) ++ ']' :: rest)) =
      .ok (.list (pieces.map Piece.value), rest) := by
  obtain ⟨others, last, rfl⟩ := (List.eq_nil_or_concat pieces).resolve_left some
  rw [List.concat_eq_append] at padded starts each enough ⊢
  rw [List.map_append, List.map_singleton, listed_append_singleton] at enough ⊢
  obtain ⟨padded, own⟩ := List.forall_mem_append.mp padded
  obtain ⟨starts, start⟩ := List.forall_mem_append.mp starts
  obtain ⟨each, reads⟩ := List.forall_mem_append.mp each
  rw [List.forall_mem_singleton] at own start reads
  obtain ⟨fuel, rfl, enoughLast, enoughAhead⟩ := exists_fuel enough
  rw [List.append_assoc, List.length_map, readItems_ahead padded starts each enoughAhead,
    readItems_succ, readValue_piece own start reads enoughLast (ends_cons (by decide) _)]
  change (match skipBlank (last.behind ++ _) with
    | ']' :: rest => _
    | ',' :: rest => _
    | rest => _) = _
  rw [skipBlank_append own.2, skipBlank_cons (by decide)]
  simp

theorem Entry.length_piece_le (entry : Entry) :
    entry.piece.written.length ≤ entry.written.length := by
  rw [Entry.written, List.length_append]
  omega

/-- The members of an object up to a place behind a comma. -/
theorem readMembers_ahead {entries : List Entry} (padded : ∀ entry ∈ entries, entry.Padded)
    (keys : ∀ entry ∈ entries, Body entry.body entry.key)
    (starts : ∀ entry ∈ entries, Starts entry.piece.text)
    (each : ∀ entry ∈ entries, ReadsAs limits outside entry.piece.text entry.piece.value)
    {fuel : Nat} (enough : ∀ text ∈ entries.map Entry.written, 2 * text.length < fuel)
    (before : List (String × Value)) (rest : List Char) :
    readMembers limits (fuel + entries.length) outside before
        (skipBlank (ahead (entries.map Entry.written) ++ rest)) =
      readMembers limits fuel outside ((entries.map Entry.member).reverse ++ before)
        (skipBlank rest) := by
  induction entries generalizing before with
  | nil => rfl
  | cons entry others ih =>
      obtain ⟨own, padded⟩ := List.forall_mem_cons.mp padded
      obtain ⟨key, keys⟩ := List.forall_mem_cons.mp keys
      obtain ⟨start, starts⟩ := List.forall_mem_cons.mp starts
      obtain ⟨reads, each⟩ := List.forall_mem_cons.mp each
      obtain ⟨short, enough⟩ := List.forall_mem_cons.mp enough
      have length := entry.length_piece_le
      have split : ahead ((entry :: others).map Entry.written) ++ rest =
          label entry.before entry.body entry.behind ++
            (entry.piece.written ++ ',' :: (ahead (others.map Entry.written) ++ rest)) := by
        simp [Entry.written]
      rw [split, List.length_cons, ← Nat.add_assoc, readMembers_label own.before key own.behind,
        readValue_piece own.piece start reads (by omega) (ends_cons (.inl rfl) _)]
      change (match skipBlank (entry.piece.behind ++ _) with
        | '}' :: rest => _
        | ',' :: rest => _
        | rest => _) = _
      rw [skipBlank_append own.piece.2, skipBlank_cons (by decide)]
      change readMembers limits _ outside (entry.member :: before) (skipBlank _) = _
      rw [ih padded keys starts each enough]
      simp

/-- The members of an object up to its closing bracket. -/
theorem readMembers_entries {entries : List Entry} (some : entries ≠ [])
    (padded : ∀ entry ∈ entries, entry.Padded)
    (keys : ∀ entry ∈ entries, Body entry.body entry.key)
    (starts : ∀ entry ∈ entries, Starts entry.piece.text)
    (each : ∀ entry ∈ entries, ReadsAs limits outside entry.piece.text entry.piece.value)
    {fuel : Nat} (enough : 2 * (listed (entries.map Entry.written)).length + 1 < fuel)
    (rest : List Char) :
    readMembers limits fuel outside []
        (skipBlank (listed (entries.map Entry.written) ++ '}' :: rest)) =
      .ok (Value.ofMembers (entries.map Entry.member), rest) := by
  obtain ⟨others, last, rfl⟩ := (List.eq_nil_or_concat entries).resolve_left some
  rw [List.concat_eq_append] at padded keys starts each enough ⊢
  rw [List.map_append, List.map_singleton, listed_append_singleton] at enough ⊢
  obtain ⟨padded, own⟩ := List.forall_mem_append.mp padded
  obtain ⟨keys, key⟩ := List.forall_mem_append.mp keys
  obtain ⟨starts, start⟩ := List.forall_mem_append.mp starts
  obtain ⟨each, reads⟩ := List.forall_mem_append.mp each
  rw [List.forall_mem_singleton] at own key start reads
  obtain ⟨fuel, rfl, enoughLast, enoughAhead⟩ := exists_fuel enough
  have length := last.length_piece_le
  rw [List.append_assoc, List.length_map, readMembers_ahead padded keys starts each enoughAhead,
    Entry.written, List.append_assoc, readMembers_label own.before key own.behind,
    readValue_piece own.piece start reads (by omega) (ends_cons (by decide) _)]
  change (match skipBlank (last.piece.behind ++ _) with
    | '}' :: rest => _
    | ',' :: rest => _
    | rest => _) = _
  rw [skipBlank_append own.piece.2, skipBlank_cons (by decide)]
  simp [Entry.member]

end Items

/-! ### Texts of values -/

/-- Behind the blanks in front a value starts. -/
theorem starts_skipBlank {blanks text : List Char} (isBlanks : IsBlanks blanks)
    (starts : Starts text) (rest : List Char) : Starts (skipBlank (blanks ++ (text ++ rest))) := by
  rw [skipBlank_starts isBlanks starts]
  obtain ⟨c, more, rfl, start⟩ := starts
  exact ⟨c, more ++ rest, rfl, start⟩

/-- A piece starts like its value, behind the blanks in front. -/
theorem Piece.starts_written {piece : Piece} (padded : piece.Padded) (starts : Starts piece.text)
    (rest : List Char) : Starts (skipBlank (piece.written ++ rest)) := by
  rw [Piece.written, List.append_assoc, List.append_assoc]
  exact starts_skipBlank padded.1 starts _

/-- A list of items starts with the first one. -/
theorem exists_listed_cons (head : List Char) (rest : List (List Char)) :
    ∃ behind, listed (head :: rest) = head ++ behind := by
  cases rest with
  | nil => exact ⟨[], by rw [listed_singleton, List.append_nil]⟩
  | cons next rest => exact ⟨_, listed_cons head (List.cons_ne_nil next rest)⟩

/-- The text of a value is read in full, wherever it stands. -/
theorem readsAs_of_spells {outside : Nat} {text : List Char} {value : Value}
    (spells : Spells limits outside text value) : ReadsAs limits outside text value := by
  induction spells with
  | @word outside word value isWord =>
      refine fun rest ends => forall_fuel fun fuel enough => ?_
      obtain ⟨c, more, same, starts⟩ := head?_word isWord
      have read := readPlain_word limits isWord rest
      rw [same, List.cons_append] at read ⊢
      rw [readValue_plain starts, read]
  | number isNumeral denotes short =>
      refine fun rest ends => forall_fuel fun fuel enough => ?_
      obtain ⟨c, more, same, starts⟩ := head?_numeral isNumeral
      have read := readPlain_numeral limits isNumeral (not_continues_of_ends ends)
      rw [same, List.cons_append] at read ⊢
      rw [readValue_plain starts, read, numeral_value_eq_ok.mpr ⟨denotes, short⟩]
      rfl
  | text isBody =>
      refine fun rest ends => forall_fuel fun fuel enough => ?_
      rw [List.cons_append, List.append_assoc, List.singleton_append, readValue_text,
        readText_body isBody]
      rfl
  | emptyList shallow isBlanks =>
      refine fun rest ends => forall_fuel fun fuel enough => ?_
      rw [List.cons_append, List.append_assoc, List.singleton_append, readValue_list,
        shallow_iff.mpr shallow, skipBlank_append isBlanks, skipBlank_cons (by decide)]
      rfl
  | @list outside pieces shallow some padded each ih =>
      refine fun rest ends => forall_fuel fun fuel enough => ?_
      have starts : ∀ piece ∈ pieces, Starts piece.text :=
        fun piece member => head?_spells (each piece member)
      rw [List.length_cons, List.length_append, List.length_singleton] at enough
      have first : Starts (skipBlank (listed (pieces.map Piece.written) ++ ']' :: rest)) := by
        obtain ⟨head, others, rfl⟩ := List.exists_cons_of_ne_nil some
        obtain ⟨behind, split⟩ := exists_listed_cons head.written (others.map Piece.written)
        rw [List.map_cons, split, List.append_assoc]
        exact head.starts_written (padded _ List.mem_cons_self) (starts _ List.mem_cons_self) _
      rw [List.cons_append, List.append_assoc, List.singleton_append,
        readValue_items shallow first, readItems_pieces some padded starts ih (by omega)]
  | emptyObject shallow isBlanks =>
      refine fun rest ends => forall_fuel fun fuel enough => ?_
      rw [List.cons_append, List.append_assoc, List.singleton_append, readValue_object,
        shallow_iff.mpr shallow, skipBlank_append isBlanks, skipBlank_cons (by decide)]
      rfl
  | @object outside entries shallow some padded keys each ih =>
      refine fun rest ends => forall_fuel fun fuel enough => ?_
      have starts : ∀ entry ∈ entries, Starts entry.piece.text :=
        fun entry member => head?_spells (each entry member)
      rw [List.length_cons, List.length_append, List.length_singleton] at enough
      have first : ∃ more, skipBlank (listed (entries.map Entry.written) ++ '}' :: rest) =
          doubleQuote :: more := by
        obtain ⟨head, others, rfl⟩ := List.exists_cons_of_ne_nil some
        obtain ⟨behind, split⟩ := exists_listed_cons head.written (others.map Entry.written)
        rw [List.map_cons, split, Entry.written, List.append_assoc, List.append_assoc,
          skipBlank_label (padded _ List.mem_cons_self).before]
        exact ⟨_, rfl⟩
      rw [List.cons_append, List.append_assoc, List.singleton_append,
        readValue_members shallow first,
        readMembers_entries some padded keys starts ih (by omega)]

/-! ### Texts that go beyond limits -/

/-- What exceeds the limits starts like a value. -/
theorem head?_exceeds {bounds : Limits} {outside : Nat} {text : List Char} {excess : Excess}
    (exceeds : Exceeds bounds outside text excess) : Starts text := by
  cases exceeds with
  | integer isNumeral _ _ _ =>
      obtain ⟨c, more, rfl, starts⟩ := head?_numeral isNumeral
      exact ⟨c, _, rfl, starts.isStart.1⟩
  | list _ => exact ⟨_, _, rfl, by decide⟩
  | object _ => exact ⟨_, _, rfl, by decide⟩
  | item _ _ _ _ _ => exact ⟨_, _, rfl, by decide⟩
  | member _ _ _ _ _ _ _ _ _ => exact ⟨_, _, rfl, by decide⟩

theorem shallow_some {bounds : Limits} {outside : Nat} :
    Shallow (some bounds) outside ↔ outside < bounds.depth := by
  simp [Shallow]

/-- Inside as many containers as are allowed another one is too deep. -/
theorem keepWithin_deep {bounds : Limits} {outside : Nat} (deep : bounds.depth ≤ outside)
    (container : Container) :
    keepWithin (some bounds) (deepContainer? container outside) =
      .error (.beyondLimits (.depth container)) := by
  simp [keepWithin, deepContainer?, deep]

/-- An integer of more digits than are allowed is too long. -/
theorem numeral_value_long {bounds : Limits} {numeral : Numeral} (isInteger : numeral.IsInteger)
    (long : bounds.digits < numeral.whole.length) :
    numeral.value (some bounds) =
      .error (.beyondLimits (.integer bounds.digits numeral.whole.length)) := by
  rw [Numeral.value, if_pos (isInteger_iff.mpr isInteger)]
  simp [keepWithin, longInteger?, long, bind, Except.bind]

/-- The reader reports what goes beyond the limits. -/
theorem readValue_of_exceeds {bounds : Limits} {outside : Nat} {text : List Char}
    {excess : Excess} (exceeds : Exceeds bounds outside text excess) :
    ∀ fuel, 2 * text.length < fuel →
      readValue (some bounds) fuel outside text = .error (.beyondLimits excess) := by
  induction exceeds with
  | integer isNumeral isInteger long ends =>
      refine forall_fuel fun fuel enough => ?_
      obtain ⟨c, more, same, starts⟩ := head?_numeral isNumeral
      have read := readPlain_numeral (some bounds) isNumeral ends
      rw [same, List.cons_append] at read ⊢
      rw [readValue_plain starts, read, numeral_value_long isInteger long]
      rfl
  | list deep =>
      refine forall_fuel fun fuel enough => ?_
      rw [readValue_list, keepWithin_deep deep]
      rfl
  | object deep =>
      refine forall_fuel fun fuel enough => ?_
      rw [readValue_object, keepWithin_deep deep]
      rfl
  | @item outside pieces before text excess shallow padded each isBlanks inside ih =>
      refine forall_fuel fun fuel enough => ?_
      rw [List.length_cons] at enough
      replace enough : 2 * (ahead (pieces.map Piece.written) ++ (before ++ text)).length + 1 <
          fuel := by omega
      obtain ⟨fuel, rfl, enoughInside, enoughAhead⟩ := exists_fuel enough
      rw [List.length_append] at enoughInside
      have starts : ∀ piece ∈ pieces, Starts piece.text :=
        fun piece member => head?_spells (each piece member)
      have start := head?_exceeds inside
      have first : Starts (skipBlank (ahead (pieces.map Piece.written) ++ (before ++ text))) := by
        cases pieces with
        | nil => simpa [ahead] using starts_skipBlank isBlanks start []
        | cons head others =>
            rw [List.map_cons, ahead_cons, List.append_assoc]
            exact head.starts_written (padded _ List.mem_cons_self) (starts _ List.mem_cons_self) _
      have reached : skipBlank (before ++ text) = text := by
        simpa using skipBlank_starts isBlanks start []
      rw [readValue_items (shallow_some.mpr shallow) first, List.length_map,
        readItems_ahead padded starts (fun piece member => readsAs_of_spells (each piece member))
          enoughAhead, readItems_succ, reached, ih _ (by omega)]
      rfl
  | @member outside entries beforeKey body key behindKey before text excess shallow padded keys
      each blanksBefore isBody blanksBehind isBlanks inside ih =>
      refine forall_fuel fun fuel enough => ?_
      rw [List.length_cons] at enough
      replace enough : 2 * (ahead (entries.map Entry.written) ++
          (label beforeKey body behindKey ++ (before ++ text))).length + 1 < fuel := by omega
      obtain ⟨fuel, rfl, enoughInside, enoughAhead⟩ := exists_fuel enough
      rw [List.length_append, List.length_append] at enoughInside
      have starts : ∀ entry ∈ entries, Starts entry.piece.text :=
        fun entry member => head?_spells (each entry member)
      have first : ∃ more, skipBlank (ahead (entries.map Entry.written) ++
          (label beforeKey body behindKey ++ (before ++ text))) = doubleQuote :: more := by
        cases entries with
        | nil => exact ⟨_, skipBlank_label blanksBefore _ _ _⟩
        | cons head others =>
            rw [List.map_cons, ahead_cons, Entry.written, List.append_assoc, List.append_assoc]
            exact ⟨_, skipBlank_label (padded _ List.mem_cons_self).before _ _ _⟩
      have reached : skipBlank (before ++ text) = text := by
        simpa using skipBlank_starts isBlanks (head?_exceeds inside) []
      rw [readValue_members (shallow_some.mpr shallow) first, List.length_map,
        readMembers_ahead padded keys starts
          (fun entry member => readsAs_of_spells (each entry member)) enoughAhead,
        readMembers_label blanksBefore isBody blanksBehind, reached, ih _ (by omega)]
      rfl

end Reporting.Json
