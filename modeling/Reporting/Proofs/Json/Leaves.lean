import Mathlib.Data.List.TakeWhile
import Reporting.Proofs.Json.Grammar
import Reporting.Proofs.Json.Strings
import Reporting.Proofs.Outcome

/-!
# Reading blanks, strings and numbers

The readers of the parts without parts of their own agree with the grammar. What they read off a
text has the form that the grammar gives it, and what has this form is read in full wherever the
text goes on with something that cannot be a part of it.
-/

namespace Reporting.Json

open Text

/-- Fuel above a bound has a unit to spend. -/
theorem forall_fuel {n : Nat} {P : Nat → Prop} (succ : ∀ fuel, n ≤ fuel → P (fuel + 1)) :
    ∀ fuel, n < fuel → P fuel
  | fuel + 1, enough => succ fuel (Nat.le_of_lt_succ enough)

/-! ### Blanks -/

/-- Blanks in front of a text are skipped. -/
theorem skipBlank_append {blanks : List Char} (isBlanks : IsBlanks blanks) (rest : List Char) :
    skipBlank (blanks ++ rest) = skipBlank rest :=
  List.dropWhile_append_of_pos isBlanks

theorem skipBlank_cons {c : Char} (solid : isGap c = false) (rest : List Char) :
    skipBlank (c :: rest) = c :: rest :=
  List.dropWhile_cons_of_neg (by simpa [isGap] using solid)

/-- What is skipped are blanks. -/
theorem exists_skipBlank (text : List Char) :
    ∃ blanks, IsBlanks blanks ∧ text = blanks ++ skipBlank text :=
  ⟨text.takeWhile isGap, fun _ member => List.mem_takeWhile_imp member,
    (List.takeWhile_append_dropWhile).symm⟩

/-! ### Strings -/

/-- The second half of a pair, with at least one more character behind it. -/
def LowBehind (text : List Char) : Prop :=
  ∃ a b c d last rest n, text = '\\' :: 'u' :: a :: b :: c :: d :: last :: rest ∧
    hexFour? a b c d = some n ∧ isLowSurrogate n = true

/-- The second half of a pair is seen in front of anything at all. -/
theorem lowBehind_append {body behind : List Char} (starts : StartsLow body)
    (some : behind ≠ []) : LowBehind (body ++ behind) := by
  obtain ⟨a, b, c, d, rest, n, rfl, digits, low⟩ := starts
  obtain ⟨last, others, split⟩ : ∃ last others, rest ++ behind = last :: others :=
    List.exists_cons_of_ne_nil (List.append_ne_nil_of_right_ne_nil rest some)
  exact ⟨a, b, c, d, last, others, n, by rw [← split]; rfl, digits, low⟩

/-- No digit is a quote. -/
theorem ne_quote_of_hexFour? {a b c d : Char} {n : Nat} (digits : hexFour? a b c d = some n) :
    a ≠ doubleQuote ∧ b ≠ doubleQuote ∧ c ≠ doubleQuote ∧ d ≠ doubleQuote := by
  have value {e : Char} {m : Nat} (digit : hexValue? e = some m) : e ≠ doubleQuote := by
    rintro rfl
    have none : hexValue? doubleQuote = none := by decide
    rw [none] at digit
    cases digit
  simp only [hexFour?, Option.bind_eq_bind, Option.bind_eq_some_iff] at digits
  obtain ⟨_, first, _, second, _, third, _, fourth, -⟩ := digits
  exact ⟨value first, value second, value third, value fourth⟩

/-- The closing quote is no part of an escape. -/
theorem startsLow_of_append {body rest : List Char}
    (starts : LowBehind (body ++ doubleQuote :: rest)) : StartsLow body := by
  obtain ⟨a, b, c, d, last, others, n, same, digits, low⟩ := starts
  obtain ⟨noA, noB, noC, noD⟩ := ne_quote_of_hexFour? digits
  match body, same with
  | [], same => cases same
  | [_], same => simp [doubleQuote] at same
  | [_, _], same => simp_all
  | [_, _, _], same => simp_all
  | [_, _, _, _], same => simp_all
  | [_, _, _, _, _], same => simp_all
  | _ :: _ :: _ :: _ :: _ :: _ :: more, same =>
      simp only [List.cons_append, List.cons.injEq] at same
      obtain ⟨rfl, rfl, rfl, rfl, rfl, rfl, -⟩ := same
      exact ⟨_, _, _, _, more, n, rfl, digits, low⟩

/-- An escape with four digits stands for a character, alone or with the second half behind it. -/
theorem readUnit_sound {text rest : List Char} {c : Char} (read : readUnit text = .ok (c, rest)) :
    ∃ e f g h n, hexFour? e f g h = some n ∧
      ((isHighSurrogate n = false ∧ text = e :: f :: g :: h :: rest ∧ c = loneUnit n) ∨
        (isHighSurrogate n = true ∧ ∃ i j k l m, hexFour? i j k l = some m ∧
          isLowSurrogate m = true ∧
          text = e :: f :: g :: h :: '\\' :: 'u' :: i :: j :: k :: l :: rest ∧
          c = joinSurrogates n m) ∨
        (isHighSurrogate n = true ∧ text = e :: f :: g :: h :: rest ∧ c = replacement ∧
          ¬ LowBehind rest)) := by
  unfold readUnit at read
  split at read
  next e f g h next more =>
    split at read
    next => cases read
    next n digits =>
      refine ⟨e, f, g, h, n, digits, ?_⟩
      split at read
      next high =>
        right
        split at read
        next i j k l last others same =>
          split at read
          next => cases read
          next m digitsToo =>
            split at read
            next low =>
              obtain ⟨rfl, rfl⟩ := Prod.mk.inj (Except.ok.inj read)
              exact .inl ⟨high, i, j, k, l, m, digitsToo, low, by rw [same], rfl⟩
            next noLow =>
              obtain ⟨rfl, rfl⟩ := Prod.mk.inj (Except.ok.inj read)
              refine .inr ⟨high, rfl, rfl, ?_⟩
              rintro ⟨_, _, _, _, _, _, o, sameToo, digitsOther, low⟩
              rw [same] at sameToo
              simp only [List.cons.injEq, true_and] at sameToo
              obtain ⟨rfl, rfl, rfl, rfl, -⟩ := sameToo
              rw [digitsToo] at digitsOther
              cases digitsOther
              exact noLow low
        next other =>
          obtain ⟨rfl, rfl⟩ := Prod.mk.inj (Except.ok.inj read)
          refine .inr ⟨high, rfl, rfl, ?_⟩
          rintro ⟨i, j, k, l, last, others, o, same, -, -⟩
          exact other i j k l last others same
      next noHigh =>
        obtain ⟨rfl, rfl⟩ := Prod.mk.inj (Except.ok.inj read)
        exact .inl ⟨by simpa using noHigh, rfl, rfl⟩
  next => cases read

/-- Four digits that are no first half are read as their character. -/
theorem readUnit_of_unit {a b c d : Char} {n : Nat} (digits : hexFour? a b c d = some n)
    (noHalf : isHighSurrogate n = false) {rest : List Char} (some : rest ≠ []) :
    readUnit (a :: b :: c :: d :: rest) = .ok (loneUnit n, rest) := by
  obtain ⟨next, more, rfl⟩ := List.exists_cons_of_ne_nil some
  simp only [readUnit, digits, noHalf, Bool.false_eq_true, ↓reduceIte]

/-- Two halves that fit are read as one character. -/
theorem readUnit_of_pair {a b c d e f g h : Char} {high low : Nat}
    (digits : hexFour? a b c d = some high) (first : isHighSurrogate high = true)
    (digitsToo : hexFour? e f g h = some low) (second : isLowSurrogate low = true)
    {rest : List Char} (some : rest ≠ []) :
    readUnit (a :: b :: c :: d :: '\\' :: 'u' :: e :: f :: g :: h :: rest) =
      .ok (joinSurrogates high low, rest) := by
  obtain ⟨next, more, rfl⟩ := List.exists_cons_of_ne_nil some
  simp only [readUnit, digits, first, digitsToo, second, ↓reduceIte]

/-- A first half without the second is read as the replacement character. -/
theorem readUnit_of_half {a b c d : Char} {n : Nat} (digits : hexFour? a b c d = some n)
    (first : isHighSurrogate n = true) {rest : List Char} (some : rest ≠ [])
    (alone : ¬ LowBehind rest)
    (valid : ∀ e f g h last more, rest = '\\' :: 'u' :: e :: f :: g :: h :: last :: more →
      ∃ m, hexFour? e f g h = Option.some m) :
    readUnit (a :: b :: c :: d :: rest) = .ok (replacement, rest) := by
  obtain ⟨next, more, rfl⟩ := List.exists_cons_of_ne_nil some
  simp only [readUnit, digits, first, ↓reduceIte]
  split
  next e f g h last others same =>
    obtain ⟨m, digitsToo⟩ := valid e f g h last others same
    simp only [digitsToo]
    split
    next low => exact absurd ⟨e, f, g, h, last, others, m, same, digitsToo, low⟩ alone
    next => rfl
  next => rfl

/-- An escape with four digits in front of the body of a string makes a body. -/
theorem body_of_readUnit {text left body out rest : List Char} {c : Char}
    (unit : readUnit text = .ok (c, left)) (split : left = body ++ doubleQuote :: rest)
    (isBody : Body body out) :
    ∃ whole, '\\' :: 'u' :: text = whole ++ doubleQuote :: rest ∧ Body whole (c :: out) := by
  obtain ⟨e, f, g, h, n, digits, ⟨noHalf, rfl, rfl⟩ |
    ⟨first, i, j, k, l, m, digitsToo, second, rfl, joined⟩ | ⟨first, rfl, rfl, alone⟩⟩ :=
    readUnit_sound unit
  · exact ⟨_, by rw [split]; rfl, .unit digits noHalf isBody⟩
  · rw [joined]
    exact ⟨_, by rw [split]; rfl, .pair digits first digitsToo second isBody⟩
  · have alone : ¬ StartsLow body := fun starts =>
      alone (split ▸ lowBehind_append starts (List.cons_ne_nil _ _))
    exact ⟨_, by rw [split]; rfl, .half digits first alone isBody⟩

/-- What is read off a text up to a closing quote is the body of a string. -/
theorem readString_sound {opening fuel : Nat} {read text rest : List Char} {s : String}
    (found : readString opening fuel read text = .ok (s, rest)) :
    ∃ body out, text = body ++ doubleQuote :: rest ∧ Body body out ∧
      s = String.ofList (read.reverse ++ out) := by
  induction fuel generalizing read text with
  | zero => cases found
  | succ fuel ih =>
      -- one more character is read, and the rest of the body behind it
      have behind {c : Char} {left : List Char}
          (found : readString opening fuel (c :: read) left = .ok (s, rest)) :
          ∃ body out, left = body ++ doubleQuote :: rest ∧ Body body out ∧
            s = String.ofList (read.reverse ++ c :: out) := by
        obtain ⟨body, out, split, isBody, same⟩ := ih found
        exact ⟨body, out, split, isBody, by simpa using same⟩
      cases text with
      | nil => cases found
      | cons c more =>
          unfold readString at found
          split at found
          next quote =>
            obtain ⟨rfl, rfl⟩ := Prod.mk.inj (Except.ok.inj found)
            exact ⟨[], [], by rw [beq_iff_eq.mp quote, List.nil_append], .nil, by simp⟩
          next noQuote =>
            rw [beq_iff_eq] at noQuote
            split at found
            next escape =>
              rw [beq_iff_eq] at escape
              split at found
              next => cases found
              next unitText =>
                split at found
                next => cases found
                next d left unit =>
                  obtain ⟨body, out, split, isBody, same⟩ := behind found
                  obtain ⟨whole, wholeSplit, isWhole⟩ := body_of_readUnit unit split isBody
                  exact ⟨whole, d :: out, by rw [escape, wholeSplit], isWhole, same⟩
              next letter left other =>
                split at found
                next d short =>
                  obtain ⟨body, out, rfl, isBody, same⟩ := behind found
                  exact ⟨_, _, by rw [escape]; rfl, .short short isBody, same⟩
                next => cases found
            next noEscape =>
              rw [beq_iff_eq] at noEscape
              split at found
              next => cases found
              next shown =>
                obtain ⟨body, out, rfl, isBody, same⟩ := behind found
                exact ⟨_, _, rfl, .plain noQuote noEscape (Nat.not_lt.mp shown) isBody, same⟩

/-- The body of a string that starts like an escape with four digits has the digits. -/
theorem exists_digits_of_body {body read rest : List Char} (isBody : Body body read)
    {e f g h last : Char} {more : List Char} (starts : body ++ doubleQuote :: rest =
      '\\' :: 'u' :: e :: f :: g :: h :: last :: more) : ∃ m, hexFour? e f g h = some m := by
  have escape : doubleQuote ≠ '\\' := by decide
  have noShort : shortEscape? 'u' = none := by decide
  cases isBody with
  | nil =>
      rw [List.nil_append, List.cons.injEq] at starts
      exact absurd starts.1 escape
  | plain _ noEscape _ _ =>
      rw [List.cons_append, List.cons.injEq] at starts
      exact absurd starts.1 noEscape
  | short short _ =>
      simp only [List.cons_append, List.cons.injEq, true_and] at starts
      rw [starts.1, noShort] at short
      cases short
  | unit digits _ _ =>
      simp only [List.cons_append, List.cons.injEq, true_and] at starts
      obtain ⟨rfl, rfl, rfl, rfl, -⟩ := starts
      exact ⟨_, digits⟩
  | pair digits _ _ _ _ =>
      simp only [List.cons_append, List.cons.injEq, true_and] at starts
      obtain ⟨rfl, rfl, rfl, rfl, -⟩ := starts
      exact ⟨_, digits⟩
  | half digits _ _ _ =>
      simp only [List.cons_append, List.cons.injEq, true_and] at starts
      obtain ⟨rfl, rfl, rfl, rfl, -⟩ := starts
      exact ⟨_, digits⟩

/-- The body of a string is read in full. -/
theorem readString_body (opening : Nat) {body out : List Char} (isBody : Body body out)
    (rest : List Char) : ∀ fuel, body.length < fuel → ∀ read,
      readString opening fuel read (body ++ doubleQuote :: rest) =
        .ok (String.ofList (read.reverse ++ out), rest) := by
  have some (body : List Char) : body ++ doubleQuote :: rest ≠ [] := by simp
  induction isBody with
  | nil =>
      refine forall_fuel fun fuel enough read => ?_
      rw [List.nil_append, readString.eq_def]
      simp
  | @plain c text out noQuote noEscape shown _ ih =>
      refine forall_fuel fun fuel enough read => ?_
      rw [List.cons_append, readString.eq_def]
      simp only
      rw [if_neg (by simpa using noQuote),
        if_neg (by simpa using noEscape), if_neg (Nat.not_lt.mpr shown), ih _ enough]
      simp
  | @short letter c text out short _ ih =>
      refine forall_fuel fun fuel enough read => ?_
      simp only [List.length_cons] at enough
      rw [List.cons_append, List.cons_append, readString_escape opening fuel read short,
        ih _ (by omega)]
      simp
  | @unit a b c d n text out digits noHalf _ ih =>
      refine forall_fuel fun fuel enough read => ?_
      simp only [List.length_cons] at enough
      have unit := readUnit_of_unit digits noHalf (some text)
      simp only [List.cons_append]
      rw [readString_unit opening fuel read unit, ih _ (by omega)]
      simp
  | @pair a b c d e f g h high low text out digits first digitsToo second _ ih =>
      refine forall_fuel fun fuel enough read => ?_
      simp only [List.length_cons] at enough
      have unit := readUnit_of_pair digits first digitsToo second (some text)
      simp only [List.cons_append]
      rw [readString_unit opening fuel read unit, ih _ (by omega)]
      simp
  | @half a b c d n text out digits first alone behind ih =>
      refine forall_fuel fun fuel enough read => ?_
      simp only [List.length_cons] at enough
      have unit := readUnit_of_half digits first (some text)
        (fun starts => alone (startsLow_of_append starts))
        (fun e f g h last more starts => exists_digits_of_body behind starts)
      simp only [List.cons_append]
      rw [readString_unit opening fuel read unit, ih _ (by omega)]
      simp

/-- What is read up to the closing quote is the body of a text. -/
theorem readText_sound {text rest : List Char} {s : String}
    (found : readText text = .ok (s, rest)) :
    ∃ body out, text = body ++ doubleQuote :: rest ∧ Body body out ∧ s = String.ofList out := by
  simpa using readString_sound found

/-- The body of a text is read up to the closing quote. -/
theorem readText_body {body out : List Char} (isBody : Body body out) (rest : List Char) :
    readText (body ++ doubleQuote :: rest) = .ok (String.ofList out, rest) := by
  have enough : body.length < (body ++ doubleQuote :: rest).length + 1 := by
    rw [List.length_append]
    omega
  simpa [readText] using readString_body _ isBody rest _ enough []

/-! ### Numbers -/

/-- Digits are read up to a character that is none. -/
theorem takeWhile_digits {digits rest : List Char} (each : ∀ c ∈ digits, isAsciiDigit c = true)
    (stops : ∀ c ∈ rest.head?, isAsciiDigit c = false) :
    (digits ++ rest).takeWhile isAsciiDigit = digits ∧
      (digits ++ rest).dropWhile isAsciiDigit = rest := by
  rw [List.takeWhile_append_of_pos each, List.dropWhile_append_of_pos each]
  cases rest with
  | nil => exact ⟨List.append_nil digits, rfl⟩
  | cons c rest => simp [stops c rfl]

/-- The digits that a text starts with. -/
theorem isDigits_takeWhile {text : List Char} (some : text.takeWhile isAsciiDigit ≠ []) :
    IsDigits (text.takeWhile isAsciiDigit) :=
  ⟨some, fun _ member => List.mem_takeWhile_imp member⟩

/-- Digits end where no digit follows. -/
theorem digits_stop (text : List Char) :
    ∀ c ∈ (text.dropWhile isAsciiDigit).head?, isAsciiDigit c = false := by
  intro c first
  have stops := List.head?_dropWhile_not isAsciiDigit text
  rw [Option.mem_def.mp first] at stops
  simpa using stops

theorem exists_digit {text : List Char} (some : text.takeWhile isAsciiDigit ≠ []) :
    ∃ c rest, text = c :: rest ∧ isAsciiDigit c = true := by
  cases text with
  | nil => exact absurd rfl some
  | cons c rest =>
      by_cases digit : isAsciiDigit c = true
      · exact ⟨c, rest, rfl, digit⟩
      · exact absurd (List.takeWhile_cons_of_neg digit) some

/-- What is read as the whole part of a number is one. -/
theorem readWhole?_sound {text whole rest : List Char}
    (read : readWhole? text = some (whole, rest)) : WholeText whole ∧ text = whole ++ rest := by
  unfold readWhole? at read
  split at read
  next =>
    cases read
    exact ⟨.zero, rfl⟩
  next c more other =>
    split at read
    next digit =>
      cases read
      refine ⟨.digits digit ?_ fun d member => List.mem_takeWhile_imp member, ?_⟩
      · rintro rfl
        exact other rfl
      · rw [List.cons_append, List.takeWhile_append_dropWhile]
    next => cases read
  next => cases read

/-- A whole part is read in full, where no digit follows. -/
theorem readWhole?_whole {whole rest : List Char} (isWhole : WholeText whole)
    (stops : ∀ c ∈ rest.head?, isAsciiDigit c = false) :
    readWhole? (whole ++ rest) = some (whole, rest) := by
  cases isWhole with
  | zero => rfl
  | @digits c more first noZero others =>
      obtain ⟨taken, left⟩ := takeWhile_digits others stops
      rw [List.cons_append]
      unfold readWhole?
      split
      next same => exact absurd (List.cons.inj same).1 noZero
      next d others other same =>
        obtain ⟨rfl, rfl⟩ := List.cons.inj same
        rw [if_pos first, taken, left]
      next same => cases same

/-- A whole part of several digits is read up to its last one. -/
theorem readWhole?_stops {text whole rest : List Char}
    (read : readWhole? text = some (whole, rest)) (several : 1 < whole.length) :
    ∀ c ∈ rest.head?, isAsciiDigit c = false := by
  unfold readWhole? at read
  split at read
  next =>
    obtain ⟨rfl, -⟩ := Prod.mk.inj (Option.some.inj read)
    exact absurd several (by decide)
  next more =>
    split at read
    next =>
      obtain ⟨-, rfl⟩ := Prod.mk.inj (Option.some.inj read)
      exact digits_stop _
    next => cases read
  next => cases read

/-- What is read as a fraction is one, or nothing. -/
theorem readFraction_sound (text : List Char) :
    ∃ point, FractionText point (readFraction text).1 ∧ text = point ++ (readFraction text).2 := by
  unfold readFraction
  split
  next more =>
    split
    next => exact ⟨[], .none, rfl⟩
    next some =>
      refine ⟨_, .some (isDigits_takeWhile (by simpa using some)), ?_⟩
      rw [List.cons_append, List.takeWhile_append_dropWhile]
  next => exact ⟨[], .none, rfl⟩

/-- Without a point and a digit there is no fraction. -/
theorem readFraction_none {rest : List Char}
    (no : ∀ c more, rest = '.' :: c :: more → isAsciiDigit c = false) :
    readFraction rest = ([], rest) := by
  unfold readFraction
  split
  next more =>
    have none : more.takeWhile isAsciiDigit = [] := by
      by_contra some
      obtain ⟨c, others, rfl, digit⟩ := exists_digit some
      rw [no c others rfl] at digit
      cases digit
    rw [none]
    rfl
  next => rfl

/-- A fraction is read in full, where no digit follows. -/
theorem readFraction_some {digits rest : List Char} (isDigits : IsDigits digits)
    (stops : ∀ c ∈ rest.head?, isAsciiDigit c = false) :
    readFraction ('.' :: (digits ++ rest)) = (digits, rest) := by
  obtain ⟨taken, left⟩ := takeWhile_digits isDigits.2 stops
  have some : digits.isEmpty = false := by simpa using isDigits.1
  rw [readFraction, taken, left, some]
  rfl

/-- A text that starts with digits, with what stands behind them. -/
theorem exists_digits_of_cons {c : Char} (digit : isAsciiDigit c = true) (rest : List Char) :
    ∃ digits behind, IsDigits digits ∧ (∀ d ∈ behind.head?, isAsciiDigit d = false) ∧
      c :: rest = digits ++ behind := by
  refine ⟨_, _, isDigits_takeWhile ?_, digits_stop (c :: rest),
    List.takeWhile_append_dropWhile.symm⟩
  simp [digit]

theorem readFraction_ne_nil {c : Char} (digit : isAsciiDigit c = true) {rest : List Char} :
    (readFraction ('.' :: c :: rest)).1 ≠ [] := by
  obtain ⟨digits, behind, isDigits, stops, split⟩ := exists_digits_of_cons digit rest
  rw [split, readFraction_some isDigits stops]
  exact isDigits.1

/-- Where no fraction is read nothing is taken off the text. -/
theorem readFraction_eq_nil {text : List Char} (none : (readFraction text).1 = []) :
    (readFraction text).2 = text := by
  obtain ⟨point, isFraction, split⟩ := readFraction_sound text
  rw [none] at isFraction
  cases isFraction with
  | none => exact split.symm
  | some isDigits => exact absurd rfl isDigits.1

/-- What is split off as a sign is one, or nothing. -/
theorem splitSign_sound (text : List Char) :
    ∃ sign, SignText sign (splitSign text).1 ∧ text = sign ++ (splitSign text).2 := by
  unfold splitSign
  split
  · exact ⟨['+'], .plus, rfl⟩
  · exact ⟨['-'], .minus, rfl⟩
  · exact ⟨[], .none, rfl⟩

/-- A sign is split off from the digit behind it. -/
theorem splitSign_sign {sign : List Char} {negative : Bool} (isSign : SignText sign negative)
    {c : Char} (digit : isAsciiDigit c = true) (rest : List Char) :
    splitSign (sign ++ c :: rest) = (negative, c :: rest) := by
  cases isSign with
  | none =>
      rw [List.nil_append]
      unfold splitSign
      split
      next same =>
        rw [(List.cons.inj same).1] at digit
        exact absurd digit (by decide)
      next same =>
        rw [(List.cons.inj same).1] at digit
        exact absurd digit (by decide)
      next => rfl
  | plus => rfl
  | minus => rfl

/-- What is read as an exponent is one, or nothing. -/
theorem readExponent_sound (text : List Char) :
    ∃ power, ExponentText power (readExponent text).1 ∧ text = power ++ (readExponent text).2 := by
  unfold readExponent
  split
  next c more =>
    split
    next letter =>
      obtain ⟨sign, isSign, signed⟩ := splitSign_sound more
      dsimp only
      split
      next => exact ⟨[], .none, rfl⟩
      next some =>
        have isLetter : c = 'e' ∨ c = 'E' := by simpa using letter
        refine ⟨_, .some isLetter isSign (isDigits_takeWhile (by simpa using some)), ?_⟩
        rw [List.cons_append, List.append_assoc, List.takeWhile_append_dropWhile, ← signed]
    next => exact ⟨[], .none, rfl⟩
  next => exact ⟨[], .none, rfl⟩

/-- Where a number does not go on there is no exponent. -/
theorem readExponent_none {rest : List Char} (no : ¬ Continues rest) :
    readExponent rest = (none, rest) := by
  unfold readExponent
  split
  next c more =>
    split
    next letter =>
      obtain ⟨sign, isSign, signed⟩ := splitSign_sound more
      have none : (splitSign more).2.takeWhile isAsciiDigit = [] := by
        by_contra some
        obtain ⟨d, others, split, digit⟩ := exists_digit some
        rw [split] at signed
        rw [signed] at no
        exact no (.exponent (by simpa using letter) isSign digit)
      dsimp only
      rw [none]
      rfl
    next => rfl
  next => rfl

/-- An exponent is read in full, where no digit follows. -/
theorem readExponent_some {letter : Char} {sign digits rest : List Char} {negative : Bool}
    (isLetter : letter = 'e' ∨ letter = 'E') (isSign : SignText sign negative)
    (isDigits : IsDigits digits) (stops : ∀ c ∈ rest.head?, isAsciiDigit c = false) :
    readExponent (letter :: (sign ++ (digits ++ rest))) =
      (some (signed negative (digitsValue digits)), rest) := by
  obtain ⟨taken, left⟩ := takeWhile_digits isDigits.2 stops
  obtain ⟨c, more, rfl⟩ := List.exists_cons_of_ne_nil isDigits.1
  have split := splitSign_sign isSign (isDigits.2 c List.mem_cons_self) (more ++ rest)
  rw [List.cons_append] at taken left ⊢
  have isPower : (letter == 'e' || letter == 'E') = true := by simpa using isLetter
  rw [readExponent, if_pos isPower, split]
  dsimp only
  rw [taken, left]
  rfl

theorem readExponent_ne_none {letter c : Char} {sign : List Char} {negative : Bool}
    (isLetter : letter = 'e' ∨ letter = 'E') (isSign : SignText sign negative)
    (digit : isAsciiDigit c = true) {rest : List Char} :
    (readExponent (letter :: (sign ++ c :: rest))).1 ≠ none := by
  obtain ⟨digits, behind, isDigits, stops, split⟩ := exists_digits_of_cons digit rest
  rw [split, readExponent_some isLetter isSign isDigits stops]
  exact Option.some_ne_none _

/-- Where no exponent is read nothing is taken off the text. -/
theorem readExponent_eq_none {text : List Char} (none : (readExponent text).1 = none) :
    (readExponent text).2 = text := by
  obtain ⟨power, isExponent, split⟩ := readExponent_sound text
  rw [none] at isExponent
  cases isExponent
  exact split.symm

/-- Reads a number behind its sign. -/
def readMagnitude? (negative : Bool) (text : List Char) : Option (Numeral × List Char) :=
  (readWhole? text).bind fun read =>
    let behindFraction := (readFraction read.2).2
    some (⟨negative, read.1, (readFraction read.2).1, (readExponent behindFraction).1⟩,
      (readExponent behindFraction).2)

theorem readNumeral?_minus (text : List Char) :
    readNumeral? ('-' :: text) = readMagnitude? true text := rfl

theorem readNumeral?_plain {text : List Char} (noMinus : '-' ∉ text.head?) :
    readNumeral? text = readMagnitude? false text := by
  cases text with
  | nil => rfl
  | cons c rest =>
      have other : c ≠ '-' := fun same => noMinus (by rw [same]; rfl)
      unfold readNumeral?
      split
      next same =>
        split at same
        next minus => exact absurd (List.cons.inj minus).1 other
        next => cases same; rfl

/-- What is read behind the sign of a number is a magnitude. -/
theorem readMagnitude?_sound {negative : Bool} {text rest : List Char} {numeral : Numeral}
    (read : readMagnitude? negative text = some (numeral, rest)) :
    numeral.negative = negative ∧ ∃ word, MagnitudeText word numeral ∧ text = word ++ rest := by
  obtain ⟨⟨whole, behindWhole⟩, wholeRead, built⟩ := Option.bind_eq_some_iff.mp read
  obtain ⟨isWhole, rfl⟩ := readWhole?_sound wholeRead
  obtain ⟨point, isFraction, fractionSplit⟩ := readFraction_sound behindWhole
  obtain ⟨power, isExponent, exponentSplit⟩ := readExponent_sound (readFraction behindWhole).2
  obtain ⟨rfl, rfl⟩ := Prod.mk.inj (Option.some.inj built)
  refine ⟨rfl, _, .mk isWhole isFraction isExponent, ?_⟩
  rw [List.append_assoc, List.append_assoc, ← exponentSplit, ← fractionSplit]

/-- What is read off a text as a number is one. -/
theorem readNumeral?_sound {text rest : List Char} {numeral : Numeral}
    (read : readNumeral? text = some (numeral, rest)) :
    ∃ word, NumeralText word numeral ∧ text = word ++ rest := by
  by_cases minus : '-' ∈ text.head?
  · obtain ⟨more, rfl⟩ := List.head?_eq_some_iff.mp minus
    rw [readNumeral?_minus] at read
    obtain ⟨negative, word, isMagnitude, rfl⟩ := readMagnitude?_sound read
    exact ⟨_, .minus isMagnitude negative, rfl⟩
  · rw [readNumeral?_plain minus] at read
    obtain ⟨positive, word, isMagnitude, rfl⟩ := readMagnitude?_sound read
    exact ⟨_, .plain isMagnitude positive, rfl⟩

/-- No digit stands where no number goes on. -/
theorem isAsciiDigit_head? {rest : List Char} (ends : ¬ Continues rest) :
    ∀ c ∈ rest.head?, isAsciiDigit c = false := by
  intro c first
  obtain ⟨more, rfl⟩ := List.head?_eq_some_iff.mp first
  by_contra digit
  exact ends (.digit (by simpa using digit))

/-- Behind a fraction neither a digit nor another fraction can follow. -/
theorem head?_power {power rest : List Char} {exponent : Option Int}
    (isExponent : ExponentText power exponent) (ends : ¬ Continues rest) :
    (∀ c ∈ (power ++ rest).head?, isAsciiDigit c = false) ∧
      ∀ c more, power ++ rest = '.' :: c :: more → isAsciiDigit c = false := by
  cases isExponent with
  | none =>
      refine ⟨isAsciiDigit_head? ends, ?_⟩
      rintro c more rfl
      by_contra digit
      exact ends (.fraction (by simpa using digit))
  | some isLetter _ _ =>
      constructor
      · intro c first
        obtain rfl := Option.some.inj first
        rcases isLetter with rfl | rfl <;> decide
      · intro c more same
        rw [List.cons_append, List.cons.injEq] at same
        rcases isLetter with rfl | rfl
        · exact absurd same.1 (by decide)
        · exact absurd same.1 (by decide)

/-- The magnitude of a number is read in full where the text does not go on with it. -/
theorem readMagnitude?_magnitude {word rest : List Char} {numeral : Numeral}
    (isMagnitude : MagnitudeText word numeral) (ends : ¬ Continues rest) :
    readMagnitude? numeral.negative (word ++ rest) = some (numeral, rest) := by
  obtain @⟨whole, point, fraction, power, exponent, negative, isWhole, isFraction, isExponent⟩ :=
    isMagnitude
  obtain ⟨noDigit, noFraction⟩ := head?_power isExponent ends
  have readPower : readExponent (power ++ rest) = (exponent, rest) := by
    cases isExponent with
    | none => exact readExponent_none ends
    | some isLetter isSign isDigits =>
        rw [List.cons_append, List.append_assoc]
        exact readExponent_some isLetter isSign isDigits (isAsciiDigit_head? ends)
  have readPoint : readFraction (point ++ (power ++ rest)) = (fraction, power ++ rest) := by
    cases isFraction with
    | none => exact readFraction_none noFraction
    | some isDigits =>
        rw [List.cons_append]
        exact readFraction_some isDigits noDigit
  have stops : ∀ c ∈ (point ++ (power ++ rest)).head?, isAsciiDigit c = false := by
    cases isFraction with
    | none => exact noDigit
    | some _ =>
        intro c first
        obtain rfl := Option.some.inj first
        decide
  rw [List.append_assoc, List.append_assoc, readMagnitude?, readWhole?_whole isWhole stops]
  simp only [Option.bind_some, readPoint, readPower]

/-- A magnitude starts with a digit. -/
theorem head?_magnitude {word : List Char} {numeral : Numeral}
    (isMagnitude : MagnitudeText word numeral) :
    ∃ c more, word = c :: more ∧ isAsciiDigit c = true := by
  obtain ⟨isWhole, -, -⟩ := isMagnitude
  cases isWhole with
  | zero => exact ⟨'0', _, rfl, by decide⟩
  | digits first _ _ => exact ⟨_, _, rfl, first⟩

/-- A number is read in full where the text does not go on with it. -/
theorem readNumeral?_numeral {word rest : List Char} {numeral : Numeral}
    (isNumeral : NumeralText word numeral) (ends : ¬ Continues rest) :
    readNumeral? (word ++ rest) = some (numeral, rest) := by
  cases isNumeral with
  | plain isMagnitude positive =>
      obtain ⟨c, more, same, digit⟩ := head?_magnitude isMagnitude
      rw [readNumeral?_plain, ← positive, readMagnitude?_magnitude isMagnitude ends]
      rw [same]
      intro minus
      obtain rfl := Option.some.inj minus
      exact absurd digit (by decide)
  | minus isMagnitude negative =>
      rw [List.cons_append, readNumeral?_minus, ← negative,
        readMagnitude?_magnitude isMagnitude ends]

end Reporting.Json
