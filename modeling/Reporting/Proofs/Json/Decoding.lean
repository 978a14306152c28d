import Reporting.Proofs.Json.Parsing

/-!
# Decoding JSON text

Reading a text gives a value exactly where the grammar does (`read_eq_ok_iff`): what the reader
takes off a text is the text of a value (`sound`), and such a text is read in full.
-/

namespace Reporting.Json

open Text

variable {limits : Option Limits}

/-- Items with commas between them, and their values. -/
def ItemsText (limits : Option Limits) (outside : Nat) (text : List Char) (items : List Value) :
    Prop :=
  ∃ pieces : List Piece, pieces ≠ [] ∧ (∀ piece ∈ pieces, piece.Padded) ∧
    (∀ piece ∈ pieces, Spells limits outside piece.text piece.value) ∧
    text = listed (pieces.map Piece.written) ∧ items = pieces.map Piece.value

/-- Members with commas between them, as keys and values. -/
def MembersText (limits : Option Limits) (outside : Nat) (text : List Char)
    (members : List (String × Value)) : Prop :=
  ∃ entries : List Entry, entries ≠ [] ∧ (∀ entry ∈ entries, entry.Padded) ∧
    (∀ entry ∈ entries, Body entry.body entry.key) ∧
    (∀ entry ∈ entries, Spells limits outside entry.piece.text entry.piece.value) ∧
    text = listed (entries.map Entry.written) ∧ members = entries.map Entry.member

/-- What the reader takes off a text, within an amount of fuel, is the text of a value, or of the
items of a list or the members of an object up to the closing bracket. -/
structure Sound (limits : Option Limits) (fuel : Nat) : Prop where
  value : ∀ {outside : Nat} {text rest : List Char} {value : Value},
    readValue limits fuel outside text = .ok (value, rest) →
      ∃ word, text = word ++ rest ∧ Spells limits outside word value
  items : ∀ {outside : Nat} {before : List Value} {text rest : List Char} {value : Value},
    readItems limits fuel outside before (skipBlank text) = .ok (value, rest) →
      ∃ word items, text = word ++ ']' :: rest ∧ ItemsText limits outside word items ∧
        value = .list (before.reverse ++ items)
  members : ∀ {outside : Nat} {before : List (String × Value)} {text rest : List Char}
    {value : Value}, readMembers limits fuel outside before (skipBlank text) = .ok (value, rest) →
      ∃ word members, text = word ++ '}' :: rest ∧ MembersText limits outside word members ∧
        value = Value.ofMembers (before.reverse ++ members)

/-- The key and the colon that a member starts with. -/
theorem exists_label {text left more : List Char} {key : String}
    (keyRead : readText left = .ok (key, more)) {behind : List Char}
    (opened : skipBlank text = doubleQuote :: left) (colon : skipBlank more = ':' :: behind) :
    ∃ blanks body out gap, IsBlanks blanks ∧ Body body out ∧ IsBlanks gap ∧
      key = String.ofList out ∧ text = label blanks body gap ++ behind := by
  obtain ⟨blanks, isBlanks, split⟩ := exists_skipBlank text
  obtain ⟨body, out, rfl, isBody, rfl⟩ := readText_sound keyRead
  obtain ⟨gap, isGap, gapSplit⟩ := exists_skipBlank more
  refine ⟨blanks, body, out, gap, isBlanks, isBody, isGap, rfl, ?_⟩
  rw [split, opened, gapSplit, colon]
  simp [label]

/-- A value and the blanks around it, up to the character that ends it. -/
theorem exists_piece {text left behind : List Char} {c : Char} {outside : Nat} {value : Value}
    (spelt : ∃ word, skipBlank text = word ++ left ∧ Spells limits outside word value)
    (ended : skipBlank left = c :: behind) :
    ∃ piece : Piece, piece.Padded ∧ Spells limits outside piece.text piece.value ∧
      piece.value = value ∧ text = piece.written ++ c :: behind := by
  obtain ⟨word, same, spells⟩ := spelt
  obtain ⟨blanks, isBlanks, split⟩ := exists_skipBlank text
  obtain ⟨gap, isGap, gapSplit⟩ := exists_skipBlank left
  refine ⟨⟨blanks, word, gap, value⟩, ⟨isBlanks, isGap⟩, spells, rfl, ?_⟩
  rw [split, same, gapSplit, ended]
  simp [Piece.written]

namespace Sound

variable {fuel : Nat}

/-- With one more unit of fuel what is read is still the text of a value. -/
theorem succ_value (sound : Sound limits fuel) {outside : Nat} {text rest : List Char}
    {value : Value} (read : readValue limits (fuel + 1) outside text = .ok (value, rest)) :
    ∃ word, text = word ++ rest ∧ Spells limits outside word value := by
  rw [readValue.eq_def] at read
  dsimp only at read
  split at read
  next left =>
    obtain ⟨⟨s, behind⟩, found, same⟩ := Outcome.map_eq_ok.mp read
    obtain ⟨rfl, rfl⟩ := Prod.mk.inj same
    obtain ⟨body, out, rfl, isBody, rfl⟩ := readText_sound found
    exact ⟨doubleQuote :: (body ++ [doubleQuote]), by simp [doubleQuote], .text isBody⟩
  next left =>
    obtain ⟨shallow, read⟩ := Outcome.check_bind_eq_ok.mp read
    rw [shallow_iff] at shallow
    obtain ⟨blanks, isBlanks, split⟩ := exists_skipBlank left
    split at read
    next closed =>
      obtain ⟨rfl, rfl⟩ := Prod.mk.inj (Except.ok.inj read)
      refine ⟨'{' :: (blanks ++ ['}']), ?_, .emptyObject shallow isBlanks⟩
      rw [split, closed]
      simp
    next =>
      obtain ⟨_, _, same, ⟨entries, some, padded, keys, each, rfl, rfl⟩, rfl⟩ :=
        sound.members read
      exact ⟨'{' :: (listed (entries.map Entry.written) ++ ['}']), by rw [same]; simp,
        .object shallow some padded keys each⟩
  next left =>
    obtain ⟨shallow, read⟩ := Outcome.check_bind_eq_ok.mp read
    rw [shallow_iff] at shallow
    obtain ⟨blanks, isBlanks, split⟩ := exists_skipBlank left
    split at read
    next closed =>
      obtain ⟨rfl, rfl⟩ := Prod.mk.inj (Except.ok.inj read)
      refine ⟨'[' :: (blanks ++ [']']), ?_, .emptyList shallow isBlanks⟩
      rw [split, closed]
      simp
    next =>
      obtain ⟨_, _, same, ⟨pieces, some, padded, each, rfl, rfl⟩, rfl⟩ := sound.items read
      exact ⟨'[' :: (listed (pieces.map Piece.written) ++ [']']), by rw [same]; simp,
        .list shallow some padded each⟩
  next => exact readPlain_sound read outside

/-- So it is with the items of a list. -/
theorem succ_items (sound : Sound limits fuel) {outside : Nat} {before : List Value}
    {text rest : List Char} {value : Value}
    (read : readItems limits (fuel + 1) outside before (skipBlank text) = .ok (value, rest)) :
    ∃ word items, text = word ++ ']' :: rest ∧ ItemsText limits outside word items ∧
      value = .list (before.reverse ++ items) := by
  rw [readItems_succ] at read
  obtain ⟨⟨item, left⟩, itemRead, behind⟩ := Outcome.bind_eq_ok.mp read
  dsimp only at behind
  split at behind
  next ended =>
    obtain ⟨rfl, rfl⟩ := Prod.mk.inj (Except.ok.inj behind)
    obtain ⟨piece, padded, spells, rfl, rfl⟩ := exists_piece (sound.value itemRead) ended
    exact ⟨piece.written, [piece.value], rfl, ⟨[piece], by simp, by simpa using padded,
      by simpa using spells, by simp [listed_singleton], by simp⟩, by simp⟩
  next ended =>
    obtain ⟨piece, padded, spells, rfl, rfl⟩ := exists_piece (sound.value itemRead) ended
    obtain ⟨_, _, rfl, ⟨pieces, some, allPadded, each, rfl, rfl⟩, rfl⟩ := sound.items behind
    refine ⟨_, _, ?_, ⟨piece :: pieces, by simp, List.forall_mem_cons.mpr ⟨padded, allPadded⟩,
      List.forall_mem_cons.mpr ⟨spells, each⟩, rfl, rfl⟩, by simp⟩
    rw [List.map_cons, listed_cons _ (by simpa using some), List.append_assoc, List.cons_append]
  next => cases behind

/-- So it is with the members of an object. -/
theorem succ_members (sound : Sound limits fuel) {outside : Nat}
    {before : List (String × Value)} {text rest : List Char} {value : Value}
    (read : readMembers limits (fuel + 1) outside before (skipBlank text) = .ok (value, rest)) :
    ∃ word members, text = word ++ '}' :: rest ∧ MembersText limits outside word members ∧
      value = Value.ofMembers (before.reverse ++ members) := by
  rw [readMembers.eq_def] at read
  dsimp only at read
  split at read
  next opened =>
    obtain ⟨⟨key, left⟩, keyRead, behindKey⟩ := Outcome.bind_eq_ok.mp read
    dsimp only at behindKey
    split at behindKey
    next colon =>
      obtain ⟨blanks, body, out, gap, isBlanks, isBody, isGap, rfl, rfl⟩ :=
        exists_label keyRead opened colon
      obtain ⟨⟨member, left⟩, memberRead, behind⟩ := Outcome.bind_eq_ok.mp behindKey
      dsimp only at behind
      split at behind
      next ended =>
        obtain ⟨rfl, rfl⟩ := Prod.mk.inj (Except.ok.inj behind)
        obtain ⟨piece, padded, spells, rfl, rfl⟩ := exists_piece (sound.value memberRead) ended
        refine ⟨_, _, ?_, ⟨[⟨blanks, body, out, gap, piece⟩], by simp, ?_, by simpa using isBody,
          by simpa using spells, rfl, rfl⟩, by simp [Entry.member]⟩
        · simp [Entry.written, listed_singleton]
        · simpa using ⟨isBlanks, isGap, padded⟩
      next ended =>
        obtain ⟨piece, padded, spells, rfl, rfl⟩ := exists_piece (sound.value memberRead) ended
        obtain ⟨_, _, rfl, ⟨entries, some, allPadded, keys, each, rfl, rfl⟩, rfl⟩ :=
          sound.members behind
        refine ⟨_, _, ?_, ⟨⟨blanks, body, out, gap, piece⟩ :: entries, by simp,
          List.forall_mem_cons.mpr ⟨⟨isBlanks, isGap, padded⟩, allPadded⟩,
          List.forall_mem_cons.mpr ⟨isBody, keys⟩, List.forall_mem_cons.mpr ⟨spells, each⟩, rfl,
          rfl⟩, by simp [Entry.member]⟩
        rw [List.map_cons, listed_cons _ (by simpa using some)]
        simp [Entry.written]
      next => cases behind
    next => cases behindKey
  next => cases read

end Sound

/-- Whatever the fuel, what the reader takes off a text is the text of a value. -/
theorem sound (limits : Option Limits) (fuel : Nat) : Sound limits fuel := by
  induction fuel with
  | zero =>
      constructor
      · intro outside text rest value read
        rw [readValue] at read
        cases read
      · intro outside before text rest value read
        rw [readItems] at read
        cases read
      · intro outside before text rest value read
        rw [readMembers] at read
        cases read
  | succ fuel ih => exact ⟨ih.succ_value, ih.succ_items, ih.succ_members⟩

/-- A text that does not start with a byte order mark is read as a value with blanks around it. -/
theorem readDocument_of_starts (limits : Option Limits) {blanks text : List Char}
    (isBlanks : IsBlanks blanks) (starts : Starts text) (rest : List Char) :
    readDocument limits (blanks ++ (text ++ rest)) =
      readValue limits (2 * (blanks ++ (text ++ rest)).length + 1) 0 (text ++ rest) >>=
        fun (value, rest) =>
          match skipBlank rest with
          | [] => .ok value
          | rest => .error (.stop .extraData rest.length) := by
  have noMark : ¬ ((blanks ++ (text ++ rest)).head? == some (Char.ofNat 0xFEFF)) = true := by
    rw [beq_iff_eq]
    intro mark
    cases blanks with
    | nil =>
        obtain ⟨c, more, rfl, start⟩ := starts
        exact start.2.2.2 (Option.some.inj mark)
    | cons c blanks =>
        have gap := isBlanks c List.mem_cons_self
        rw [Option.some.inj mark] at gap
        exact absurd gap (by decide)
  rw [readDocument, if_neg noMark, skipBlank_starts isBlanks starts]
  rfl

/-- A document is read iff it is the text of a value with blanks around it. -/
theorem readDocument_eq_ok_iff {text : List Char} {value : Value} :
    readDocument limits text = .ok value ↔
      ∃ piece : Piece, piece.Padded ∧ Spells limits 0 piece.text piece.value ∧
        piece.written = text ∧ piece.value = value := by
  constructor
  · intro read
    obtain ⟨-, read⟩ := Outcome.guarded_eq_ok.mp read
    obtain ⟨⟨found, left⟩, valueRead, behind⟩ := Outcome.bind_eq_ok.mp read
    dsimp only at behind
    split at behind
    next ended =>
      obtain ⟨word, same, spells⟩ := (sound limits _).value valueRead
      obtain ⟨blanks, isBlanks, split⟩ := exists_skipBlank text
      obtain ⟨gap, isGap, gapSplit⟩ := exists_skipBlank left
      refine ⟨⟨blanks, word, gap, found⟩, ⟨isBlanks, isGap⟩, spells, ?_,
        Outcome.pure_eq_ok.mp behind⟩
      rw [Piece.written, split, same, gapSplit, ended, List.append_nil]
    next => cases behind
  · rintro ⟨piece, padded, spells, rfl, rfl⟩
    have enough : 2 * piece.text.length < 2 * piece.written.length + 1 := by
      have := piece.length_text_le
      omega
    have ends : Ends piece.behind := by
      simpa using ends_append padded.2 ends_nil
    rw [Piece.written] at enough ⊢
    rw [readDocument_of_starts limits padded.1 (head?_spells spells),
      readsAs_of_spells spells _ ends _ enough]
    have skipped : skipBlank piece.behind = [] := by
      simpa [skipBlank] using skipBlank_append padded.2 []
    simp only [bind, Except.bind, skipped]

/-- Reading a text gives a value iff the text is one of this value. -/
theorem read_eq_ok_iff {text : String} {value : Value} :
    read limits text = .ok value ↔ Represents limits text value := by
  rw [Represents, ← readDocument_eq_ok_iff, read]
  cases readDocument limits text.toList with
  | ok found => simp
  | error halt => cases halt <;> simp

end Reporting.Json
