import Mathlib.Data.List.Basic
import Mathlib.Data.List.Infix
import Reporting.Proofs.Report.Binding

/-!
# Filters that look for a text

A filter with `LIKE` binds its text between two percent signs. `Sql.Matches` says what such a
pattern matches where no character is declared to escape the others: a percent sign stands for any
run of characters, an underscore for any one character, every other character for itself. So the
pattern matches the texts with a part that the text of the filter matches (`Sql.matches_around`).
These are the texts that contain it iff it holds neither of the two signs; for a text with one of
them there is no pattern that matches just the texts containing it (`Filter.like_matches`).
-/

namespace Reporting

namespace Sql

/-- A pattern matches a text, where nothing in the pattern is escaped. -/
inductive Matches : List Char → List Char → Prop
  | nil : Matches [] []
  | run {pattern text : List Char} (skipped : List Char) (rest : Matches pattern text) :
      Matches ('%' :: pattern) (skipped ++ text)
  | any {pattern text : List Char} (c : Char) (rest : Matches pattern text) :
      Matches ('_' :: pattern) (c :: text)
  | same {pattern text : List Char} {c : Char} (noRun : c ≠ '%') (noAny : c ≠ '_')
      (rest : Matches pattern text) : Matches (c :: pattern) (c :: text)

/-- No character of the text stands for others in a pattern. -/
def Plain (text : List Char) : Prop := '%' ∉ text ∧ '_' ∉ text

instance (text : List Char) : Decidable (Plain text) :=
  inferInstanceAs (Decidable ('%' ∉ text ∧ '_' ∉ text))

variable {pattern others text : List Char}

/-- A percent sign stands for any run of characters. -/
theorem matches_run_iff :
    Matches ('%' :: pattern) text ↔
      ∃ skipped rest, text = skipped ++ rest ∧ Matches pattern rest := by
  constructor
  · intro found
    cases found with
    | run skipped rest => exact ⟨skipped, _, rfl, rest⟩
    | same noRun _ _ => exact absurd rfl noRun
  · rintro ⟨skipped, rest, rfl, found⟩
    exact .run skipped found

/-- A pattern in two parts matches a text in two parts. -/
theorem matches_append_iff : Matches (pattern ++ others) text ↔
    ∃ front back, text = front ++ back ∧ Matches pattern front ∧ Matches others back := by
  constructor
  · induction pattern generalizing text with
    | nil => exact fun found => ⟨[], text, rfl, .nil, found⟩
    | cons c pattern ih =>
        intro found
        rw [List.cons_append] at found
        cases found with
        | run skipped rest =>
            obtain ⟨front, back, rfl, first, second⟩ := ih rest
            exact ⟨skipped ++ front, back, (List.append_assoc ..).symm, .run skipped first, second⟩
        | any d rest =>
            obtain ⟨front, back, rfl, first, second⟩ := ih rest
            exact ⟨d :: front, back, rfl, .any d first, second⟩
        | same noRun noAny rest =>
            obtain ⟨front, back, rfl, first, second⟩ := ih rest
            exact ⟨c :: front, back, rfl, .same noRun noAny first, second⟩
  · rintro ⟨front, back, rfl, first, second⟩
    induction first with
    | nil => exact second
    | run skipped _ ih =>
        rw [List.cons_append, List.append_assoc]
        exact .run skipped ih
    | any d _ ih => exact .any d ih
    | same noRun noAny _ ih => exact .same noRun noAny ih

/-- Between two percent signs a pattern matches the texts with a part that it matches. -/
theorem matches_around : Matches ('%' :: (pattern ++ ['%'])) text ↔
    ∃ part, part <:+: text ∧ Matches pattern part := by
  rw [matches_run_iff]
  constructor
  · rintro ⟨before, _, rfl, found⟩
    obtain ⟨part, after, rfl, inside, -⟩ := matches_append_iff.mp found
    exact ⟨part, ⟨before, after, List.append_assoc ..⟩, inside⟩
  · rintro ⟨part, ⟨before, after, rfl⟩, inside⟩
    refine ⟨before, part ++ after, List.append_assoc .., matches_append_iff.mpr ?_⟩
    exact ⟨part, after, rfl, inside, by simpa using Matches.run after .nil⟩

/-- Every text matches itself. -/
theorem matches_self (text : List Char) : Matches text text := by
  induction text with
  | nil => exact .nil
  | cons c rest ih =>
      by_cases isRun : c = '%'
      · subst isRun
        exact .run ['%'] ih
      · by_cases isAny : c = '_'
        · subst isAny
          exact .any '_' ih
        · exact .same isRun isAny ih

/-- A text without signs matches nothing but itself. -/
theorem Plain.matches_iff (plain : Plain pattern) : Matches pattern text ↔ text = pattern := by
  constructor
  · intro found
    induction found with
    | nil => rfl
    | run _ _ _ => exact absurd List.mem_cons_self plain.1
    | any _ _ _ => exact absurd List.mem_cons_self plain.2
    | same _ _ _ ih =>
        rw [ih ⟨fun member => plain.1 (List.mem_cons_of_mem _ member),
          fun member => plain.2 (List.mem_cons_of_mem _ member)⟩]
  · rintro rfl
    exact matches_self text

/-- A pattern cannot tell the two signs of a text from other characters. -/
theorem Matches.map {f : Char → Char} (fixes : ∀ c, c ≠ '%' → c ≠ '_' → f c = c)
    (found : Matches pattern text) : Matches pattern (text.map f) := by
  induction found with
  | nil => exact .nil
  | run skipped _ ih =>
      rw [List.map_append]
      exact .run (skipped.map f) ih
  | any c _ ih => exact .any (f c) ih
  | same noRun noAny _ ih =>
      rw [List.map_cons, fixes _ noRun noAny]
      exact .same noRun noAny ih

/-- Writes a letter for each of the two signs. -/
def blurred (c : Char) : Char := if c = '%' ∨ c = '_' then 'x' else c

/-- A text without its special characters is plain. -/
theorem plain_map_blurred (text : List Char) : Plain (text.map blurred) := by
  have other (c : Char) : blurred c ≠ '%' ∧ blurred c ≠ '_' := by
    unfold blurred
    split <;> simp_all
  constructor
  · intro member
    obtain ⟨c, -, same⟩ := List.mem_map.mp member
    exact (other c).1 same
  · intro member
    obtain ⟨c, -, same⟩ := List.mem_map.mp member
    exact (other c).2 same

/-- What stands in a text without signs is without signs. -/
theorem Plain.of_part {part : List Char} (plain : Plain text) (inside : part <:+: text) :
    Plain part :=
  ⟨fun member => plain.1 (inside.subset member), fun member => plain.2 (inside.subset member)⟩

/-- For a text with a sign no pattern matches just the texts that contain it. -/
theorem plain_of_matches_iff_contains {sought : List Char}
    (contains : ∀ text, Matches pattern text ↔ sought <:+: text) : Plain sought := by
  have found : Matches pattern sought := (contains sought).mpr (List.infix_refl sought)
  have blind : Matches pattern (sought.map blurred) := found.map fun c noRun noAny => by
    simp [blurred, noRun, noAny]
  exact (plain_map_blurred sought).of_part ((contains _).mp blind)

end Sql

namespace Filter

/-- A filter with `LIKE` and a text binds one pattern. It matches the texts with a part that the
text of the filter matches as a pattern, hence all texts that contain it; just these iff it holds
neither a percent sign nor an underscore, and otherwise there is no pattern that matches just
these. -/
theorem like_matches {f : Filter} {sought : String} (operator : f.operator = "LIKE")
    (value : f.value = .text sought) : ∃ pattern : String, f.binds = .ok [.text pattern] ∧
      (∀ text, Sql.Matches pattern.toList text ↔
        ∃ part, part <:+: text ∧ Sql.Matches sought.toList part) ∧
      (∀ text, sought.toList <:+: text → Sql.Matches pattern.toList text) ∧
      ((∀ text, Sql.Matches pattern.toList text ↔ sought.toList <:+: text) ↔
        Sql.Plain sought.toList) ∧
      ((∃ other, ∀ text, Sql.Matches other text ↔ sought.toList <:+: text) ↔
        Sql.Plain sought.toList) := by
  have bound : f.binds = .ok [.text (containsPattern sought)] := by
    have made : f.pattern = .ok (containsPattern sought) := pattern_eq_ok.mpr ⟨_, value, rfl, rfl⟩
    rw [binds, test, operator]
    change (f.pattern.map Sql.Test.like).map _ = _
    rw [made]
    rfl
  have around (text : List Char) : Sql.Matches (containsPattern sought).toList text ↔
      ∃ part, part <:+: text ∧ Sql.Matches sought.toList part := by
    have signs : (containsPattern sought).toList = '%' :: (sought.toList ++ ['%']) := by
      simp [containsPattern, String.toList_append]
    rw [signs, Sql.matches_around]
  have exact_of_plain (plain : Sql.Plain sought.toList) (text : List Char) :
      Sql.Matches (containsPattern sought).toList text ↔ sought.toList <:+: text := by
    simp only [around, plain.matches_iff, exists_eq_right]
  refine ⟨containsPattern sought, bound, around, fun text inside => ?_, ?_, ?_⟩
  · exact (around text).mpr ⟨sought.toList, inside, Sql.matches_self sought.toList⟩
  · exact ⟨Sql.plain_of_matches_iff_contains, exact_of_plain⟩
  · constructor
    · rintro ⟨_, contains⟩
      exact Sql.plain_of_matches_iff_contains contains
    · exact fun plain => ⟨_, exact_of_plain plain⟩

/-- A word matches the texts that hold it. -/
theorem like_matches_tour :
    (⟨"name", "LIKE", .text "Tour"⟩ : Filter).operator = "LIKE" ∧
      ∃ pattern : String, (⟨"name", "LIKE", .text "Tour"⟩ : Filter).binds = .ok [.text pattern] ∧
        ∀ text, Sql.Matches pattern.toList text ↔ "Tour".toList <:+: text := by
  obtain ⟨pattern, bound, -, -, contains, -⟩ :=
    like_matches (f := ⟨"name", "LIKE", .text "Tour"⟩) rfl rfl
  exact ⟨rfl, pattern, bound, contains.mpr (by decide)⟩

/-- An underscore is looked for in vain: every text that is not empty matches. -/
theorem like_matches_not_containing :
    (⟨"name", "LIKE", .text "_"⟩ : Filter).binds = .ok [.text "%_%"] ∧
      Sql.Matches "%_%".toList "a".toList ∧ ¬ "_".toList <:+: "a".toList := by
  refine ⟨rfl, ?_, by decide⟩
  exact .run [] (.any 'a' (.run [] .nil))

end Filter

end Reporting
