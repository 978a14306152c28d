import Reporting.CommandLine.Display
import Reporting.Proofs.Join
import Reporting.Proofs.Text.Tight
import Reporting.Schema.Rewards

/-!
# Line breaks of a shown statement

A statement is shown with line breaks in front of its clauses and conjunctions. Each stands in the
place of a space, which the break in front of it may already have used up, so of two neighbours only
the first may be broken. But blanks are all that is ever replaced (`Text.Respaced`), and so the
words stay: with single spaces between its words the text in the panel is the statement again
(`showQuery_restores`).
-/

namespace Reporting

namespace Text

/-- The second text has blanks in the place of single blanks of the first one and is equal to it
otherwise. -/
inductive Respaced : List Char → List Char → Prop where
  | nil : Respaced [] []
  | copy (c : Char) {text other : List Char} (rest : Respaced text other) :
      Respaced (c :: text) (c :: other)
  | respace {blank : Char} {blanks text other : List Char} (single : isBlank blank = true)
      (some : blanks ≠ []) (each : ∀ c ∈ blanks, isBlank c = true) (rest : Respaced text other) :
      Respaced (blank :: text) (blanks ++ other)

/-- The characters of a text that are not blank. -/
def letters (text : List Char) : List Char := text.filter fun c => !isBlank c

/-- Words with single spaces between them, if there are any. -/
def SingleSpaced (text : String) : Prop :=
  ∃ pieces : List (List Char), (∀ piece ∈ pieces, piece ≠ [] ∧ Solid piece) ∧
    text.toList = joinWords pieces

/-- Blanks in front of a text are no part of its words. -/
theorem words_append_of_blanks {blanks : List Char} (each : ∀ c ∈ blanks, isBlank c = true)
    (text : List Char) : words (blanks ++ text) = words text := by
  induction blanks with
  | nil => rfl
  | cons blank blanks ih =>
      rw [List.forall_mem_cons] at each
      rw [List.cons_append, words_blank_cons _ each.1, ih each.2]

/-- A word ends at a blank. -/
theorem wordsFrom_blank_cons (word : List Char) {blank : Char} (single : isBlank blank = true)
    (text : List Char) : wordsFrom word (blank :: text) = wordsFrom word [] ++ words text :=
  @wordsFrom_append_blank word [] blank text single

/-- A word ends at blanks, however many there are. -/
theorem wordsFrom_append_of_blanks (word : List Char) {blanks : List Char} (some : blanks ≠ [])
    (each : ∀ c ∈ blanks, isBlank c = true) (text : List Char) :
    wordsFrom word (blanks ++ text) = wordsFrom word [] ++ words text := by
  obtain ⟨blank, blanks, rfl⟩ := List.exists_cons_of_ne_nil some
  rw [List.forall_mem_cons] at each
  rw [List.cons_append, wordsFrom_blank_cons word each.1, words_append_of_blanks each.2]

/-- Respacing keeps the words, also of a text of which a word has been read in part. -/
theorem Respaced.wordsFrom_eq {text other : List Char} (respaced : Respaced text other)
    (word : List Char) : wordsFrom word other = wordsFrom word text := by
  induction respaced generalizing word with
  | nil => rfl
  | copy c rest ih => simp only [wordsFrom, ih]
  | respace single some each rest ih =>
      rw [wordsFrom_append_of_blanks word some each, wordsFrom_blank_cons word single, words, ih,
        words]

/-- Other blanks between the same letters keep the words. -/
theorem Respaced.words_eq {text other : List Char} (respaced : Respaced text other) :
    words other = words text :=
  respaced.wordsFrom_eq []

/-- Texts with the same words have the same letters in the same order. -/
theorem letters_eq_of_words_eq {text other : List Char} (same : words other = words text) :
    letters other = letters text := by
  have kept (text : List Char) : letters (joinWords (words text)) = letters text :=
    filter_joinWords_wordsFrom [] text _ (by decide) fun c blank => by rw [blank, Bool.not_true]
  rw [← kept other, same, kept]

/-- A collapsed text is spaced singly. -/
theorem singleSpaced_collapse (text : String) : SingleSpaced (collapse text) := by
  refine ⟨words text.toList, fun piece member => ?_, String.toList_ofList⟩
  exact ⟨ne_nil_of_mem_wordsFrom member, solid_of_mem_wordsFrom (by simp) member⟩

/-- A text has single spaces iff collapsing leaves it as it is. -/
theorem singleSpaced_iff {text : String} : SingleSpaced text ↔ collapse text = text := by
  constructor
  · rintro ⟨pieces, each, joined⟩
    by_cases none : pieces = []
    · rw [none, joinWords, String.toList_eq_nil_iff] at joined
      rw [joined]
      rfl
    · refine Tight.collapse ?_
      rw [joined]
      exact tight_joinWords none each
  · intro kept
    rw [← kept]
    exact singleSpaced_collapse text

end Text

namespace CommandLine

open Text

/-- The words in front of which the line is broken. -/
def breakWords : List (List Char) := clauseWords ++ [['A', 'N', 'D']]

/-- One of these words stands between spaces. -/
def Breakable (text : List Char) : Prop :=
  ∃ words ∈ breakWords, ' ' :: (words ++ [' ']) <:+: text

/-- The text in the panel that comes first. -/
def panelBody? : List Printed → Option String
  | .panel body _ _ :: _ => some body
  | _ => none

/-- Breaking lines before clauses changes blanks only. -/
theorem respaced_breakClauses (skip : Nat) (text : List Char) :
    Respaced text (breakClauses skip text) := by
  fun_induction breakClauses skip text with
  | case1 skip => exact .nil
  | case2 skip c rest ih => exact .copy c ih
  | case3 c rest space words found ih =>
      rw [beq_iff_eq] at space
      rw [space]
      exact @Respaced.respace _ ['\n'] _ _ (by decide) (by simp)
        (List.all_eq_true.mp (by decide)) ih
  | case4 c rest space missing ih => exact .copy c ih
  | case5 c rest other ih => exact .copy c ih

/-- Breaking lines before conjunctions changes blanks only. -/
theorem respaced_breakConjunctions (skip : Nat) (text : List Char) :
    Respaced text (breakConjunctions skip text) := by
  fun_induction breakConjunctions skip text with
  | case1 skip => exact .nil
  | case2 skip c rest ih => exact .copy c ih
  | case3 c rest found ih =>
      rw [Bool.and_eq_true, beq_iff_eq] at found
      rw [found.1]
      exact @Respaced.respace _ ['\n', ' ', ' '] _ _ (by decide) (by simp)
        (List.all_eq_true.mp (by decide)) ih
  | case4 c rest missing ih => exact .copy c ih

/-- What is shown of a text has its words. -/
theorem words_formatSql (text : String) : words (formatSql text).toList = words text.toList := by
  rw [formatSql, String.toList_ofList, (respaced_breakConjunctions 0 _).words_eq,
    (respaced_breakClauses 0 _).words_eq]

/-- The breaks vanish when the text is collapsed. -/
theorem collapse_formatSql (text : String) : collapse (formatSql text) = collapse text := by
  rw [collapse, words_formatSql, collapse]

/-- No clause starts where none of its words stands between spaces. -/
theorem clauseAt?_eq_none_iff {text : List Char} :
    clauseAt? text = none ↔ ∀ words ∈ clauseWords, ¬ ' ' :: (words ++ [' ']) <+: ' ' :: text := by
  simp only [clauseAt?, List.find?_eq_none, List.isPrefixOf_iff_prefix, List.cons_prefix_cons,
    true_and]

/-- Lines are broken for clauses just where their words stand between spaces. -/
theorem breakClauses_eq_self_iff {text : List Char} :
    breakClauses 0 text = text ↔ ∀ words ∈ clauseWords, ¬ ' ' :: (words ++ [' ']) <:+: text := by
  induction text with
  | nil => simp [breakClauses]
  | cons c rest ih =>
      simp only [List.infix_cons_iff, not_or, forall₂_and, ← ih]
      by_cases space : c = ' '
      · subst space
        rw [← clauseAt?_eq_none_iff, breakClauses, beq_self_eq_true, if_pos rfl]
        cases found : clauseAt? rest with
        | none => simp
        | some words => simp
      · have apart (words : List Char) : ¬ ' ' :: (words ++ [' ']) <+: c :: rest := by
          rw [List.cons_prefix_cons]
          exact fun both => space both.1.symm
        rw [breakClauses, if_neg (by simpa using space)]
        simp [apart]

/-- A break before a clause takes the place of a space. -/
theorem length_breakClauses (skip : Nat) (text : List Char) :
    (breakClauses skip text).length = text.length := by
  fun_induction breakClauses skip text with
  | case1 skip => rfl
  | case2 skip c rest ih => exact congrArg Nat.succ ih
  | case3 c rest space words found ih => exact congrArg Nat.succ ih
  | case4 c rest space missing ih => exact congrArg Nat.succ ih
  | case5 c rest other ih => exact congrArg Nat.succ ih

/-- Breaks before conjunctions, with their indents, can only make a text longer. -/
theorem length_le_breakConjunctions (skip : Nat) (text : List Char) :
    text.length ≤ (breakConjunctions skip text).length := by
  fun_induction breakConjunctions skip text with
  | case1 skip => exact Nat.le_refl 0
  | case2 skip c rest ih => exact Nat.succ_le_succ ih
  | case3 c rest found ih =>
      simp only [List.length_cons]
      omega
  | case4 c rest missing ih => exact Nat.succ_le_succ ih

/-- A break for a conjunction is indented, so without longer lines there is none. -/
theorem breakConjunctions_eq_self_of_length {skip : Nat} {text : List Char}
    (short : (breakConjunctions skip text).length ≤ text.length) :
    breakConjunctions skip text = text := by
  fun_induction breakConjunctions skip text with
  | case1 skip => rfl
  | case2 skip c rest ih => rw [ih (Nat.le_of_succ_le_succ short)]
  | case3 c rest found ih =>
      have longer := length_le_breakConjunctions 4 rest
      simp only [List.length_cons] at short
      omega
  | case4 c rest missing ih => rw [ih (Nat.le_of_succ_le_succ short)]

/-- Lines are broken for conjunctions just where these stand between spaces. -/
theorem breakConjunctions_eq_self_iff {text : List Char} :
    breakConjunctions 0 text = text ↔ ¬ ' ' :: (['A', 'N', 'D'] ++ [' ']) <:+: text := by
  induction text with
  | nil => simp [breakConjunctions]
  | cons c rest ih =>
      have found : (c == ' ' && ['A', 'N', 'D', ' '].isPrefixOf rest) = true ↔
          ' ' :: (['A', 'N', 'D'] ++ [' ']) <+: c :: rest := by
        rw [Bool.and_eq_true, beq_iff_eq, List.isPrefixOf_iff_prefix, List.cons_prefix_cons,
          eq_comm]
        rfl
      rw [List.infix_cons_iff, not_or, ← ih, breakConjunctions]
      by_cases starts : ' ' :: (['A', 'N', 'D'] ++ [' ']) <+: c :: rest
      · obtain ⟨rfl, -⟩ := List.cons_prefix_cons.mp starts
        rw [if_pos (found.mpr starts)]
        exact iff_of_false (by simp) fun both => both.1 starts
      · rw [if_neg (starts ∘ found.mp), List.cons_inj_right]
        exact (and_iff_right starts).symm

/-- A text is shown as it is iff no word of a clause and no conjunction stands between spaces. -/
theorem formatSql_eq_self_iff {text : String} :
    formatSql text = text ↔ ¬ Breakable text.toList := by
  have unbroken : ¬ Breakable text.toList ↔
      breakClauses 0 text.toList = text.toList ∧
        breakConjunctions 0 text.toList = text.toList := by
    rw [breakClauses_eq_self_iff, breakConjunctions_eq_self_iff]
    simp only [Breakable, breakWords, not_exists, not_and, List.forall_mem_append,
      List.forall_mem_singleton]
  rw [unbroken, formatSql, ← String.toList_inj, String.toList_ofList]
  constructor
  · intro same
    -- The first pass keeps the length and the second one is to keep it too.
    have lengths := congrArg List.length same
    rw [← length_breakClauses 0 text.toList] at lengths
    have second := breakConjunctions_eq_self_of_length (Nat.le_of_eq lengths)
    have first : breakClauses 0 text.toList = text.toList := second.symm.trans same
    rw [first] at second
    exact ⟨first, second⟩
  · rintro ⟨first, second⟩
    rw [first, second]

/-- The panel of a statement shows its words in their order, and so its letters; with single spaces
between the words it is the statement, if this has single spaces itself. The statement is shown as
it is just where no word of a clause and no conjunction stands between spaces. Compiled statements
have single spaces. -/
theorem showQuery_restores :
    (∀ shown : CompiledQuery, ∃ body, panelBody? (showQuery shown) = some body ∧
      words body.toList = words shown.sql.toList ∧
      letters body.toList = letters shown.sql.toList ∧
      (SingleSpaced shown.sql → collapse body = shown.sql) ∧
      (body = shown.sql ↔ ¬ Breakable shown.sql.toList)) ∧
    ∀ (schema : Schema) (table : String) (report : Report) (compiled : CompiledQuery),
      schema.compile table report = .ok compiled →
        SingleSpaced compiled.sql ∧
          ∃ body, panelBody? (showQuery compiled) = some body ∧ collapse body = compiled.sql := by
  have restored {text : String} (single : SingleSpaced text) :
      collapse (formatSql text) = text := by
    rw [collapse_formatSql, singleSpaced_iff.mp single]
  constructor
  · intro shown
    have same := words_formatSql shown.sql
    exact ⟨formatSql shown.sql, rfl, same, letters_eq_of_words_eq same, restored,
      formatSql_eq_self_iff⟩
  · intro schema table report compiled compiles
    obtain ⟨query, -, rfl⟩ := Outcome.map_eq_ok.mp compiles
    have single : SingleSpaced query.sql := singleSpaced_collapse query.rawText
    exact ⟨single, _, rfl, restored single⟩

/-- Of two words that share a space only the first is broken off, and a compiled statement is shown
with breaks in front of its clauses and conjunctions. -/
theorem showQuery_restores_adjacent :
    let shown : CompiledQuery := ⟨"SELECT a FROM LEFT OUTER JOIN JOIN b AND AND c LIMIT ?", []⟩
    SingleSpaced shown.sql ∧ Breakable shown.sql.toList ∧
      (∃ body, panelBody? (showQuery shown) = some body ∧ body ≠ shown.sql ∧
        collapse body = shown.sql) ∧
      ∃ (compiled : CompiledQuery) (body : String), Schema.rewards.compile "orders"
          { dimensions := [⟨"product.name", some "FROM"⟩],
            filters := [⟨"status", "=", .text " AND "⟩, ⟨"id", ">", .int 5⟩] } = .ok compiled ∧
        panelBody? (showQuery compiled) = some body ∧ collapse body = compiled.sql := by
  intro shown
  have single : SingleSpaced shown.sql := singleSpaced_iff.mpr (by decide +kernel)
  have breakable : Breakable shown.sql.toList :=
    ⟨['F', 'R', 'O', 'M'], by decide, by decide +kernel⟩
  refine ⟨single, breakable, ?_, ?_⟩
  · obtain ⟨body, inPanel, _, _, restored, same⟩ := showQuery_restores.1 shown
    exact ⟨body, inPanel, fun kept => same.mp kept breakable, restored single⟩
  · obtain ⟨compiled, compiles⟩ : ∃ compiled, Schema.rewards.compile "orders"
        { dimensions := [⟨"product.name", some "FROM"⟩],
          filters := [⟨"status", "=", .text " AND "⟩, ⟨"id", ">", .int 5⟩] } = .ok compiled := by
      apply Outcome.exists_eq_ok
      simp only [Schema.compile, Schema.buildQuery, Report.check, Report.checkFields,
        Schema.planJoins, Schema.sortedKeys_eq_insertionSort]
      decide +kernel
    obtain ⟨-, body, inPanel, restored⟩ := showQuery_restores.2 _ _ _ _ compiles
    exact ⟨compiled, body, compiles, inPanel, restored⟩

end CommandLine

end Reporting
