import Mathlib.Data.List.Chain
import Mathlib.Data.List.TakeWhile
import Reporting.Proofs.Report.Vetted
import Reporting.Proofs.Sql.Characters
import Reporting.Sql.Engine

/-!
# Reading named placeholders back

A reader of a statement takes every colon with word characters behind it for a named placeholder,
whose name is as long as possible (`scan`). Where a text has no colon of its own and no word
character right behind a placeholder, it finds the names that the placeholders were given and
nothing else (`scan_nameFrom`). Compiled statements are such texts, and have as many placeholders as
values, so an engine is always asked (`Schema.compile_nameBinds`).
-/

namespace Reporting

namespace Sql

/-- A notion of word characters: of the ASCII characters just the name characters. -/
def IsWordClass (isWord : Char → Bool) : Prop :=
  ∀ c : Char, c.toNat < 128 → isWord c = isNameChar c

/-- The names found in a text, and the text with a placeholder for each of them. -/
structure Scanned where
  names : List String
  text : List Char
  deriving DecidableEq

/-- Reads the names in a text: the runs of word characters behind colons, each up to its end. -/
def scan (isWord : Char → Bool) : List Char → Scanned
  | [] => ⟨[], []⟩
  | c :: rest =>
    if c = ':' ∧ rest.takeWhile isWord ≠ [] then
      let others := scan isWord (rest.dropWhile isWord)
      ⟨String.ofList (rest.takeWhile isWord) :: others.names, '?' :: others.text⟩
    else
      let others := scan isWord rest
      ⟨others.names, c :: others.text⟩
termination_by text => text.length
decreasing_by
  · exact Nat.lt_succ_of_le (List.length_dropWhile_le isWord rest)
  · exact Nat.lt_succ_self rest.length

/-- No placeholder stands right in front of a word character. -/
def Separated (isWord : Char → Bool) (text : List Char) : Prop :=
  text.IsChain fun c next => c = '?' → isWord next = false

/-- The names of the first `count` placeholders. -/
def bindNames (count : Nat) : List String := (List.range count).map bindName

/-- Names of binds are told apart. -/
theorem bindName_injective : Function.Injective bindName := by
  intro i j same
  have digits := congrArg String.toList same
  simp only [bindName, String.toList_append, List.append_cancel_left_eq,
    Nat.toString_eq_ofList_toDigits, String.toList_ofList] at digits
  have read := congrArg (Nat.ofDigitChars 10 · 0) digits
  simpa only [Nat.ofDigitChars_toDigits (b := 10) (by decide) (by decide)] using read

theorem nodup_bindNames (count : Nat) : (bindNames count).Nodup :=
  List.nodup_range.map bindName_injective

section Scan

variable {isWord : Char → Bool} (word : IsWordClass isWord)

include word

theorem isWord_of_mem_bindName (index : Nat) :
    ∀ c ∈ (bindName index).toList, isWord c = true := by
  intro c member
  have letter : isNameChar c = true := by
    rw [bindName, String.toList_append, List.mem_append] at member
    rcases member with first | digit
    · obtain rfl : c = 'p' := by simpa using first
      decide
    · exact (isProper_toString index).2 c digit
  rw [word c (by have := isNameChar_bounds letter; omega), letter]

/-- A name ends where the named text goes on. -/
theorem isWord_head?_nameFrom {text : List Char} (ends : ∀ c ∈ text.head?, isWord c = false)
    (index : Nat) : ∀ c ∈ (nameFrom index text).head?, isWord c = false := by
  cases text with
  | nil => exact fun c member => absurd member (by simp [nameFrom])
  | cons d rest =>
      intro c member
      unfold nameFrom at member
      split at member
      · obtain rfl : ':' = c := by simpa using member
        exact word ':' (by decide)
      · obtain rfl : d = c := by simpa using member
        exact ends d rfl

/-- A name is read up to a character that is not part of a word. -/
theorem scan_name {index : Nat} {rest : List Char} (ends : ∀ c ∈ rest.head?, isWord c = false) :
    scan isWord (':' :: (bindName index).toList ++ rest) =
      ⟨bindName index :: (scan isWord rest).names, '?' :: (scan isWord rest).text⟩ := by
  have letters := isWord_of_mem_bindName word index
  have stop : rest.takeWhile isWord = [] ∧ rest.dropWhile isWord = rest := by
    cases rest with
    | nil => exact ⟨rfl, rfl⟩
    | cons c rest => simp [ends c rfl]
  have name : ((bindName index).toList ++ rest).takeWhile isWord = (bindName index).toList := by
    rw [List.takeWhile_append_of_pos letters, stop.1, List.append_nil]
  have behind : ((bindName index).toList ++ rest).dropWhile isWord = rest := by
    rw [List.dropWhile_append_of_pos letters, stop.2]
  have some : (bindName index).toList ≠ [] := by simp [bindName]
  rw [List.cons_append, scan, name, behind, if_pos ⟨rfl, some⟩, String.ofList_toList]

/-- The names that the placeholders of a text were given are read back, and the text with them. -/
theorem scan_nameFrom {text : List Char} (noColon : ':' ∉ text) (separated : Separated isWord text)
    (index : Nat) :
    scan isWord (nameFrom index text) =
      ⟨(List.range' index (text.count '?')).map bindName, text⟩ := by
  induction text generalizing index with
  | nil => rw [nameFrom, scan]; rfl
  | cons c rest ih =>
      obtain ⟨other, noColon⟩ := not_or.mp (List.mem_cons.not.mp noColon)
      obtain ⟨here, separated⟩ := List.isChain_cons.mp separated
      unfold nameFrom
      by_cases mark : c = '?'
      · have ends := isWord_head?_nameFrom word (fun d first => here d first mark) (index + 1)
        rw [if_pos (by simpa using mark), scan_name word ends, ih noColon separated, mark,
          List.count_cons_self, List.range'_succ, List.map_cons]
      · rw [if_neg (by simpa using mark), scan, if_neg (fun colon => other colon.1.symm),
          List.count_cons_of_ne mark]
        simp only [ih noColon separated]

end Scan

theorem nameValues_eq {α : Type} (values : List α) (index : Nat) :
    nameValues index values = ((List.range' index values.length).map bindName).zip values := by
  induction values generalizing index with
  | nil => rfl
  | cons value rest ih =>
      rw [nameValues, ih, List.length_cons, List.range'_succ, List.map_cons, List.zip_cons_cons]

/-- A statement with named placeholders for a text and values: the values go by the names in order,
no two by the same one, and a reader finds in the statement just these names, and behind them the
text. -/
structure Faithful {α : Type} (isWord : Char → Bool) (sql : String) (values : List α)
    (named : NamedStatement α) : Prop where
  binds : named.binds = (bindNames values.length).zip values
  distinct : (bindNames values.length).Nodup
  read : ':' ∉ sql.toList → Separated isWord sql.toList →
    scan isWord named.sql.toList = ⟨bindNames values.length, sql.toList⟩

/-- Naming fails iff the numbers of placeholders and values differ. -/
theorem nameBinds_eq_error_iff {α : Type} {sql : String} {values : List α} {fault : BindFault} :
    nameBinds sql values = .error fault ↔
      marks sql ≠ values.length ∧ fault = ⟨marks sql, values.length⟩ := by
  simp only [nameBinds, marks]
  split
  next other => simp [other, eq_comm]
  next same => simp [not_not.mp same]

/-- Where there are as many placeholders as values, all of them are named. -/
theorem exists_nameBinds {α : Type} {sql : String} {values : List α}
    (same : marks sql = values.length) : ∃ named, nameBinds sql values = .ok named :=
  ⟨_, if_neg (not_not_intro same)⟩

/-- Where it succeeds the names can be found again in the text. -/
theorem faithful_of_nameBinds {α : Type} {isWord : Char → Bool} (word : IsWordClass isWord)
    {sql : String} {values : List α} {named : NamedStatement α}
    (given : nameBinds sql values = .ok named) : Faithful isWord sql values named := by
  simp only [nameBinds] at given
  split at given
  · cases given
  next same =>
    rw [ne_eq, not_not] at same
    cases given
    refine ⟨?_, nodup_bindNames _, fun noColon separated => ?_⟩
    · rw [nameValues_eq, bindNames, List.range_eq_range']
    · rw [String.toList_ofList, scan_nameFrom word noColon separated, same, bindNames,
        List.range_eq_range']

end Sql

namespace Schema

open Sql

/-- The characters of a join predicate are those of statements. -/
theorem written_of_isPredicate {predicate : String} (vetted : isPredicate predicate = true) :
    Written predicate := by
  intro c member
  rw [isPredicate, Bool.and_eq_true, List.all_eq_true] at vetted
  have allowed := vetted.2 c member
  simp only [isPredicateChar, Bool.or_eq_true, beq_iff_eq] at allowed
  rcases allowed with ((letter | rfl) | rfl) | blank
  · simp [isStatementChar, letter]
  · decide
  · decide
  · simp [isStatementChar, blank]

variable {schema : Schema} {table : String} {report : Report} {compiled : CompiledQuery}

/-- The statement of a compiled report writes vetted names and predicates only. -/
theorem Accepted.exists_query_of_compile (accepted : schema.Accepted)
    (compiles : schema.compile table report = .ok compiled) :
    ∃ query : Query, compiled = .ofQuery query ∧ (∀ name ∈ query.names, IsName name) ∧
      ∀ join ∈ query.source.joins, Schema.isPredicate join.predicate = true := by
  obtain ⟨-, plan, sources, query, planned, prepared, clauses, rfl⟩ := compile_eq_ok.mp compiles
  refine ⟨query, rfl, clauses.names_vetted (vetted_of_sourcesOf prepared), ?_⟩
  obtain ⟨-, -, rfl⟩ := Schema.sourcesOf_eq_ok.mp prepared
  obtain ⟨-, -, declared⟩ := planJoins_declared planned
  rw [clauses.source]
  intro join member
  obtain ⟨rel, joined, rfl⟩ := List.mem_map.mp member
  obtain ⟨known, -, -⟩ := mem_of_relationship? (declared rel joined)
  exact accepted.isPredicate known

/-- A compiled statement has a placeholder for every value. -/
theorem Accepted.marks_compile (accepted : schema.Accepted)
    (compiles : schema.compile table report = .ok compiled) :
    marks compiled.sql = compiled.params.length := by
  obtain ⟨query, rfl, vetted, predicates⟩ := accepted.exists_query_of_compile compiles
  exact query.marks_sql vetted fun join member =>
    marks_eq_zero_of_isPredicate (predicates join member)

/-- A compiled statement has no colon, and its placeholders stand in front of commas, closing
brackets, spaces and the end. -/
theorem Accepted.placed_compile (accepted : schema.Accepted)
    (compiles : schema.compile table report = .ok compiled) :
    ':' ∉ compiled.sql.toList ∧
      compiled.sql.toList.IsChain fun c next => c = '?' → next ∈ [',', ')', ' '] := by
  obtain ⟨query, rfl, vetted, predicates⟩ := accepted.exists_query_of_compile compiles
  constructor
  · intro colon
    have written := query.written_sql vetted fun join member =>
      written_of_isPredicate (predicates join member)
    exact absurd (written ':' colon) (by decide)
  · have apart := query.apart_sql vetted fun join member =>
      marks_eq_zero_of_isPredicate (predicates join member)
    refine List.IsChain.imp_of_mem_imp ?_ apart
    rintro c next - member ends mark
    rcases ends mark with rfl | rfl | blank
    · simp
    · simp
    · rcases Text.mem_collapse member with rfl | solid
      · simp
      · rw [solid] at blank
        cases blank

/-- Named placeholders are faithful. For every text and all values, a fault reports that there are
more or fewer placeholders than values; otherwise the values go by the names in order, and a reader
finds these names in the statement and the text behind them, unless the text has a colon or a word
character right behind a placeholder. A compiled statement has neither, and one placeholder for each
value, so an engine is always asked, with names that are read back. -/
theorem compile_nameBinds {isWord : Char → Bool} (word : IsWordClass isWord) :
    (∀ {α : Type} (sql : String) (values : List α),
      (∀ fault, nameBinds sql values = .error fault ↔
        marks sql ≠ values.length ∧ fault = ⟨marks sql, values.length⟩) ∧
      ∀ named, nameBinds sql values = .ok named → Faithful isWord sql values named) ∧
    ∀ {schema : Schema}, schema.Accepted → ∀ {table : String} {report : Report}
      {compiled : CompiledQuery}, schema.compile table report = .ok compiled →
        (':' ∉ compiled.sql.toList ∧ Separated isWord compiled.sql.toList ∧
          compiled.sql.toList.IsChain fun c next => c = '?' → next ∈ [',', ')', ' ']) ∧
        ∃ named, Faithful isWord compiled.sql compiled.params named ∧
          scan isWord named.sql.toList =
            ⟨bindNames compiled.params.length, compiled.sql.toList⟩ ∧
          ∀ engine, runNamed engine compiled.sql compiled.params =
            ⟨[named], (engine named).mapError .engine⟩ := by
  refine ⟨fun sql values => ⟨fun fault => nameBinds_eq_error_iff, fun named given =>
    faithful_of_nameBinds word given⟩, ?_⟩
  intro schema accepted table report compiled compiles
  obtain ⟨noColon, placed⟩ := accepted.placed_compile compiles
  have separated : Separated isWord compiled.sql.toList := by
    refine List.IsChain.imp (fun c next listed mark => ?_) placed
    have sign := listed mark
    simp only [List.mem_cons, List.not_mem_nil, or_false] at sign
    rcases sign with rfl | rfl | rfl
    · exact word ',' (by decide)
    · exact word ')' (by decide)
    · exact word ' ' (by decide)
  obtain ⟨named, given⟩ := exists_nameBinds (accepted.marks_compile compiles)
  have faithful := faithful_of_nameBinds word given
  refine ⟨⟨noColon, separated, placed⟩, named, faithful, faithful.read noColon separated, ?_⟩
  intro engine
  rw [runNamed, given]

/-- Three placeholders behind which a bracket, a space and the end stand. -/
theorem rewards_nameBinds_of_agencies :
    IsWordClass isNameChar ∧ rewards.Accepted ∧
      ∃ compiled, rewards.compile "agencies"
          { dimensions := [⟨"id", none⟩], filters := [⟨"id", "IN", .list [.int 1]⟩,
              ⟨"name", "LIKE", .text ":p0?"⟩], limit := some 3 } = .ok compiled ∧
        ∃ named, Faithful isNameChar compiled.sql compiled.params named ∧
          scan isNameChar named.sql.toList =
            ⟨bindNames compiled.params.length, compiled.sql.toList⟩ := by
  have word : IsWordClass isNameChar := fun _ _ => rfl
  obtain ⟨compiled, compiles⟩ : ∃ compiled, rewards.compile "agencies"
      { dimensions := [⟨"id", none⟩], filters := [⟨"id", "IN", .list [.int 1]⟩,
          ⟨"name", "LIKE", .text ":p0?"⟩], limit := some 3 } = .ok compiled := by
    apply Outcome.exists_eq_ok
    simp only [compile, buildQuery, Report.check, Report.checkFields, planJoins,
      sortedKeys_eq_insertionSort]
    decide +kernel
  obtain ⟨-, named, faithful, read, -⟩ := (compile_nameBinds word).2 rewards_accepted compiles
  exact ⟨word, rewards_accepted, compiled, compiles, named, faithful, read⟩

end Schema

end Reporting
