import Mathlib.Data.List.Basic
import Reporting.Proofs.Sql.Tokens

/-!
# Reading the clauses of a statement

A clause starts with a word that stands nowhere else in a statement (`clauseStarts`), and one
without entries is left out. What stands behind such a word up to the start of the next clause is
read with `bodyOf`. This gives back every clause that was written (`Clause.bodyOf_flatMap_tokens`),
and the entries of a clause can be told from its tokens (`map_eq_of_listBody`), since the tokens of
an entry neither start a clause nor separate entries (`Token.IsInner`).
-/

namespace Reporting.Sql

/-- The words that start the clauses of a statement. -/
def clauseStarts : List String := ["SELECT", "FROM", "WHERE", "GROUP", "ORDER", "LIMIT"]

/-- The token starts a clause. -/
def Token.IsStart (token : Token) : Prop := token ∈ clauseStarts.map Token.word

instance (token : Token) : Decidable token.IsStart := inferInstanceAs (Decidable (_ ∈ _))

/-- The token starts no clause and separates no entries. -/
def Token.IsInner (token : Token) : Prop :=
  ¬ token.IsStart ∧ token ≠ .mark ',' ∧ token ≠ .word "AND"

instance (token : Token) : Decidable token.IsInner := inferInstanceAs (Decidable (_ ∧ _ ∧ _))

theorem isInner_nameToken (name : String) : (nameToken name).IsInner := by
  have capitals : ∀ start ∈ clauseStarts, needsQuotes start.toList = true := by decide
  refine ⟨?_, nameToken_ne_mark name ',', nameToken_ne_word (by decide)⟩
  intro member
  obtain ⟨start, listed, same⟩ := List.mem_map.mp member
  exact nameToken_ne_word (capitals start listed) same.symm

/-- A clause by its first word and the tokens behind it, none where it is left out. -/
structure Clause where
  start : String
  body : Option (List Token)

def Clause.tokens (clause : Clause) : List Token :=
  match clause.body with
  | none => []
  | some body => .word clause.start :: body

/-- The tokens behind a word, up to the start of the next clause. -/
def bodyOf (start : String) (tokens : List Token) : Option (List Token) :=
  match tokens.dropWhile (· != .word start) with
  | [] => none
  | _ :: rest => some (rest.takeWhile fun token => decide (¬ token.IsStart))

/-- What stands in front of the word does not matter. -/
theorem bodyOf_append {start : String} {front : List Token} (missing : .word start ∉ front)
    (rest : List Token) : bodyOf start (front ++ rest) = bodyOf start rest := by
  have passed : (front ++ rest).dropWhile (· != .word start) =
      rest.dropWhile (· != .word start) := by
    apply List.dropWhile_append_of_pos
    intro token member
    simp only [bne_iff_ne, ne_eq]
    rintro rfl
    exact missing member
  rw [bodyOf, bodyOf, passed]

theorem bodyOf_eq_none {start : String} {tokens : List Token} (missing : .word start ∉ tokens) :
    bodyOf start tokens = none := by
  have whole := bodyOf_append missing []
  rwa [List.append_nil] at whole

/-- The body of the first clause ends where the next one starts. -/
theorem bodyOf_cons {start : String} {body : List Token} (free : ∀ token ∈ body, ¬ token.IsStart)
    {rest : List Token} (next : ∀ token, rest.head? = some token → token.IsStart) :
    bodyOf start (.word start :: body ++ rest) = some body := by
  have here : (.word start :: body ++ rest).dropWhile (· != .word start) =
      .word start :: body ++ rest :=
    List.dropWhile_cons_of_neg (by simp)
  have stop : rest.takeWhile (fun token => decide (¬ token.IsStart)) = [] := by
    cases rest with
    | nil => rfl
    | cons token rest => exact List.takeWhile_cons_of_neg (by simpa using next token rfl)
  rw [bodyOf, here, List.cons_append]
  simp only
  rw [List.takeWhile_append_of_pos (by simpa using free), stop, List.append_nil]

namespace Clause

/-- The clause starts with the word of a clause and holds no other. -/
def IsFree (clause : Clause) : Prop :=
  (Token.word clause.start).IsStart ∧
    ∀ body, clause.body = some body → ∀ token ∈ body, ¬ token.IsStart

variable {clauses : List Clause}

/-- Clauses end in front of clauses. -/
theorem isStart_of_head? (free : ∀ clause ∈ clauses, clause.IsFree) {token : Token}
    (first : (clauses.flatMap tokens).head? = some token) : token.IsStart := by
  induction clauses with
  | nil => cases first
  | cons clause rest ih =>
      obtain ⟨here, behind⟩ := List.forall_mem_cons.mp free
      rw [List.flatMap_cons, Clause.tokens] at first
      cases present : clause.body with
      | none =>
          rw [present, List.nil_append] at first
          exact ih behind first
      | some body =>
          rw [present] at first
          cases first
          exact here.1

/-- The word that starts a clause stands in no other one. -/
theorem start_not_mem_tokens {clause : Clause} (free : clause.IsFree) {start : String}
    (isStart : (Token.word start).IsStart) (other : start ≠ clause.start) :
    .word start ∉ clause.tokens := by
  intro member
  rw [Clause.tokens] at member
  cases present : clause.body with
  | none =>
      rw [present] at member
      exact absurd member List.not_mem_nil
  | some body =>
      rw [present] at member
      rcases List.mem_cons.mp member with same | inside
      · exact other (Token.word.inj same)
      · exact free.2 body present _ inside isStart

/-- Every clause that was written is read. -/
theorem bodyOf_flatMap_tokens (distinct : (clauses.map start).Nodup)
    (free : ∀ clause ∈ clauses, clause.IsFree) {clause : Clause} (member : clause ∈ clauses) :
    bodyOf clause.start (clauses.flatMap tokens) = clause.body := by
  induction clauses with
  | nil => exact absurd member List.not_mem_nil
  | cons first rest ih =>
      obtain ⟨here, behind⟩ := List.forall_mem_cons.mp free
      obtain ⟨new, others⟩ := List.nodup_cons.mp distinct
      rw [List.flatMap_cons]
      rcases List.mem_cons.mp member with rfl | later
      · cases present : clause.body with
        | some body =>
            rw [Clause.tokens, present]
            exact bodyOf_cons (here.2 body present) fun token => isStart_of_head? behind
        | none =>
            rw [Clause.tokens, present, List.nil_append]
            apply bodyOf_eq_none
            intro inside
            obtain ⟨other, listed, holds⟩ := List.mem_flatMap.mp inside
            refine start_not_mem_tokens (behind other listed) here.1 ?_ holds
            intro same
            exact new (List.mem_map.mpr ⟨other, listed, same.symm⟩)
      · have apart : clause.start ≠ first.start := by
          intro same
          exact new (List.mem_map.mpr ⟨clause, later, same⟩)
        have isStart := (behind clause later).1
        rw [bodyOf_append (start_not_mem_tokens here isStart apart)]
        exact ih others behind later

end Clause

theorem mem_of_mem_intercalate {α : Type} {separator item : α} {lists : List (List α)}
    (member : item ∈ [separator].intercalate lists) :
    item = separator ∨ ∃ list ∈ lists, item ∈ list := by
  induction lists with
  | nil => exact absurd member List.not_mem_nil
  | cons first others ih =>
      cases others with
      | nil =>
          rw [List.intercalate_singleton] at member
          exact Or.inr ⟨first, List.mem_cons_self, member⟩
      | cons second others =>
          rw [List.intercalate_cons_cons, List.mem_append, List.mem_append,
            List.mem_singleton] at member
          rcases member with (here | same) | behind
          · exact Or.inr ⟨first, List.mem_cons_self, here⟩
          · exact Or.inl same
          · rcases ih behind with same | ⟨list, found, inside⟩
            · exact Or.inl same
            · exact Or.inr ⟨list, List.mem_cons_of_mem first found, inside⟩

/-- The body of a clause: words, then entries with a separator between them. -/
def listBody (words : List Token) (separator : Token) (entries : List (List Token)) :
    Option (List Token) :=
  if entries.isEmpty then none else some (words ++ [separator].intercalate entries)

/-- Entries that do not hold the separator can be told from the body. -/
theorem map_eq_of_listBody {α : Type} {words : List Token} {separator : Token}
    {reading : α → List Token} (free : ∀ item, separator ∉ reading item) {items others : List α}
    (same : listBody words separator (items.map reading) =
      listBody words separator (others.map reading)) :
    items.map reading = others.map reading := by
  have each (listed : List α) : ∀ entry ∈ listed.map reading, separator ∉ entry :=
    List.forall_mem_map.mpr fun item _ => free item
  cases items with
  | nil =>
      cases others with
      | nil => rfl
      | cons other rest => cases same
  | cons item items =>
      cases others with
      | nil => cases same
      | cons other others =>
          have lists := List.append_cancel_left (Option.some.inj same)
          rw [← List.splitOn_intercalate separator (each (item :: items)) (by simp), lists,
            List.splitOn_intercalate separator (each (other :: others)) (by simp)]

/-- A clause holds its words, its separators and what its entries hold. -/
theorem isFree_listBody {α : Type} {start : String} {words : List Token} {separator : Token}
    {items : List α} {reading : α → List Token} (isStart : (Token.word start).IsStart)
    (heading : ∀ token ∈ words, ¬ token.IsStart) (between : ¬ separator.IsStart)
    (each : ∀ item, ∀ token ∈ reading item, ¬ token.IsStart) :
    Clause.IsFree ⟨start, listBody words separator (items.map reading)⟩ := by
  refine ⟨isStart, fun body listed => ?_⟩
  simp only [listBody] at listed
  split at listed
  · cases listed
  · cases listed
    intro token member
    rcases List.mem_append.mp member with word | entry
    · exact heading token word
    · rcases mem_of_mem_intercalate entry with rfl | ⟨list, found, inside⟩
      · exact between
      · obtain ⟨item, -, rfl⟩ := List.mem_map.mp found
        exact each item token inside

end Reporting.Sql
