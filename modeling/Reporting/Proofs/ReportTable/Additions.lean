import Mathlib.Data.List.Nodup
import Mathlib.Logic.Relation
import Reporting.Proofs.ReportTable.StoredTime

/-!
# Adding rows

An addition puts one row behind the others, and only one whose id is a word and new, whether the id
was submitted, follows the highest one or was drawn. So whatever was added in whatever order, the
rows of a table are told apart by their ids (`ReportTable.Reachable.keyed`), and a row is found by
its id and by no other. The numbers of its times fit their widths, be they read from a text or from
the clock (`ReportTable.Reachable.timed`).
-/

namespace Reporting

namespace ReportTable

variable {table next : ReportTable} {surroundings : Surroundings} {draft : ReportDraft}
  {row : ReportRow} {id : Int}

/-- No row is found by an id iff none has it. -/
theorem row?_eq_none_iff : table.row? id = none ↔ ∀ row ∈ table.rows, row.id ≠ id := by
  simp only [row?, List.find?_eq_none, beq_iff_eq, ne_eq]

/-- The id that a row is given is a word. -/
theorem isWord_of_nextId? {draws : List Nat} (given : table.nextId? draws = some id) :
    isWord id = true := by
  unfold nextId? at given
  split at given
  next word =>
    obtain rfl := Option.some.inj given
    exact word
  next =>
    have found := List.find?_some given
    simp only [Bool.and_eq_true] at found
    exact found.1.2

/-- Submitted or given, the id of a row is a word. -/
theorem isWord_of_idOf {draws : List Nat} {submitted : Option Int}
    (given : table.idOf draws submitted = .ok id) : isWord id = true := by
  unfold idOf at given
  split at given
  next =>
    split at given
    next word =>
      obtain rfl := Except.ok.inj given
      exact word
    next => cases given
  next =>
    split at given
    next found =>
      obtain rfl := Except.ok.inj given
      exact isWord_of_nextId? found
    next => cases given

/-- The numbers of a time fit their widths where those of the clock do. -/
theorem inRange_of_timeOf {now : Moment} {submitted : Option String} {t : StoredTime}
    (clock : (StoredTime.ofClock now).InRange) (given : timeOf now submitted = .ok t) :
    t.InRange := by
  cases submitted with
  | none =>
      obtain rfl := Except.ok.inj given
      exact clock
  | some text =>
      obtain ⟨m, read, rfl⟩ := Outcome.map_eq_ok.mp (Outcome.mapError_eq_ok.mp given)
      exact StoredTime.inRange_of_ofIso read

/-- What a row is made of. -/
theorem exists_of_rowOf (made : table.rowOf surroundings draft = .ok row) :
    timeOf surroundings.now draft.createdAt = .ok row.createdAt ∧
      table.idOf surroundings.draws draft.id = .ok row.id := by
  obtain ⟨createdAt, created, made⟩ := Outcome.bind_eq_ok.mp made
  obtain ⟨updatedAt, -, made⟩ := Outcome.bind_eq_ok.mp made
  obtain ⟨createdBy, -, made⟩ := Outcome.bind_eq_ok.mp made
  obtain ⟨id, known, same⟩ := Outcome.bind_eq_ok.mp made
  obtain rfl := Outcome.pure_eq_ok.mp same
  exact ⟨created, known⟩

/-- What an addition does, and when it is made. -/
theorem insert_eq_ok : table.insert surroundings draft = .ok (id, next) ↔ ∃ row,
    table.rowOf surroundings draft = .ok row ∧ table.row? row.id = none ∧ row.id = id ∧
      next = table.add row := by
  simp only [insert, Outcome.bind_eq_ok, Outcome.guarded_eq_ok, Outcome.pure_eq_ok, Prod.mk.injEq,
    Option.isSome_iff_ne_none, not_not, eq_comm (a := next)]

/-- The ids of the rows are words, and no two of them are the same. -/
structure Keyed (table : ReportTable) : Prop where
  distinct : (table.rows.map (·.id)).Nodup
  words : ∀ row ∈ table.rows, isWord row.id = true

/-- The numbers of the times at which the rows were made fit their widths. -/
def Timed (table : ReportTable) : Prop := ∀ row ∈ table.rows, row.createdAt.InRange

theorem keyed_empty : Keyed {} := ⟨List.nodup_nil, nofun⟩

/-- An addition keeps the ids apart. -/
theorem Keyed.insert (keyed : table.Keyed)
    (added : table.insert surroundings draft = .ok (id, next)) : next.Keyed := by
  obtain ⟨row, made, fresh, -, rfl⟩ := insert_eq_ok.mp added
  constructor
  · rw [add, List.map_append, List.map_singleton, ← List.concat_eq_append]
    refine keyed.distinct.concat fun listed => ?_
    obtain ⟨other, member, same⟩ := List.mem_map.mp listed
    exact row?_eq_none_iff.mp fresh other member same
  · rw [add, List.forall_mem_append]
    exact ⟨keyed.words, by simpa using isWord_of_idOf (exists_of_rowOf made).2⟩

/-- An addition while the clock tells a time that can be written keeps the times in range. -/
theorem Timed.insert (timed : table.Timed)
    (clock : (StoredTime.ofClock surroundings.now).InRange)
    (added : table.insert surroundings draft = .ok (id, next)) : next.Timed := by
  obtain ⟨row, made, -, -, rfl⟩ := insert_eq_ok.mp added
  rw [Timed, add, List.forall_mem_append]
  exact ⟨timed, by simpa using inRange_of_timeOf clock (exists_of_rowOf made).1⟩

/-- A row is the one that is found by its id. -/
theorem Keyed.row?_of_mem (keyed : table.Keyed) (member : row ∈ table.rows) :
    table.row? row.id = some row := by
  cases found : table.row? row.id with
  | none => exact absurd rfl (row?_eq_none_iff.mp found row member)
  | some other =>
      have same : other.id = row.id := by simpa using List.find?_some found
      have listed : other ∈ table.rows := List.mem_of_find?_eq_some found
      rw [List.inj_on_of_nodup_map keyed.distinct listed member same]

/-- One table becomes another by an addition, whatever the clock tells and whatever ids are drawn;
one that is refused changes nothing. -/
def Extends (table next : ReportTable) : Prop :=
  ∃ surroundings draft id, (StoredTime.ofClock surroundings.now).InRange ∧
    table.insert surroundings draft = .ok (id, next)

/-- The tables that additions lead to. -/
def Reachable (table : ReportTable) : Prop := Relation.ReflTransGen Extends {} table

/-- Whatever was added, the ids are words and told apart. -/
theorem Reachable.keyed (reached : table.Reachable) : table.Keyed := by
  induction reached with
  | refl => exact keyed_empty
  | tail _ last ih =>
      obtain ⟨surroundings, draft, id, -, added⟩ := last
      exact ih.insert added

/-- Whatever was added, the times fit their widths. -/
theorem Reachable.timed (reached : table.Reachable) : table.Timed := by
  induction reached with
  | refl => exact fun _ member => absurd member List.not_mem_nil
  | tail _ last ih =>
      obtain ⟨surroundings, draft, id, clock, added⟩ := last
      exact ih.insert clock added

end ReportTable

end Reporting
