import Mathlib.Data.List.Forall2
import Mathlib.Data.List.Lex
import Mathlib.Data.Prod.Lex
import Mathlib.Data.String.Basic
import Reporting.Proofs.CommandLine.Perform
import Reporting.Proofs.ReportTable.Additions

/-!
# Listing reports and looking them up

The rows of a table are listed by the texts of their times and then by their ids, the greatest
first. This is one order of pairs, so it has no ties where ids are told apart. It lists the newest
row first and of equally new ones the one with the higher id, except that a time that was submitted
comes before one that the clock told (`ReportRow.Newer`). A row is read in the same way whether it
is listed or looked up by its id, and so the two agree: on every report, and on the first row that
cannot be read (`CommandLine.Session.list_agrees`).
-/

namespace Reporting

namespace ReportRow

/-- The first row is listed before the second: it was made later, or at the same time but with a
time that was submitted, or it has the higher id. -/
inductive Newer (a b : ReportRow) : Prop
  | later (earlier : b.createdAt.fields < a.createdAt.fields)
  | submitted (level : b.createdAt.fields = a.createdAt.fields)
      (clock : b.createdAt.microsecond = none) (given : a.createdAt.microsecond.isSome = true)
  | higher (level : b.createdAt = a.createdAt) (lower : b.id < a.id)

/-- What rows are ordered by. -/
def place (row : ReportRow) : String ×ₗ Int := toLex (row.createdAt.text, row.id)

variable {a b : ReportRow}

/-- Texts of times that fit their widths stand in the order of the times. -/
theorem newer_iff (fits : a.createdAt.InRange) (fitsToo : b.createdAt.InRange) :
    a.Newer b ↔ b.place < a.place := by
  rw [place, place, Prod.Lex.toLex_lt_toLex, StoredTime.text_lt_iff fitsToo fits,
    StoredTime.text_eq_iff fitsToo fits]
  constructor
  · rintro (earlier | ⟨level, clock, given⟩ | ⟨level, lower⟩)
    · exact Or.inl (Or.inl earlier)
    · exact Or.inl (Or.inr ⟨level, clock, given⟩)
    · exact Or.inr ⟨level, lower⟩
  · rintro ((earlier | ⟨level, clock, given⟩) | ⟨level, lower⟩)
    · exact .later earlier
    · exact .submitted level clock given
    · exact .higher level lower

/-- Rows are sorted by their places, the greatest first. -/
theorem precedes_iff : a.precedes b = true ↔ b.place ≤ a.place := by
  rw [place, place, Prod.Lex.toLex_le_toLex, precedes]
  split
  next same => simp [same]
  next other => simp [Ne.symm other]

end ReportRow

namespace ReportTable

variable {table : ReportTable}

/-- Sorting keeps every row. -/
theorem newestFirst_perm (table : ReportTable) : table.newestFirst.Perm table.rows :=
  List.mergeSort_perm table.rows ReportRow.precedes

/-- Rows that are told apart by their ids are listed in a strict order. -/
theorem Keyed.pairwise_newestFirst (keyed : table.Keyed) (timed : table.Timed) :
    table.newestFirst.Pairwise ReportRow.Newer := by
  have sorted : table.newestFirst.Pairwise (fun a b => a.precedes b = true) := by
    refine List.pairwise_mergeSort (fun a b c first second => ?_) (fun a b => ?_) table.rows
    · exact ReportRow.precedes_iff.mpr
        ((ReportRow.precedes_iff.mp second).trans (ReportRow.precedes_iff.mp first))
    · rw [Bool.or_eq_true, ReportRow.precedes_iff, ReportRow.precedes_iff]
      exact le_total _ _
  have distinct : table.newestFirst.Pairwise (fun a b => a.id ≠ b.id) :=
    List.pairwise_map.mp ((table.newestFirst_perm.map ReportRow.id).nodup_iff.mpr keyed.distinct)
  have strict : table.newestFirst.Pairwise (fun a b => b.place < a.place) := by
    refine sorted.imp₂ (fun a b first apart => ?_) distinct
    refine (ReportRow.precedes_iff.mp first).lt_of_ne fun same => ?_
    exact apart (congrArg (fun place => (ofLex place).2) same).symm
  have inRange (row : ReportRow) (listed : row ∈ table.newestFirst) : row.createdAt.InRange :=
    timed row (table.newestFirst_perm.mem_iff.mp listed)
  exact strict.imp_of_mem fun listed listedToo =>
    (ReportRow.newer_iff (inRange _ listed) (inRange _ listedToo)).mpr

end ReportTable

/-- A report that is submitted with an id and a time, or without them. -/
def ReportDraft.ofDocument (id : Option Int) (createdAt : Option String) (document : String) :
    ReportDraft :=
  { id, name := "r", sourceTable := "orders", document, createdAt }

/-- The row of such a report that was made as the year 2024 began. -/
def ReportRow.ofDocument (id : Int) (microsecond : Option Nat) (document : String) : ReportRow :=
  { id, name := "r", sourceTable := "orders", visualization := "table", document,
    createdBy := .null, createdAt := ⟨⟨2024, 1, 1⟩, 0, 0, 0, microsecond⟩,
    updatedAt := ⟨⟨2024, 1, 1⟩, 0, 0, 0, none⟩ }

/-- A table of two such reports: the first was submitted with its id and time, the second took the
next id and the time of the clock. -/
def ReportTable.tied : ReportTable := ⟨[.ofDocument 7 (some 0) "{}", .ofDocument 8 none "-"]⟩

namespace CommandLine.Session

variable {session : Session} {row : ReportRow} {report : StoredReport}

/-- A row of the table is looked up by reading it. -/
theorem lookup_of_mem (keyed : session.reports.Keyed) (member : row ∈ session.reports.rows) :
    session.lookup row.id = ((row.read session.depth).map some).mapError .row :=
  lookup_of_stores ⟨keyed.words row member, keyed.row?_of_mem member⟩

/-- A row of the table is found as it is read. -/
theorem lookup_eq_ok_iff (keyed : session.reports.Keyed) (member : row ∈ session.reports.rows) :
    session.lookup row.id = .ok (some report) ↔ row.read session.depth = .ok report := by
  rw [lookup_of_mem keyed member, Outcome.mapError_eq_ok, Outcome.map_eq_ok]
  simp

/-- A row of the table fails to be found as it fails to be read. -/
theorem lookup_eq_error_iff {fault : RowFault} (keyed : session.reports.Keyed)
    (member : row ∈ session.reports.rows) :
    session.lookup row.id = .error (.row fault) ↔ row.read session.depth = .error fault := by
  rw [lookup_of_mem keyed member, Outcome.mapError_eq_error]
  simp [Outcome.map_eq_error]

/-- The list is made of what the rows give when they are looked up. -/
theorem list_eq_ok_iff {reports : List StoredReport} (keyed : session.reports.Keyed) :
    session.reports.list session.depth = .ok reports ↔ List.Forall₂
      (fun row report => session.lookup row.id = .ok (some report))
      session.reports.newestFirst reports := by
  have inside : ∀ row ∈ session.reports.newestFirst, row ∈ session.reports.rows :=
    fun row => session.reports.newestFirst_perm.mem_iff.mp
  have same : (fun row report => row ∈ session.reports.rows ∧ row.read session.depth = .ok report) =
      fun row report => row ∈ session.reports.rows ∧
        session.lookup row.id = .ok (some report) := by
    funext row report
    exact propext (and_congr_right fun member => (lookup_eq_ok_iff keyed member).symm)
  rw [ReportTable.list, Outcome.mapM_eq_ok]
  refine (and_iff_right inside).symm.trans ?_
  rw [← List.forall₂_and_left, same, List.forall₂_and_left, and_iff_right inside]

/-- All rows are listed iff each is found. -/
theorem exists_list_iff (keyed : session.reports.Keyed) :
    (∃ reports, session.reports.list session.depth = .ok reports) ↔
      ∀ row ∈ session.reports.rows, ∃ report, session.lookup row.id = .ok (some report) := by
  rw [ReportTable.list, Outcome.exists_mapM_iff]
  simp only [session.reports.newestFirst_perm.mem_iff]
  exact forall₂_congr fun row member =>
    exists_congr fun report => (lookup_eq_ok_iff keyed member).symm

/-- The list fails as the look-up of the first row does whose look-up fails. -/
theorem list_eq_error_iff {fault : RowFault} (keyed : session.reports.Keyed) :
    session.reports.list session.depth = .error fault ↔ ∃ before row,
      IsFirst (fun row => ¬ ∃ report, session.lookup row.id = .ok (some report))
          session.reports.newestFirst before row ∧
        session.lookup row.id = .error (.row fault) := by
  have inside : ∀ row ∈ session.reports.newestFirst, row ∈ session.reports.rows :=
    fun row => session.reports.newestFirst_perm.mem_iff.mp
  have unread (row : ReportRow) (listed : row ∈ session.reports.newestFirst) :
      (¬ ∃ report, row.read session.depth = .ok report) ↔
        ¬ ∃ report, session.lookup row.id = .ok (some report) :=
    not_congr (exists_congr fun report => (lookup_eq_ok_iff keyed (inside row listed)).symm)
  rw [ReportTable.list, Outcome.mapM_eq_error]
  refine exists_congr fun before => exists_congr fun row => ?_
  rw [IsFirst.congr unread]
  exact and_congr_right fun first => (lookup_eq_error_iff keyed (inside row first.mem)).symm

/-- An id that no row has is that of no report, if it is a word. -/
theorem lookup_of_absent {id : Int} (absent : ∀ row ∈ session.reports.rows, row.id ≠ id) :
    session.lookup id = if isWord id then .ok none else .error (.idOutOfRange id) := by
  rw [lookup, ReportTable.get, ReportTable.row?_eq_none_iff.mpr absent]
  rfl

/-- In a table that additions led to, the rows stand in one strict order, the newest first. All of
them are listed iff each is found by its id, and then each report of the list is the one that is
found. Otherwise the list fails as the look-up of the first row does whose look-up fails. An id that
no row has gives no report if it is a word, and is refused if it is none; the id of a row gives what
it gives in every other table with that row. -/
theorem list_agrees (reached : session.reports.Reachable) :
    ∃ rows : List ReportRow, rows.Perm session.reports.rows ∧ rows.Pairwise ReportRow.Newer ∧
      ((∃ reports, session.reports.list session.depth = .ok reports) ↔
        ∀ row ∈ session.reports.rows, ∃ report, session.lookup row.id = .ok (some report)) ∧
      (∀ reports, session.reports.list session.depth = .ok reports ↔
        List.Forall₂ (fun row report => session.lookup row.id = .ok (some report)) rows reports) ∧
      (∀ fault, session.reports.list session.depth = .error fault ↔ ∃ before row,
        IsFirst (fun row => ¬ ∃ report, session.lookup row.id = .ok (some report)) rows before row ∧
          session.lookup row.id = .error (.row fault)) ∧
      (∀ id, (∀ row ∈ session.reports.rows, row.id ≠ id) →
        session.lookup id = if isWord id then .ok none else .error (.idOutOfRange id)) ∧
      ∀ row ∈ session.reports.rows, ∀ other : Session, other.depth = session.depth →
        other.reports.Reachable → row ∈ other.reports.rows →
          other.lookup row.id = session.lookup row.id := by
  have keyed := reached.keyed
  refine ⟨session.reports.newestFirst, session.reports.newestFirst_perm,
    keyed.pairwise_newestFirst reached.timed, exists_list_iff keyed,
    fun reports => list_eq_ok_iff keyed, fun fault => list_eq_error_iff keyed,
    fun id => lookup_of_absent, ?_⟩
  intro row member other depth reachedToo memberToo
  rw [lookup_of_mem reachedToo.keyed memberToo, lookup_of_mem keyed member, depth]

/-- Two equally new reports, one of them no report at all. The one that was submitted with its time
is listed first, although the other has the higher id. -/
theorem list_agrees_of_tie :
    let session : Session := { engine := fun _ => .ok [], depth := 900, reports := .tied }
    session.reports.Reachable ∧ (∀ row ∈ session.reports.rows, row.id ≠ 9) ∧
      session.lookup 9 = .ok none ∧
      (ReportRow.ofDocument 7 (some 0) "{}").Newer (.ofDocument 8 none "-") ∧
      ∃ rows : List ReportRow, rows.Perm session.reports.rows ∧
        rows.Pairwise ReportRow.Newer := by
  intro session
  let surroundings : Surroundings := { now := ⟨⟨2024, 1, 1⟩, none⟩ }
  have clock : (StoredTime.ofClock surroundings.now).InRange := by
    constructor <;> decide
  have first : ReportTable.Extends {} ⟨[.ofDocument 7 (some 0) "{}"]⟩ :=
    ⟨surroundings, .ofDocument (some 7) (some "2024-01-01T00:00:00") "{}", 7, clock, rfl⟩
  have second : ReportTable.Extends ⟨[.ofDocument 7 (some 0) "{}"]⟩ .tied :=
    ⟨surroundings, .ofDocument none none "-", 8, clock, rfl⟩
  have reached : session.reports.Reachable := (Relation.ReflTransGen.single first).tail second
  have absent : ∀ row ∈ session.reports.rows, row.id ≠ 9 := by decide
  obtain ⟨rows, perm, sorted, -, -, -, missing, -⟩ := list_agrees reached
  exact ⟨reached, absent, missing 9 absent, .submitted rfl rfl rfl, rows, perm, sorted⟩

/-- No report is looked up by an id beyond 64 bits, not even in vain. -/
theorem lookup_of_far_id :
    let session : Session := { engine := fun _ => .ok [], depth := 900 }
    session.reports.Reachable ∧ (∀ row ∈ session.reports.rows, row.id ≠ 9223372036854775808) ∧
      session.lookup 9223372036854775808 = .error (.idOutOfRange 9223372036854775808) :=
  ⟨.refl, nofun, rfl⟩

end CommandLine.Session

end Reporting
