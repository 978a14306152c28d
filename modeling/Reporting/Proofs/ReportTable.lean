import Reporting.Proofs.Outcome
import Reporting.Proofs.Shape
import Reporting.ReportTable

/-!
# Reading rows

A row whose text holds a report can be read iff its other columns are sound: it names a way to be
shown, and its maker is null or can be read as an integer (`ReportRow.Sound`).
-/

namespace Reporting

/-- A way to be shown is read from just the names of the five. -/
theorem Visualization.exists_read_text {name : String} :
    (∃ visualization, Visualization.read (.text name) = .valid visualization) ↔
      name ∈ all.map Visualization.name := by
  simp only [read, Shape.choice_text_eq_valid, ofName?, List.mem_map]
  constructor
  · rintro ⟨visualization, found⟩
    exact ⟨visualization, List.mem_of_find?_eq_some found, by simpa using List.find?_some found⟩
  · rintro ⟨visualization, member, named⟩
    exact Option.isSome_iff_exists.mp (List.find?_isSome.mpr ⟨visualization, member, by simpa⟩)

namespace ReportRow

/-- The row names a way to be shown, and its maker is null or can be read as an integer. -/
def Sound (row : ReportRow) : Prop :=
  row.visualization ∈ Visualization.all.map Visualization.name ∧
    ∃ maker, Shape.nullable Lenient.integer row.createdBy = .valid maker

variable {depth : Nat} {row : ReportRow} {report : Report}

/-- A row fails as its text does. -/
theorem read_of_document {fault : DocumentFault}
    (document : Report.ofDocument depth (.text row.document) = .error fault) :
    row.read depth = .error (.document fault) := by
  rw [read, document]

/-- A row with a report is read where it is sound. -/
theorem exists_read_of_sound (document : Report.ofDocument depth (.text row.document) = .ok report)
    (sound : row.Sound) :
    ∃ stored, row.read depth = .ok stored ∧ stored.sourceTable = row.sourceTable ∧
      stored.report = report := by
  obtain ⟨named, maker, made⟩ := sound
  obtain ⟨visualization, shown⟩ := Visualization.exists_read_text.mpr named
  rw [read, document, shown, made]
  exact ⟨_, rfl, rfl, rfl⟩

end ReportRow

end Reporting
