import Mathlib.Data.List.Basic
import Mathlib.Data.String.Basic
import Reporting.Text.Blank
import Reporting.Text.UpperCase

/-!
# Upper case is final

The rules of upper case lead in one step to characters that no rule changes: neither a capital nor a
character of an expansion has another upper case. So a text in upper case is its own upper case
(`upper_upper`). A blank has no other upper case, and nothing but a blank becomes one.
-/

namespace Reporting.Text

/-- The code points of the blanks. -/
def blankPoints : List Nat :=
  [9, 10, 11, 12, 13, 28, 29, 30, 31, 32, 0x85, 0xA0, 0x1680, 0x2000, 0x2001, 0x2002, 0x2003,
    0x2004, 0x2005, 0x2006, 0x2007, 0x2008, 0x2009, 0x200A, 0x2028, 0x2029, 0x202F, 0x205F, 0x3000]

/-- The code points of blanks are those that are listed. -/
theorem toNat_mem_blankPoints {c : Char} (blank : isBlank c = true) : c.toNat ∈ blankPoints := by
  simp only [isBlank, Bool.or_eq_true, Bool.and_eq_true, decide_eq_true_eq, beq_iff_eq] at blank
  simp only [blankPoints, List.mem_cons, List.not_mem_nil, or_false]
  omega

namespace CapitalRun

/-- The greatest code point that a capital of the run may have. -/
def lastCapital (run : CapitalRun) : Nat := run.capital + (run.last - run.first)

/-- Does the run not cover the code point? The bounds are compared first, which tells mostly. -/
def isOutside (run : CapitalRun) (point : Nat) : Bool :=
  point.blt run.first || run.last.blt point || !Nat.beq ((point - run.first) % run.step) 0

/-- Does the code point lie outside the capitals of the run? -/
def isApart (run : CapitalRun) (point : Nat) : Bool :=
  point.blt run.capital || run.lastCapital.blt point

/-- Is no capital of the run covered by the other one? Mostly the bounds tell; where they overlap,
every capital is looked at. -/
def clears (run other : CapitalRun) : Bool :=
  run.lastCapital.blt other.first || other.last.blt run.capital ||
    (List.range (run.last + 1 - run.first)).all fun distance =>
      !Nat.beq (distance % run.step) 0 || other.isOutside (run.capital + distance)

variable {run other : CapitalRun} {point : Nat}

theorem covers_iff : run.covers point = true ↔
    run.first ≤ point ∧ point ≤ run.last ∧ (point - run.first) % run.step = 0 := by
  simp only [covers, Bool.and_eq_true, decide_eq_true_eq, beq_iff_eq, and_assoc]

theorem isOutside_iff : run.isOutside point = true ↔ run.covers point = false := by
  rw [← Bool.not_eq_true, covers_iff]
  simp only [isOutside, Bool.or_eq_true, Nat.blt_eq, Bool.not_eq_true', ← Bool.not_eq_true,
    Nat.beq_eq]
  omega

/-- The capital of a letter in a run lies in the run of capitals. -/
theorem capitalOf_bounds (covered : run.covers point = true) :
    run.capital ≤ run.capitalOf point ∧ run.capitalOf point ≤ run.lastCapital := by
  obtain ⟨-, last, -⟩ := covers_iff.mp covered
  simp only [capitalOf, lastCapital]
  omega

/-- It is no point that the run keeps apart from. -/
theorem capitalOf_ne (covered : run.covers point = true) {other : Nat}
    (apart : run.isApart other = true) : run.capitalOf point ≠ other := by
  obtain ⟨least, greatest⟩ := capitalOf_bounds covered
  simp only [isApart, Bool.or_eq_true, Nat.blt_eq] at apart
  omega

/-- It lies in no run that the capitals are clear of. -/
theorem covers_capitalOf (clear : run.clears other = true) (covered : run.covers point = true) :
    other.covers (run.capitalOf point) = false := by
  obtain ⟨least, greatest⟩ := capitalOf_bounds covered
  obtain ⟨first, last, fits⟩ := covers_iff.mp covered
  refine isOutside_iff.mp ?_
  simp only [clears, Bool.or_eq_true, Nat.blt_eq, List.all_eq_true, List.mem_range,
    Bool.not_eq_true', ← Bool.not_eq_true, Nat.beq_eq] at clear
  rcases clear with (below | above) | each
  · simp only [isOutside, Bool.or_eq_true, Nat.blt_eq]
    omega
  · simp only [isOutside, Bool.or_eq_true, Nat.blt_eq]
    omega
  · exact (each (point - run.first) (by omega)).resolve_left (not_not_intro fits)

end CapitalRun

/-- Does no rule name an upper case of the code point? -/
def isCaseless (point : Nat) : Bool :=
  (capitalRuns.all (·.isOutside point)) && expansions.all fun entry => !Nat.beq entry.1 point

/-! ### The tables -/

/-- No capital of a run is a small letter of any. -/
theorem capitalRuns_clear :
    (capitalRuns.all fun run => capitalRuns.all run.clears) = true := by
  decide +kernel

/-- No run has a letter that expands to several, or a blank. -/
theorem capitalRuns_apart : (capitalRuns.all fun run =>
    (expansions.all fun entry => run.isApart entry.1) && blankPoints.all run.isApart) = true := by
  decide +kernel

/-- The capitals of the runs are characters. -/
theorem capitalRuns_valid : (capitalRuns.all fun run =>
    run.lastCapital.blt 0xD800 || Nat.blt 0xDFFF run.capital && run.lastCapital.blt 0x110000) =
      true := by
  decide +kernel

/-- What a letter expands to has no further capitals, and holds no blank. -/
theorem expansions_caseless : (expansions.all fun entry =>
    !entry.2.isEmpty && entry.2.all fun point =>
      isCaseless point && point.blt 0xD800 && !blankPoints.contains point) = true := by
  decide +kernel

theorem blankPoints_caseless : blankPoints.all isCaseless = true := by
  decide +kernel

/-- On ASCII the capitals are the usual ones. -/
theorem upperPoint_ascii : ((List.range 128).all fun point =>
    (isCaseless point && Nat.beq (Char.ofNat point).toUpper.toNat point) ||
      upperPoint point == [(Char.ofNat point).toUpper.toNat]) = true := by
  decide +kernel

/-! ### Code points -/

section Points

variable {point upper : Nat}

/-- A point has no capital iff no run covers it and it does not expand. -/
theorem isCaseless_iff : isCaseless point = true ↔
    (∀ run ∈ capitalRuns, run.covers point = false) ∧ ∀ entry ∈ expansions, entry.1 ≠ point := by
  simp only [isCaseless, Bool.and_eq_true, List.all_eq_true, CapitalRun.isOutside_iff,
    Bool.not_eq_true', ← Bool.not_eq_true, Nat.beq_eq, ne_eq]

theorem upperPoint_of_isCaseless (caseless : isCaseless point = true) :
    upperPoint point = [point] := by
  obtain ⟨uncovered, unexpanded⟩ := isCaseless_iff.mp caseless
  have noRun : capitalRuns.find? (·.covers point) = none :=
    List.find?_eq_none.mpr fun run member => Bool.eq_false_iff.mp (uncovered run member)
  have noEntry : expansions.lookup point = none :=
    List.lookup_eq_none_iff.mpr fun entry member =>
      bne_iff_ne.mpr (unexpanded entry member).symm
  rw [upperPoint, noRun, noEntry]
  rfl

/-- A code point has a capital, an expansion, or no other upper case. -/
theorem upperPoint_cases (point : Nat) :
    (∃ run ∈ capitalRuns, run.covers point = true ∧ upperPoint point = [run.capitalOf point]) ∨
      (∃ entry ∈ expansions, upperPoint point = entry.2) ∨ isCaseless point = true := by
  cases covered : capitalRuns.find? (·.covers point) with
  | some run =>
      refine .inl ⟨run, List.mem_of_find?_eq_some covered, ?_, ?_⟩
      · simpa using List.find?_some covered
      · rw [upperPoint, covered]
  | none =>
      cases found : expansions.lookup point with
      | some expansion =>
          obtain ⟨before, after, split, -⟩ := List.lookup_eq_some_iff.mp found
          refine .inr (.inl ⟨(point, expansion), ?_, ?_⟩)
          · rw [split]
            exact List.mem_append_right _ List.mem_cons_self
          · rw [upperPoint, covered, found]
            rfl
      | none =>
          refine .inr (.inr (isCaseless_iff.mpr ⟨fun run member => ?_, fun entry member => ?_⟩))
          · exact Bool.eq_false_iff.mpr (List.find?_eq_none.mp covered run member)
          · exact (bne_iff_ne.mp (List.lookup_eq_none_iff.mp found entry member)).symm

/-- What the rules say of every code point in an expansion. -/
theorem of_mem_expansion {entry : Nat × List Nat} (listed : entry ∈ expansions) :
    entry.2 ≠ [] ∧ ∀ letter ∈ entry.2,
      isCaseless letter = true ∧ letter < 0xD800 ∧ letter ∉ blankPoints := by
  have checked := List.all_eq_true.mp expansions_caseless entry listed
  simpa [and_assoc, Nat.blt_eq] using checked

/-- Capitals have no further capitals. -/
theorem isCaseless_of_mem_upperPoint (member : upper ∈ upperPoint point) :
    isCaseless upper = true := by
  rcases upperPoint_cases point with ⟨run, listed, covered, same⟩ | ⟨entry, listed, same⟩ | caseless
  · rw [same, List.mem_singleton] at member
    subst member
    have apart := List.all_eq_true.mp capitalRuns_apart run listed
    have clear := List.all_eq_true.mp capitalRuns_clear run listed
    rw [Bool.and_eq_true, List.all_eq_true] at apart
    rw [List.all_eq_true] at clear
    refine isCaseless_iff.mpr ⟨fun other known => ?_, fun entry known => ?_⟩
    · exact CapitalRun.covers_capitalOf (clear other known) covered
    · exact (CapitalRun.capitalOf_ne covered (apart.1 entry known)).symm
  · rw [same] at member
    exact ((of_mem_expansion listed).2 upper member).1
  · rw [upperPoint_of_isCaseless caseless] at member
    rwa [List.mem_singleton.mp member]

/-- The capitals of a character are characters. -/
theorem isValidChar_of_mem_upperPoint (valid : point.isValidChar)
    (member : upper ∈ upperPoint point) : upper.isValidChar := by
  rcases upperPoint_cases point with ⟨run, listed, covered, same⟩ | ⟨entry, listed, same⟩ | caseless
  · rw [same, List.mem_singleton] at member
    subst member
    have bounds := List.all_eq_true.mp capitalRuns_valid run listed
    obtain ⟨least, greatest⟩ := CapitalRun.capitalOf_bounds covered
    simp only [Bool.or_eq_true, Bool.and_eq_true, Nat.blt_eq] at bounds
    simp only [Nat.isValidChar]
    omega
  · rw [same] at member
    exact .inl ((of_mem_expansion listed).2 upper member).2.1
  · rw [upperPoint_of_isCaseless caseless] at member
    rwa [List.mem_singleton.mp member]

/-- Only a blank becomes a blank. -/
theorem eq_of_mem_upperPoint (member : upper ∈ upperPoint point) (blank : upper ∈ blankPoints) :
    upper = point := by
  rcases upperPoint_cases point with ⟨run, listed, covered, same⟩ | ⟨entry, listed, same⟩ | caseless
  · have apart := List.all_eq_true.mp capitalRuns_apart run listed
    rw [Bool.and_eq_true, List.all_eq_true, List.all_eq_true] at apart
    rw [same, List.mem_singleton] at member
    exact absurd member.symm (CapitalRun.capitalOf_ne covered (apart.2 upper blank))
  · rw [same] at member
    exact absurd blank ((of_mem_expansion listed).2 upper member).2.2
  · rw [upperPoint_of_isCaseless caseless] at member
    exact List.mem_singleton.mp member

theorem upperPoint_ne_nil (point : Nat) : upperPoint point ≠ [] := by
  rcases upperPoint_cases point with ⟨run, listed, covered, same⟩ | ⟨entry, listed, same⟩ | caseless
  · simp [same]
  · rw [same]
    exact (of_mem_expansion listed).1
  · simp [upperPoint_of_isCaseless caseless]

end Points

/-! ### Characters and texts -/

/-- ASCII letters follow the tables too. -/
theorem upperChar_eq (c : Char) : upperChar c = (upperPoint c.toNat).map Char.ofNat := by
  unfold upperChar
  split
  next ascii =>
    have listed := List.all_eq_true.mp upperPoint_ascii c.toNat (List.mem_range.mpr ascii)
    rw [Bool.or_eq_true, Bool.and_eq_true, beq_iff_eq, Nat.beq_eq, Char.ofNat_toNat] at listed
    rcases listed with ⟨caseless, same⟩ | capital
    · rw [upperPoint_of_isCaseless caseless, List.map_singleton, Char.ofNat_toNat,
        Char.toNat_inj.mp same]
    · rw [capital, List.map_singleton, Char.ofNat_toNat]
  next => rfl

section Characters

variable {c d : Char}

/-- The capitals of a character are those of its code point. -/
theorem exists_upperPoint (member : d ∈ upperChar c) : d.toNat ∈ upperPoint c.toNat := by
  rw [upperChar_eq] at member
  obtain ⟨point, listed, rfl⟩ := List.mem_map.mp member
  have valid := isValidChar_of_mem_upperPoint c.valid listed
  have same : (Char.ofNat point).toNat = point := by
    rw [Char.ofNat, dif_pos valid]
    rfl
  rwa [same]

theorem upperChar_of_isCaseless (caseless : isCaseless c.toNat = true) : upperChar c = [c] := by
  rw [upperChar_eq, upperPoint_of_isCaseless caseless, List.map_singleton, Char.ofNat_toNat]

/-- No character of an upper case has another upper case. -/
theorem upperChar_of_mem_upperChar (member : d ∈ upperChar c) : upperChar d = [d] :=
  upperChar_of_isCaseless (isCaseless_of_mem_upperPoint (exists_upperPoint member))

/-- A blank is its own capital. -/
theorem upperChar_of_isBlank (blank : isBlank c = true) : upperChar c = [c] :=
  upperChar_of_isCaseless
    (List.all_eq_true.mp blankPoints_caseless _ (toNat_mem_blankPoints blank))

/-- No letter becomes a blank. -/
theorem isBlank_of_mem_upperChar (member : d ∈ upperChar c) (solid : isBlank c = false) :
    isBlank d = false := by
  rw [Bool.eq_false_iff]
  intro blank
  have same := eq_of_mem_upperPoint (exists_upperPoint member) (toNat_mem_blankPoints blank)
  rw [Char.toNat_inj.mp same] at blank
  exact Bool.eq_false_iff.mp solid blank

theorem upperChar_ne_nil (c : Char) : upperChar c ≠ [] := by
  rw [upperChar_eq]
  simpa using upperPoint_ne_nil c.toNat

end Characters

/-- A text in upper case is its own upper case. -/
theorem upper_upper (text : String) : upper (upper text) = upper text := by
  have final (c : Char) : (upperChar c).flatMap upperChar = upperChar c := by
    rw [List.flatMap_congr fun d => upperChar_of_mem_upperChar, List.flatMap_singleton']
  simp only [upper, String.toList_ofList, List.flatMap_assoc, final]

end Reporting.Text
