import Reporting.Json.Reader
import Reporting.Proofs.Outcome
import Reporting.Proofs.Value.Same

/-!
# Reading gives documents

Whatever text is read, its value is a document (`isDocument_of_read`). The members of an object have
distinct keys because a key that is written again takes the place of the first one
(`Value.isDocument_ofMembers`).
-/

namespace Reporting

namespace Value

/-- Putting a member adds its key where it is new. -/
theorem keys_put (members : List (String × Value)) (key : String) (value : Value) :
    (put members key value).map (·.1) =
      if members.any (·.1 == key) then members.map (·.1) else members.map (·.1) ++ [key] := by
  rw [put]
  split
  next old =>
    rw [List.map_map]
    apply List.map_congr_left
    intro member _
    change (if member.1 == key then (key, value) else member).1 = member.1
    split
    next same => exact (beq_iff_eq.mp same).symm
    next => rfl
  next new => exact List.map_append

/-- A member has the value that was put, or was there before. -/
theorem mem_put {members : List (String × Value)} {key : String} {value : Value}
    {member : String × Value} (inside : member ∈ put members key value) :
    member.2 = value ∨ member ∈ members := by
  rw [put] at inside
  split at inside
  next old =>
    obtain ⟨other, within, same⟩ := List.mem_map.mp inside
    split at same
    next => exact Or.inl (same ▸ rfl)
    next => exact Or.inr (same ▸ within)
  next new =>
    rcases List.mem_append.mp inside with within | last
    · exact Or.inr within
    · exact Or.inl (List.mem_singleton.mp last ▸ rfl)

/-- An object stays a document when a document is put into it. -/
theorem isDocument_put {members : List (String × Value)} {key : String} {value : Value}
    (document : IsDocument (.object members)) (written : value.IsDocument) :
    IsDocument (.object (put members key value)) := by
  rw [isDocument_object] at document ⊢
  constructor
  · rw [keys_put]
    split
    next old => exact document.1
    next new =>
      rw [List.nodup_append]
      refine ⟨document.1, List.nodup_singleton key, ?_⟩
      intro first inside last inside' same
      rw [List.mem_singleton] at inside'
      obtain ⟨member, within, rfl⟩ := List.mem_map.mp inside
      exact new (List.any_eq_true.mpr ⟨member, within, beq_iff_eq.mpr (same.trans inside')⟩)
  · intro member inside
    rcases mem_put inside with same | within
    · exact same ▸ written
    · exact document.2 member within

/-- An object of the members written is a document where their values are. -/
theorem isDocument_ofMembers {written : List (String × Value)}
    (each : ∀ member ∈ written, member.2.IsDocument) : (ofMembers written).IsDocument := by
  have folded : ∀ (written members : List (String × Value)), IsDocument (.object members) →
      (∀ member ∈ written, member.2.IsDocument) →
        IsDocument (.object (written.foldl (fun members member =>
          put members member.1 member.2) members)) := by
    intro written
    induction written with
    | nil => exact fun _ document _ => document
    | cons member rest ih =>
        intro members document each
        rw [List.forall_mem_cons] at each
        exact ih _ (isDocument_put document each.1) each.2
  exact folded written [] (.object List.nodup_nil nofun) each

end Value

namespace Json

/-- The values read with some fuel are documents, where those read before are. -/
structure ReadsDocuments (limits : Option Limits) (fuel : Nat) : Prop where
  value {outside : Nat} {text rest : List Char} {value : Value}
    (read : readValue limits fuel outside text = .ok (value, rest)) : value.IsDocument
  members {outside : Nat} {before : List (String × Value)} {text rest : List Char} {value : Value}
    (documents : ∀ member ∈ before, member.2.IsDocument)
    (read : readMembers limits fuel outside before text = .ok (value, rest)) : value.IsDocument
  items {outside : Nat} {before : List Value} {text rest : List Char} {value : Value}
    (documents : ∀ item ∈ before, item.IsDocument)
    (read : readItems limits fuel outside before text = .ok (value, rest)) : value.IsDocument

/-- A number is a document. -/
theorem isDocument_of_numeral {limits : Option Limits} {numeral : Numeral} {value : Value}
    (read : numeral.value limits = .ok value) : value.IsDocument := by
  unfold Numeral.value at read
  split at read
  next =>
    obtain ⟨-, -, read⟩ := Outcome.bind_eq_ok.mp read
    rw [← Outcome.pure_eq_ok.mp read]
    exact .int _
  next =>
    rw [← Except.ok.inj read]
    exact .float _

/-- A word or a number that is read is a document. -/
theorem isDocument_of_readPlain {limits : Option Limits} {text rest : List Char} {value : Value}
    (read : readPlain limits text = .ok (value, rest)) : value.IsDocument := by
  unfold readPlain at read
  split at read
  case h_1 => cases read; exact .null
  case h_2 => cases read; exact .bool true
  case h_3 => cases read; exact .bool false
  case h_4 => cases read; exact .float _
  case h_5 => cases read; exact .float _
  case h_6 => cases read; exact .float _
  case h_7 =>
    split at read
    next => cases read
    next numeral left _ =>
      obtain ⟨found, numeralRead, same⟩ := Outcome.map_eq_ok.mp read
      cases same
      exact isDocument_of_numeral numeralRead

/-- One more unit of fuel reads documents where the fuel so far does. -/
theorem ReadsDocuments.succ {limits : Option Limits} {fuel : Nat}
    (reads : ReadsDocuments limits fuel) : ReadsDocuments limits (fuel + 1) where
  value := by
    intro outside text rest value read
    rw [readValue.eq_def] at read
    dsimp only at read
    split at read
    next =>
      obtain ⟨found, -, same⟩ := Outcome.map_eq_ok.mp read
      cases same
      exact .text _
    next =>
      obtain ⟨-, -, read⟩ := Outcome.bind_eq_ok.mp read
      split at read
      next =>
        cases read
        exact .object List.nodup_nil (List.forall_mem_nil _)
      next => exact reads.members (List.forall_mem_nil _) read
    next =>
      obtain ⟨-, -, read⟩ := Outcome.bind_eq_ok.mp read
      split at read
      next =>
        cases read
        exact .list (List.forall_mem_nil _)
      next => exact reads.items (List.forall_mem_nil _) read
    next => exact isDocument_of_readPlain read
  members := by
    intro outside before text rest value documents read
    rw [readMembers.eq_def] at read
    dsimp only at read
    split at read
    next =>
      obtain ⟨⟨key, left⟩, -, read⟩ := Outcome.bind_eq_ok.mp read
      dsimp only at read
      split at read
      next =>
        obtain ⟨⟨member, left⟩, memberRead, read⟩ := Outcome.bind_eq_ok.mp read
        have documents : ∀ other ∈ (key, member) :: before, other.2.IsDocument :=
          List.forall_mem_cons.mpr ⟨reads.value memberRead, documents⟩
        dsimp only at read
        split at read
        next =>
          cases read
          apply Value.isDocument_ofMembers
          intro member inside
          exact documents member (List.mem_reverse.mp inside)
        next => exact reads.members documents read
        next => cases read
      next => cases read
    next => cases read
  items := by
    intro outside before text rest value documents read
    rw [readItems.eq_def] at read
    dsimp only at read
    obtain ⟨⟨item, left⟩, itemRead, read⟩ := Outcome.bind_eq_ok.mp read
    have documents : ∀ other ∈ item :: before, other.IsDocument :=
      List.forall_mem_cons.mpr ⟨reads.value itemRead, documents⟩
    dsimp only at read
    split at read
    next =>
      cases read
      exact .list fun item inside => documents item (List.mem_reverse.mp inside)
    next => exact reads.items documents read
    next => cases read

/-- Whatever the fuel, documents are read. -/
theorem readsDocuments (limits : Option Limits) (fuel : Nat) : ReadsDocuments limits fuel := by
  induction fuel with
  | zero =>
      constructor
      · intro outside text rest value read
        rw [readValue] at read
        cases read
      · intro outside before text rest value _ read
        rw [readMembers] at read
        cases read
      · intro outside before text rest value _ read
        rw [readItems] at read
        cases read
  | succ fuel ih => exact ih.succ

/-- The value of a text is a document. -/
theorem isDocument_of_read {limits : Option Limits} {text : String} {value : Value}
    (decoded : read limits text = .ok value) : value.IsDocument := by
  unfold read at decoded
  dsimp only at decoded
  split at decoded
  next found document =>
    rw [← Except.ok.inj decoded]
    obtain ⟨-, document⟩ := Outcome.guarded_eq_ok.mp document
    obtain ⟨⟨value, left⟩, valueRead, document⟩ := Outcome.bind_eq_ok.mp document
    dsimp only at document
    split at document
    next =>
      rw [← Outcome.pure_eq_ok.mp document]
      exact (readsDocuments limits _).value valueRead
    next => cases document
  next => cases decoded
  next => cases decoded

end Json

end Reporting
