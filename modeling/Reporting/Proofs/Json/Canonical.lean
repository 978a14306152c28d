import Reporting.Proofs.Json.Strings
import Reporting.Proofs.Json.Tokens

/-!
# Canonical text identifies documents

Canonical text is written so that it can be taken apart again: where a delimiter or nothing stands
behind a document, the text determines both (`decodes`). Members are sorted, so their order does not
matter, and documents have one canonical text iff they are the same as written (`canonical_eq_iff`).
-/

namespace Reporting.Json

/-- Items are written one by one. -/
theorem writeItems_eq (items : List Value) : writeItems items = items.map write := by
  induction items with
  | nil => rfl
  | cons item rest ih => rw [writeItems, ih, List.map_cons]

/-- The key of a member with the text of its value. -/
def writtenMember (member : String × Value) : String × List Char := (member.1, write member.2)

/-- Members are written one by one. -/
theorem writeMembers_eq (members : List (String × Value)) :
    writeMembers members = members.map writtenMember := by
  induction members with
  | nil => rfl
  | cons member rest ih =>
      rw [writeMembers, ih, List.map_cons]
      rfl

section Sorting

theorem insertMember_perm (member : String × List Char) (members : List (String × List Char)) :
    (insertMember member members).Perm (member :: members) := by
  induction members with
  | nil => exact .refl _
  | cons other rest ih =>
      rw [insertMember]
      split
      · exact .refl _
      · exact (ih.cons other).trans (.swap member other rest)

/-- Sorting keeps every member. -/
theorem sortMembers_perm (members : List (String × List Char)) :
    (sortMembers members).Perm members := by
  induction members with
  | nil => exact .refl _
  | cons member rest ih => exact (insertMember_perm member _).trans (ih.cons member)

/-- A member is put where its key belongs. -/
theorem insertMember_sorted (member : String × List Char) {members : List (String × List Char)}
    (sorted : members.Pairwise (·.1 ≤ ·.1)) :
    (insertMember member members).Pairwise (·.1 ≤ ·.1) := by
  induction sorted with
  | nil => exact List.pairwise_singleton _ _
  | @cons other rest below others ih =>
      rw [insertMember]
      split
      next first =>
        refine .cons ?_ (.cons below others)
        intro later member
        rcases List.mem_cons.mp member with rfl | inside
        · exact first
        · exact String.le_trans first (below later inside)
      next last =>
        refine .cons ?_ ih
        intro later inside
        rcases List.mem_cons.mp ((insertMember_perm member rest).mem_iff.mp inside) with rfl | old
        · exact (String.le_total other.1 later.1).resolve_right last
        · exact below later old

/-- Sorted members stand in the order of their keys. -/
theorem sortMembers_sorted (members : List (String × List Char)) :
    (sortMembers members).Pairwise (·.1 ≤ ·.1) := by
  induction members with
  | nil => exact .nil
  | cons member rest ih => exact insertMember_sorted member ih

/-- Members with distinct keys are sorted into one order. -/
theorem sortMembers_congr {members others : List (String × List Char)}
    (order : members.Perm others) (distinct : (members.map (·.1)).Nodup) :
    sortMembers members = sortMembers others := by
  have within := sortMembers_perm members
  have withinToo := (sortMembers_perm others).trans order.symm
  refine List.Perm.eq_of_pairwise ?_ (sortMembers_sorted members) (sortMembers_sorted others)
    (within.trans withinToo.symm)
  intro first second inside insideToo below above
  exact List.inj_on_of_nodup_map distinct (within.mem_iff.mp inside)
    (withinToo.mem_iff.mp insideToo) (String.le_antisymm below above)

/-- Written members are sorted as the members are. -/
theorem exists_sorted (members : List (String × Value)) :
    ∃ sorted, members.Perm sorted ∧
      sortMembers (writeMembers members) = sorted.map writtenMember := by
  have order := sortMembers_perm (writeMembers members)
  rw [writeMembers_eq] at order ⊢
  have composed : Relation.Comp (fun written sorted => written = List.map writtenMember sorted)
      List.Perm (sortMembers (members.map writtenMember)) members := by
    rw [List.eq_map_comp_perm]
    exact order
  obtain ⟨sorted, written, reordered⟩ := composed
  exact ⟨sorted, reordered.symm, written⟩

end Sorting

/-- Documents that are the same are written alike. -/
theorem write_eq_of_same {value other : Value} (document : value.IsDocument)
    (finite : value.IsFinite) (finiteToo : other.IsFinite) (same : value.Same other) :
    write value = write other := by
  induction value using Value.induction generalizing other with
  | null =>
      cases same
      rfl
  | scalar s =>
      cases same with
      | scalar => rfl
      | float texts =>
          rw [write_float (Value.isFinite_float.mp finite),
            write_float (Value.isFinite_float.mp finiteToo), texts]
  | list items ih =>
      cases same with
      | list alike =>
          rw [Value.isDocument_list] at document
          rw [Value.isFinite_list] at finite finiteToo
          rw [write, write, writeItems_eq, writeItems_eq, Value.map_eq_of_forall₂ alike]
          exact fun item member other memberToo => ih item member (document item member)
            (finite item member) (finiteToo other memberToo)
  | object members ih =>
      cases same with
      | @object _ reordered others order keys alike =>
          rw [Value.isDocument_object] at document
          rw [Value.isFinite_object] at finite finiteToo
          have texts : reordered.map (write ·.2) = others.map (write ·.2) := by
            rw [List.forall₂_map_left_iff, List.forall₂_map_right_iff] at alike
            refine Value.map_eq_of_forall₂ alike ?_
            intro member inside other insideToo
            have old := order.mem_iff.mpr inside
            exact ih member old (document.2 member old) (finite member old)
              (finiteToo other insideToo)
          have written : reordered.map writtenMember = others.map writtenMember := by
            change reordered.map (fun member => (member.1, write member.2)) =
              others.map (fun member => (member.1, write member.2))
            rw [← List.zip_map', ← List.zip_map', keys, texts]
          have distinct : ((members.map writtenMember).map (·.1)).Nodup := by
            rw [List.map_map]
            exact document.1
          rw [write, write, writeMembers_eq, writeMembers_eq, ← written,
            sortMembers_congr (order.map writtenMember) distinct]

section Separated

variable {α : Type} {form : α → List Char} {R : α → α → Prop} {close : Char}

theorem commaSeparated_cons (item : List Char) (rest : List (List Char)) :
    commaSeparated (item :: rest) = item ++ rest.flatMap (',' :: ·) := by
  induction rest generalizing item with
  | nil => exact (List.append_nil item).symm
  | cons other rest ih =>
      rw [commaSeparated, ih, List.flatMap_cons]
      · rfl
      · exact List.cons_ne_nil other rest

/-- Behind an item stands a comma or the closing bracket. -/
theorem delimited_behind (closes : isDelimiter close = true) (items : List α) (rest : List Char) :
    Delimited (items.flatMap (fun item => ',' :: form item) ++ close :: rest) := by
  intro c first
  cases items with
  | nil =>
      cases first
      exact closes
  | cons item items =>
      cases first
      rfl

/-- Lists of forms with commas between them up to a closing delimiter are determined by the text, as
far as the items are. -/
theorem behind_inj (closes : isDelimiter close = true) (noComma : close ≠ ',')
    {items others : List α} {rest otherRest : List Char}
    (decodes : ∀ item ∈ items, ∀ other ∈ others, ∀ rest otherRest, Delimited rest →
      Delimited otherRest → form item ++ rest = form other ++ otherRest →
        R item other ∧ rest = otherRest)
    (same : items.flatMap (fun item => ',' :: form item) ++ close :: rest =
      others.flatMap (fun item => ',' :: form item) ++ close :: otherRest) :
    List.Forall₂ R items others ∧ rest = otherRest := by
  induction items generalizing others with
  | nil =>
      cases others with
      | nil =>
          injection same with _ same
          exact ⟨.nil, same⟩
      | cons other others =>
          injection same with same
          exact absurd same noComma
  | cons item items ih =>
      cases others with
      | nil =>
          injection same with same
          exact absurd same.symm noComma
      | cons other others =>
          rw [List.flatMap_cons, List.flatMap_cons, List.append_assoc, List.append_assoc] at same
          injection same with _ same
          obtain ⟨first, behind⟩ := decodes item List.mem_cons_self other List.mem_cons_self _ _
            (delimited_behind closes items rest) (delimited_behind closes others otherRest) same
          obtain ⟨each, same⟩ := ih (fun item member other memberToo =>
            decodes item (List.mem_cons_of_mem _ member) other (List.mem_cons_of_mem _ memberToo))
            behind
          exact ⟨.cons first each, same⟩

/-- A list can be taken apart again where its items can, since no item starts with a delimiter. -/
theorem commaSeparated_inj (closes : isDelimiter close = true) (noComma : close ≠ ',')
    {items others : List α} {rest otherRest : List Char}
    (decodes : ∀ item ∈ items, ∀ other ∈ others, ∀ rest otherRest, Delimited rest →
      Delimited otherRest → form item ++ rest = form other ++ otherRest →
        R item other ∧ rest = otherRest)
    (starts : ∀ item ∈ items ++ others, ∃ c more, form item = c :: more ∧ isDelimiter c = false)
    (same : commaSeparated (items.map form) ++ close :: rest =
      commaSeparated (others.map form) ++ close :: otherRest) :
    List.Forall₂ R items others ∧ rest = otherRest := by
  have behind (items : List α) (rest : List Char) :
      (items.map form).flatMap (',' :: ·) ++ close :: rest =
        items.flatMap (fun item => ',' :: form item) ++ close :: rest := by
    rw [List.flatMap_map]
  have opens {item : α} (items : List α) (inside rest : List Char)
      (begins : ∃ c more, form item = c :: more ∧ isDelimiter c = false) :
      commaSeparated ((item :: items).map form) ++ inside ≠ close :: rest := by
    obtain ⟨c, more, written, plain⟩ := begins
    rw [List.map_cons, commaSeparated_cons, written]
    intro same
    injection same with same
    rw [same, closes] at plain
    cases plain
  cases items with
  | nil =>
      cases others with
      | nil =>
          injection same with _ same
          exact ⟨.nil, same⟩
      | cons other others =>
          exact absurd same.symm (opens others _ rest (starts other List.mem_cons_self))
  | cons item items =>
      cases others with
      | nil => exact absurd same (opens items _ otherRest (starts item List.mem_cons_self))
      | cons other others =>
          rw [List.map_cons, List.map_cons, commaSeparated_cons, commaSeparated_cons,
            List.append_assoc, List.append_assoc, behind, behind] at same
          obtain ⟨first, same⟩ := decodes item List.mem_cons_self other List.mem_cons_self _ _
            (delimited_behind closes items rest) (delimited_behind closes others otherRest) same
          obtain ⟨each, same⟩ := behind_inj closes noComma (fun item member other memberToo =>
            decodes item (List.mem_cons_of_mem _ member) other (List.mem_cons_of_mem _ memberToo))
            same
          exact ⟨.cons first each, same⟩

end Separated

/-- The character that the text of a text, a list or an object begins with. -/
def opening? : Value → Option Char
  | .scalar (.text _) => some '\x22'
  | .list _ => some '['
  | .object _ => some '\x7b'
  | _ => none

/-- A value is written as a bare word or number, or begins with a character of its own. -/
theorem isBare_or_opening {value : Value} (document : value.IsDocument) (finite : value.IsFinite) :
    IsBare value ∨ (opening? value).isSome = true := by
  cases document with
  | null => exact Or.inl .null
  | bool b => exact Or.inl (.bool b)
  | int n => exact Or.inl (.int n)
  | float x => exact Or.inl (.float (Value.isFinite_float.mp finite))
  | text s => exact Or.inr rfl
  | list each => exact Or.inr rfl
  | object keys each => exact Or.inr rfl

/-- What the text of a document begins with. -/
theorem exists_head {value : Value} (document : value.IsDocument) (finite : value.IsFinite) :
    ∃ c more, write value = c :: more ∧ isDelimiter c = false ∧
      opening? value = if isOpening c then some c else none := by
  rcases isBare_or_opening document finite with bare | opens
  · obtain ⟨c, more, written⟩ := List.exists_cons_of_ne_nil (write_ne_nil bare)
    have word : isWordChar c = true := word_of_isBare bare c (written ▸ List.mem_cons_self)
    refine ⟨c, more, written, isDelimiter_of_word word, ?_⟩
    rw [isOpening_of_word word]
    cases bare <;> rfl
  · cases document with
    | text s => exact ⟨_, _, rfl, rfl, rfl⟩
    | list each => exact ⟨_, _, rfl, rfl, rfl⟩
    | object keys each => exact ⟨_, _, rfl, rfl, rfl⟩
    | _ => cases opens

/-- No value begins with a delimiter. -/
theorem begins {value : Value} (document : value.IsDocument) (finite : value.IsFinite) :
    ∃ c more, write value = c :: more ∧ isDelimiter c = false := by
  obtain ⟨c, more, written, plain, -⟩ := exists_head document finite
  exact ⟨c, more, written, plain⟩

/-- Documents whose texts start a common text begin alike. -/
theorem opening?_eq {value other : Value} (document : value.IsDocument) (finite : value.IsFinite)
    (documentToo : other.IsDocument) (finiteToo : other.IsFinite) {rest otherRest : List Char}
    (same : write value ++ rest = write other ++ otherRest) : opening? value = opening? other := by
  obtain ⟨c, more, written, -, opens⟩ := exists_head document finite
  obtain ⟨d, moreToo, writtenToo, -, opensToo⟩ := exists_head documentToo finiteToo
  rw [written, writtenToo] at same
  injection same with same
  rw [opens, opensToo, same]

/-- Values begin alike as the constructors of documents do. -/
theorem isBare_of_opening? {value : Value} (document : value.IsDocument) (finite : value.IsFinite)
    (opens : opening? value = none) : IsBare value := by
  rcases isBare_or_opening document finite with bare | opened
  · exact bare
  · rw [opens] at opened
    cases opened

/-- What is proved of a value by induction: in front of a delimiter, its text determines it and the
rest. -/
def Decodes (value : Value) : Prop :=
  ∀ other : Value, other.IsDocument → other.IsFinite → ∀ rest otherRest, Delimited rest →
    Delimited otherRest → write value ++ rest = write other ++ otherRest →
      value.Same other ∧ rest = otherRest

/-- A word or a number can be told from what follows. -/
theorem decodes_of_bare {value : Value} (bare : IsBare value) (document : value.IsDocument)
    (finite : value.IsFinite) : Decodes value := by
  intro other documentToo finiteToo rest otherRest ended endedToo same
  have opens := opening?_eq document finite documentToo finiteToo same
  have bareToo : IsBare other := by
    apply isBare_of_opening? documentToo finiteToo
    rw [← opens]
    cases bare <;> rfl
  obtain ⟨words, same⟩ :=
    word_append_inj (word_of_isBare bare) (word_of_isBare bareToo) ended endedToo same
  exact ⟨same_of_word bare bareToo words, same⟩

/-- A text ends at its closing quote. -/
theorem decodes_text (s : String) : Decodes (.text s) := by
  intro other documentToo finiteToo rest otherRest ended endedToo same
  have finite : Value.IsFinite (.text s) := .scalar (by rintro x ⟨⟩)
  have opens := opening?_eq (.text s) finite documentToo finiteToo same
  cases documentToo with
  | text t =>
      obtain ⟨texts, rests⟩ := writeString_append_inj same
      subst texts
      exact ⟨.scalar _, rests⟩
  | _ => cases opens

/-- A list can be taken apart where its items can. -/
theorem decodes_list {items : List Value} (document : ∀ item ∈ items, item.IsDocument)
    (finite : ∀ item ∈ items, item.IsFinite) (decodes : ∀ item ∈ items, Decodes item) :
    Decodes (.list items) := by
  intro other documentToo finiteToo rest otherRest ended endedToo same
  have opens := opening?_eq (.list document) (.list finite) documentToo finiteToo same
  cases documentToo with
  | @list others documentToo =>
      rw [Value.isFinite_list] at finiteToo
      rw [write, write, writeItems_eq, writeItems_eq] at same
      simp only [List.cons_append, List.append_assoc, List.nil_append, List.cons.injEq,
        true_and] at same
      have starts : ∀ item ∈ items ++ others,
          ∃ c more, write item = c :: more ∧ isDelimiter c = false := by
        intro item member
        rcases List.mem_append.mp member with inside | inside
        · exact begins (document item inside) (finite item inside)
        · exact begins (documentToo item inside) (finiteToo item inside)
      obtain ⟨each, rests⟩ := commaSeparated_inj rfl (by decide) (fun item member other memberToo =>
        decodes item member other (documentToo other memberToo) (finiteToo other memberToo))
        starts same
      exact ⟨.list each, rests⟩
  | _ => cases opens

/-- Members of one key with values that are the same. -/
def SameMember (member other : String × Value) : Prop :=
  member.1 = other.1 ∧ member.2.Same other.2

/-- Objects are the same when their members are, in some order. -/
theorem same_of_sorted {members sorted others sortedToo : List (String × Value)}
    (order : members.Perm sorted) (orderToo : others.Perm sortedToo)
    (each : List.Forall₂ SameMember sorted sortedToo) :
    Value.Same (.object members) (.object others) := by
  obtain ⟨reordered, related, back⟩ := List.perm_comp_forall₂ orderToo each.flip
  have alike : List.Forall₂ SameMember reordered others := related.flip
  refine .object (order.trans back.symm) ?_ ?_
  · rw [← List.forall₂_eq_eq_eq, List.forall₂_map_left_iff, List.forall₂_map_right_iff]
    exact alike.imp fun _ _ same => same.1
  · rw [List.forall₂_map_left_iff, List.forall₂_map_right_iff]
    exact alike.imp fun _ _ same => same.2

/-- A member can be taken apart where its value can. -/
theorem decodes_member {member other : String × Value} (decodes : Decodes member.2)
    (documentToo : other.2.IsDocument) (finiteToo : other.2.IsFinite) (rest otherRest : List Char)
    (ended : Delimited rest) (endedToo : Delimited otherRest)
    (same : (writeMember ∘ writtenMember) member ++ rest =
      (writeMember ∘ writtenMember) other ++ otherRest) :
    SameMember member other ∧ rest = otherRest := by
  change (writeString member.1 ++ ':' :: write member.2) ++ rest =
    (writeString other.1 ++ ':' :: write other.2) ++ otherRest at same
  rw [List.append_assoc, List.append_assoc] at same
  obtain ⟨keys, behind⟩ := writeString_append_inj same
  injection behind with _ behind
  obtain ⟨values, rests⟩ :=
    decodes other.2 documentToo finiteToo rest otherRest ended endedToo behind
  exact ⟨⟨keys, values⟩, rests⟩

/-- An object can be taken apart where its values can. -/
theorem decodes_object {members : List (String × Value)} (keys : (members.map (·.1)).Nodup)
    (document : ∀ member ∈ members, member.2.IsDocument)
    (finite : ∀ member ∈ members, member.2.IsFinite)
    (decodes : ∀ member ∈ members, Decodes member.2) : Decodes (.object members) := by
  intro other documentToo finiteToo rest otherRest ended endedToo same
  have opens := opening?_eq (.object keys document) (.object finite) documentToo finiteToo same
  cases documentToo with
  | @object others keysToo documentToo =>
      rw [Value.isFinite_object] at finiteToo
      obtain ⟨sorted, order, written⟩ := exists_sorted members
      obtain ⟨sortedToo, orderToo, writtenToo⟩ := exists_sorted others
      rw [write, write, written, writtenToo, List.map_map, List.map_map] at same
      simp only [List.cons_append, List.append_assoc, List.nil_append, List.cons.injEq,
        true_and] at same
      have decodesEach : ∀ member ∈ sorted, ∀ other ∈ sortedToo, ∀ rest otherRest,
          Delimited rest → Delimited otherRest →
            (writeMember ∘ writtenMember) member ++ rest =
              (writeMember ∘ writtenMember) other ++ otherRest →
                SameMember member other ∧ rest = otherRest := by
        intro member inside other insideToo
        have old := order.mem_iff.mpr inside
        have oldToo := orderToo.mem_iff.mpr insideToo
        exact decodes_member (decodes member old) (documentToo other oldToo)
          (finiteToo other oldToo)
      obtain ⟨each, rests⟩ := commaSeparated_inj rfl (by decide) decodesEach
        (fun member _ => ⟨_, _, rfl, rfl⟩) same
      exact ⟨same_of_sorted order orderToo each, rests⟩
  | _ => cases opens

/-- A document and what stands behind it are determined by the text. -/
theorem decodes {value : Value} (document : value.IsDocument) (finite : value.IsFinite) :
    Decodes value := by
  induction value using Value.induction with
  | null => exact decodes_of_bare .null document finite
  | scalar s =>
      cases document with
      | bool b => exact decodes_of_bare (.bool b) (.bool b) finite
      | int n => exact decodes_of_bare (.int n) (.int n) finite
      | float x => exact decodes_of_bare (.float (Value.isFinite_float.mp finite)) (.float x) finite
      | text s => exact decodes_text s
  | list items ih =>
      rw [Value.isDocument_list] at document
      rw [Value.isFinite_list] at finite
      exact decodes_list document finite fun item member =>
        ih item member (document item member) (finite item member)
  | object members ih =>
      rw [Value.isDocument_object] at document
      rw [Value.isFinite_object] at finite
      exact decodes_object document.1 document.2 finite fun member inside =>
        ih member inside (document.2 member inside) (finite member inside)

/-- A double that is not finite is written as null is. -/
theorem write_asWritten (value : Value) : write value.asWritten = write value := by
  induction value using Value.induction with
  | null => rfl
  | scalar s =>
      cases s with
      | float x =>
          rw [Value.asWritten]
          by_cases finite : x.isFinite = true
          · rw [if_pos finite]
          · rw [if_neg finite, write, write, writeScalar, if_neg finite]
      | _ => rfl
  | list items ih =>
      have texts : (items.map Value.asWritten).map write = items.map write := by
        rw [List.map_map]
        exact List.map_congr_left ih
      rw [Value.asWritten, Value.asWrittenItems_eq, write, write, writeItems_eq, writeItems_eq,
        texts]
  | object members ih =>
      have texts : (members.map fun member => (member.1, member.2.asWritten)).map writtenMember =
          members.map writtenMember := by
        rw [List.map_map]
        exact List.map_congr_left fun member inside =>
          congrArg (Prod.mk member.1) (ih member inside)
      rw [Value.asWritten, Value.asWrittenMembers_eq, write, write, writeMembers_eq,
        writeMembers_eq, texts]

/-- Documents have one canonical text iff they are the same as written. -/
theorem canonical_eq_iff {value other : Value} (document : value.IsDocument)
    (documentToo : other.IsDocument) :
    canonical value = canonical other ↔ value.asWritten.Same other.asWritten := by
  -- Values as written are finite, so their texts can be taken apart.
  have finite := value.isFinite_asWritten
  have finiteToo := other.isFinite_asWritten
  rw [canonical, canonical, ← write_asWritten value, ← write_asWritten other]
  constructor
  · intro same
    have texts := String.ofList_injective same
    exact (decodes document.asWritten finite other.asWritten documentToo.asWritten finiteToo [] []
      nofun nofun (congrArg (· ++ []) texts)).1
  · intro same
    rw [write_eq_of_same document.asWritten finite finiteToo same]

end Reporting.Json
