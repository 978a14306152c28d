import Mathlib.Data.List.Nodup
import Mathlib.Data.List.Perm.Basic
import Reporting.Value

/-!
# Values that are the same

Two values are the same when they have the same structure, whatever the order of the members in
their objects; doubles are known by their text (`Value.Same`). A document holds nothing but nulls,
truth values, integers, doubles, texts, lists and objects whose keys are distinct
(`Value.IsDocument`). Objects with keys in one order are the same iff they are so member by member
(`Value.same_object_iff`).
-/

namespace Reporting

namespace Value

/-- Induction on values, with a hypothesis for every item and every member. -/
theorem induction {motive : Value → Prop} (null : motive .null)
    (scalar : ∀ s, motive (.scalar s))
    (list : ∀ items, (∀ item ∈ items, motive item) → motive (.list items))
    (object : ∀ members, (∀ member ∈ members, motive member.2) → motive (.object members))
    (value : Value) : motive value :=
  @Value.rec motive (fun items => ∀ item ∈ items, motive item)
    (fun members => ∀ member ∈ members, motive member.2) (fun member => motive member.2) null scalar
    list object (fun _ member => absurd member List.not_mem_nil)
    (fun _ _ first others => List.forall_mem_cons.mpr ⟨first, others⟩)
    (fun _ member => absurd member List.not_mem_nil)
    (fun _ _ first others => List.forall_mem_cons.mpr ⟨first, others⟩) (fun _ _ second => second)
    value

/-- Of the same structure, members in any order and doubles of one text. -/
inductive Same : Value → Value → Prop
  | null : Same .null .null
  | scalar (s : Scalar) : Same (.scalar s) (.scalar s)
  | float {x y : Double} (texts : x.text = y.text) : Same (.float x) (.float y)
  | list {items others : List Value} (each : List.Forall₂ Same items others) :
    Same (.list items) (.list others)
  | object {members reordered others : List (String × Value)} (order : members.Perm reordered)
    (keys : reordered.map (·.1) = others.map (·.1))
    (each : List.Forall₂ Same (reordered.map (·.2)) (others.map (·.2))) :
    Same (.object members) (.object others)

/-- What a JSON text can hold. -/
inductive IsDocument : Value → Prop
  | null : IsDocument .null
  | bool (b : Bool) : IsDocument (.bool b)
  | int (n : Int) : IsDocument (.int n)
  | float (x : Double) : IsDocument (.float x)
  | text (s : String) : IsDocument (.text s)
  | list {items : List Value} (each : ∀ item ∈ items, IsDocument item) : IsDocument (.list items)
  | object {members : List (String × Value)} (keys : (members.map (·.1)).Nodup)
    (each : ∀ member ∈ members, IsDocument member.2) : IsDocument (.object members)

/-- Every double in the value is finite. -/
inductive IsFinite : Value → Prop
  | null : IsFinite .null
  | scalar {s : Scalar} (each : ∀ x, s = .float x → x.isFinite = true) : IsFinite (.scalar s)
  | list {items : List Value} (each : ∀ item ∈ items, IsFinite item) : IsFinite (.list items)
  | object {members : List (String × Value)} (each : ∀ member ∈ members, IsFinite member.2) :
    IsFinite (.object members)

/-- A list is a document iff its items are. -/
theorem isDocument_list {items : List Value} :
    IsDocument (.list items) ↔ ∀ item ∈ items, item.IsDocument :=
  ⟨fun | .list each => each, .list⟩

/-- An object is a document iff its keys are told apart and its values are documents. -/
theorem isDocument_object {members : List (String × Value)} :
    IsDocument (.object members) ↔
      (members.map (·.1)).Nodup ∧ ∀ member ∈ members, member.2.IsDocument :=
  ⟨fun | .object keys each => ⟨keys, each⟩, fun both => .object both.1 both.2⟩

/-- An object is a document where its keys are distinct and each of its values is one. -/
theorem isDocument_of_values {members : List (String × Value)} (keys : (members.map (·.1)).Nodup)
    (each : (members.map (·.2)).Forall IsDocument) : IsDocument (.object members) :=
  .object keys (List.forall_mem_map.mp (List.forall_iff_forall_mem.mp each))

theorem isFinite_float {x : Double} : IsFinite (.float x) ↔ x.isFinite = true :=
  ⟨fun | .scalar each => each x rfl,
    fun finite => .scalar fun _ same => Scalar.float.inj same ▸ finite⟩

theorem isFinite_list {items : List Value} :
    IsFinite (.list items) ↔ ∀ item ∈ items, item.IsFinite :=
  ⟨fun | .list each => each, .list⟩

theorem isFinite_object {members : List (String × Value)} :
    IsFinite (.object members) ↔ ∀ member ∈ members, member.2.IsFinite :=
  ⟨fun | .object each => each, .object⟩

mutual

def decideFinite : (value : Value) → Decidable value.IsFinite
  | .null => isTrue .null
  | .scalar (.float _) => decidable_of_iff _ isFinite_float.symm
  | .scalar (.bool _) | .scalar (.int _) | .scalar (.decimal _) => isTrue (.scalar nofun)
  | .scalar (.moment _) | .scalar (.text _) => isTrue (.scalar nofun)
  | .list items => @decidable_of_iff _ _ isFinite_list.symm (decideFiniteItems items)
  | .object members => @decidable_of_iff _ _ isFinite_object.symm (decideFiniteMembers members)

def decideFiniteItems : (items : List Value) → Decidable (∀ item ∈ items, item.IsFinite)
  | [] => isTrue (List.forall_mem_nil _)
  | item :: rest => @decidable_of_iff _ _ List.forall_mem_cons.symm
      (@instDecidableAnd _ _ (decideFinite item) (decideFiniteItems rest))

def decideFiniteMembers :
    (members : List (String × Value)) → Decidable (∀ member ∈ members, member.2.IsFinite)
  | [] => isTrue (List.forall_mem_nil _)
  | (_, value) :: rest => @decidable_of_iff _ _ List.forall_mem_cons.symm
      (@instDecidableAnd _ _ (decideFinite value) (decideFiniteMembers rest))

end

instance : DecidablePred IsFinite := decideFinite

theorem same_text_iff {s t : String} : Same (.text s) (.text t) ↔ s = t :=
  ⟨fun | .scalar _ => rfl, fun same => same ▸ .scalar _⟩

theorem same_int_iff {n m : Int} : Same (.int n) (.int m) ↔ n = m :=
  ⟨fun | .scalar _ => rfl, fun same => same ▸ .scalar _⟩

/-- Lists are the same iff their items are, one by one. -/
theorem same_list_iff {items others : List Value} :
    Same (.list items) (.list others) ↔ List.Forall₂ Same items others :=
  ⟨fun | .list each => each, .list⟩

/-- Null is the same as null alone. -/
theorem Same.eq_null {value other : Value} (same : value.Same other) :
    value = .null ↔ other = .null := by
  cases same with
  | null => exact Iff.rfl
  | _ => exact ⟨nofun, nofun⟩

/-- Values that may be missing, written as null then. -/
theorem same_option_iff {α : Type} {form : α → Value}
    (present : ∀ {a b : α}, Same (form a) (form b) ↔ a = b) (some : ∀ a, form a ≠ .null)
    {a? b? : Option α} : Same ((a?.map form).getD .null) ((b?.map form).getD .null) ↔ a? = b? := by
  cases a? with
  | none =>
      cases b? with
      | none => exact ⟨fun _ => rfl, fun _ => .null⟩
      | some b => exact ⟨fun same => absurd (same.eq_null.mp rfl) (some b), nofun⟩
  | some a =>
      cases b? with
      | none => exact ⟨fun same => absurd (same.eq_null.mpr rfl) (some a), nofun⟩
      | some b => exact present.trans (Option.some_inj).symm

/-- Functions that agree on related values agree on related lists. -/
theorem map_eq_of_forall₂ {α β γ : Type} {R : α → β → Prop} {f : α → γ} {g : β → γ} {items : List α}
    {others : List β} (each : List.Forall₂ R items others)
    (agree : ∀ item ∈ items, ∀ other ∈ others, R item other → f item = g other) :
    items.map f = others.map g := by
  induction each with
  | nil => rfl
  | cons first _ ih =>
      rw [List.map_cons, List.map_cons,
        agree _ List.mem_cons_self _ List.mem_cons_self first,
        ih fun item member other memberToo => agree item (List.mem_cons_of_mem _ member) other
          (List.mem_cons_of_mem _ memberToo)]

/-- Members that are equal up to order and have the same distinct keys are equal. -/
theorem eq_of_perm_of_keys {members others : List (String × Value)}
    (order : members.Perm others) (keys : members.map (·.1) = others.map (·.1))
    (distinct : (others.map (·.1)).Nodup) : members = others := by
  have within : ∀ first second : List (String × Value), first ⊆ others → second ⊆ others →
      first.map (·.1) = second.map (·.1) → first = second := by
    intro first
    induction first with
    | nil =>
        intro second _ _ same
        exact (List.map_eq_nil_iff.mp same.symm).symm
    | cons member rest ih =>
        intro second inside insideToo same
        cases second with
        | nil => cases same
        | cons other more =>
            rw [List.cons_subset] at inside insideToo
            injection same with sameKey sameKeys
            rw [List.inj_on_of_nodup_map distinct inside.1 insideToo.1 sameKey,
              ih more inside.2 insideToo.2 sameKeys]
  exact within members others order.subset (List.Subset.refl others) keys

/-- Objects whose keys are the same in the same order. -/
theorem same_object_iff {members others : List (String × Value)}
    (keys : members.map (·.1) = others.map (·.1)) (distinct : (members.map (·.1)).Nodup) :
    Same (.object members) (.object others) ↔
      List.Forall₂ Same (members.map (·.2)) (others.map (·.2)) := by
  constructor
  · intro same
    cases same with
    | object order sameKeys each =>
        rw [eq_of_perm_of_keys order.symm (sameKeys.trans keys.symm) distinct] at each
        exact each
  · intro each
    exact .object (.refl members) keys each

mutual

/-- The value that is left of a value in a form without infinities: null for every double that is
not finite. -/
def asWritten : Value → Value
  | .null => .null
  | .scalar (.float x) => if x.isFinite then .float x else .null
  | .scalar s => .scalar s
  | .list items => .list (asWrittenItems items)
  | .object members => .object (asWrittenMembers members)

def asWrittenItems : List Value → List Value
  | [] => []
  | item :: rest => asWritten item :: asWrittenItems rest

def asWrittenMembers : List (String × Value) → List (String × Value)
  | [] => []
  | (key, value) :: rest => (key, asWritten value) :: asWrittenMembers rest

end

theorem asWrittenItems_eq (items : List Value) : asWrittenItems items = items.map asWritten := by
  induction items with
  | nil => rfl
  | cons item rest ih => rw [asWrittenItems, ih, List.map_cons]

/-- Members are written one by one. -/
theorem asWrittenMembers_eq (members : List (String × Value)) :
    asWrittenMembers members = members.map fun member => (member.1, member.2.asWritten) := by
  induction members with
  | nil => rfl
  | cons member rest ih => rw [asWrittenMembers, ih, List.map_cons]

/-- Writing null for values keeps the keys. -/
theorem keys_asWrittenMembers (members : List (String × Value)) :
    (asWrittenMembers members).map (·.1) = members.map (·.1) := by
  rw [asWrittenMembers_eq, List.map_map]
  rfl

/-- A value with finite doubles only is left as it is. -/
theorem asWritten_of_isFinite {value : Value} (finite : value.IsFinite) :
    value.asWritten = value := by
  induction value using Value.induction with
  | null => rfl
  | scalar s =>
      cases s with
      | float x => rw [asWritten, if_pos (isFinite_float.mp finite)]
      | _ => rfl
  | list items ih =>
      have same : ∀ item ∈ items, item.asWritten = item :=
        fun item member => ih item member (isFinite_list.mp finite item member)
      rw [asWritten, asWrittenItems_eq, List.map_congr_left same, List.map_id']
  | object members ih =>
      have same : ∀ member ∈ members, (member.1, member.2.asWritten) = member :=
        fun member inside =>
          Prod.ext rfl (ih member inside (isFinite_object.mp finite member inside))
      rw [asWritten, asWrittenMembers_eq, List.map_congr_left same, List.map_id']

/-- As it is written, a value has finite doubles only. -/
theorem isFinite_asWritten (value : Value) : value.asWritten.IsFinite := by
  induction value using Value.induction with
  | null => exact .null
  | scalar s =>
      cases s with
      | float x =>
          rw [asWritten]
          by_cases finite : x.isFinite = true
          · rw [if_pos finite]
            exact isFinite_float.mpr finite
          · rw [if_neg finite]
            exact .null
      | _ => exact .scalar nofun
  | list items ih =>
      rw [asWritten, asWrittenItems_eq]
      exact .list (List.forall_mem_map.mpr ih)
  | object members ih =>
      rw [asWritten, asWrittenMembers_eq]
      exact .object (List.forall_mem_map.mpr ih)

/-- As it is written, a document is one still. -/
theorem IsDocument.asWritten {value : Value} (document : value.IsDocument) :
    value.asWritten.IsDocument := by
  induction value using Value.induction with
  | null => exact .null
  | scalar s =>
      cases s with
      | float x =>
          rw [Value.asWritten]
          by_cases finite : x.isFinite = true
          · rw [if_pos finite]
            exact .float x
          · rw [if_neg finite]
            exact .null
      | _ => exact document
  | list items ih =>
      rw [Value.asWritten, asWrittenItems_eq]
      rw [isDocument_list] at document ⊢
      exact List.forall_mem_map.mpr fun item member => ih item member (document item member)
  | object members ih =>
      rw [Value.asWritten]
      rw [isDocument_object] at document ⊢
      rw [keys_asWrittenMembers, asWrittenMembers_eq]
      exact ⟨document.1, List.forall_mem_map.mpr fun member inside =>
        ih member inside (document.2 member inside)⟩

end Value

end Reporting
