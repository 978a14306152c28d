import Mathlib.Data.List.Forall2
import Reporting.Rejection

/-!
# Outcomes

Checks and builders either end well or name a fault. The lemmas of this module take an outcome that
ended well apart, step by step: a sequence of steps ended well iff each step did, a traversal iff
it did at every item. Rewriting with them turns the equation `builder input = .ok result` into a
plain description of the result. A traversal that fails does so at the first item that fails
(`IsFirst`, `Outcome.checkAll_decides`).
-/

namespace Reporting

section First

variable {α : Type} {P : α → Prop} {items before : List α} {item : α}

/-- The first item of a list with a property, and the items before it. -/
structure IsFirst (P : α → Prop) (items before : List α) (item : α) : Prop where
  split : ∃ after, items = before ++ item :: after
  without : ∀ earlier ∈ before, ¬ P earlier
  holds : P item

theorem not_isFirst_nil : ¬ IsFirst P [] before item := by
  rintro ⟨⟨after, split⟩, -, -⟩
  simp at split

/-- An item that has the property at the head of a list is the first one. -/
theorem isFirst_cons_of_holds {head : α} {rest : List α} (here : P head) :
    IsFirst P (head :: rest) before item ↔ before = [] ∧ item = head := by
  constructor
  · rintro ⟨⟨after, split⟩, without, -⟩
    cases before with
    | nil => exact ⟨rfl, (List.cons.inj split).1.symm⟩
    | cons first before =>
        obtain ⟨rfl, -⟩ := List.cons.inj split
        exact absurd here (without head List.mem_cons_self)
  · rintro ⟨rfl, rfl⟩
    exact ⟨⟨rest, rfl⟩, by simp, here⟩

/-- Behind a head without the property the first one is that of the rest. -/
theorem isFirst_cons_of_not {head : α} {rest : List α} (missing : ¬ P head) :
    IsFirst P (head :: rest) before item ↔
      ∃ earlier, before = head :: earlier ∧ IsFirst P rest earlier item := by
  constructor
  · rintro ⟨⟨after, split⟩, without, holds⟩
    cases before with
    | nil =>
        obtain ⟨rfl, -⟩ := List.cons.inj split
        exact absurd holds missing
    | cons first before =>
        obtain ⟨rfl, others⟩ := List.cons.inj split
        exact ⟨before, rfl, ⟨after, others⟩, (List.forall_mem_cons.mp without).2, holds⟩
  · rintro ⟨earlier, rfl, ⟨after, rfl⟩, without, holds⟩
    exact ⟨⟨after, rfl⟩, List.forall_mem_cons.mpr ⟨missing, without⟩, holds⟩

namespace IsFirst

/-- The first item with a property is an item of the list. -/
theorem mem (first : IsFirst P items before item) : item ∈ items := by
  obtain ⟨⟨after, rfl⟩, -, -⟩ := first
  simp

/-- The first item stands right behind the ones before it. -/
theorem getElem?_length (first : IsFirst P items before item) :
    items[before.length]? = some item := by
  obtain ⟨⟨after, rfl⟩, -, -⟩ := first
  simp

theorem length_lt (first : IsFirst P items before item) : before.length < items.length :=
  (List.getElem?_eq_some_iff.mp first.getElem?_length).1

/-- No item with the property stands before the first one. -/
theorem length_le (first : IsFirst P items before item) {i : Nat} {other : α}
    (found : items[i]? = some other) (holds : P other) : before.length ≤ i := by
  obtain ⟨⟨after, rfl⟩, without, -⟩ := first
  by_contra earlier
  rw [List.getElem?_append_left (by omega)] at found
  exact without other (List.mem_of_getElem? found) holds

/-- There is at most one first item. -/
theorem unique {others : List α} {other : α} (first : IsFirst P items before item)
    (second : IsFirst P items others other) : before = others ∧ item = other := by
  induction items generalizing before others with
  | nil => exact absurd first not_isFirst_nil
  | cons head rest ih =>
      by_cases here : P head
      · obtain ⟨rfl, rfl⟩ := (isFirst_cons_of_holds here).mp first
        obtain ⟨rfl, rfl⟩ := (isFirst_cons_of_holds here).mp second
        exact ⟨rfl, rfl⟩
      · obtain ⟨before, rfl, behind⟩ := (isFirst_cons_of_not here).mp first
        obtain ⟨others, rfl, behindToo⟩ := (isFirst_cons_of_not here).mp second
        obtain ⟨rfl, rfl⟩ := ih behind behindToo
        exact ⟨rfl, rfl⟩

/-- Properties that agree on the list have the same first item. -/
theorem congr {Q : α → Prop} (same : ∀ other ∈ items, P other ↔ Q other) :
    IsFirst P items before item ↔ IsFirst Q items before item := by
  have listed (first : ∃ after, items = before ++ item :: after) :
      (∀ earlier ∈ before, earlier ∈ items) ∧ item ∈ items := by
    obtain ⟨after, rfl⟩ := first
    exact ⟨fun earlier member => List.mem_append_left _ member, by simp⟩
  constructor
  · rintro ⟨split, without, holds⟩
    obtain ⟨earlier, here⟩ := listed split
    exact ⟨split, fun other member => (same other (earlier other member)).not.mp
      (without other member), (same item here).mp holds⟩
  · rintro ⟨split, without, holds⟩
    obtain ⟨earlier, here⟩ := listed split
    exact ⟨split, fun other member => (same other (earlier other member)).not.mpr
      (without other member), (same item here).mpr holds⟩

end IsFirst

/-- A list with an item that has the property has a first one. -/
theorem exists_isFirst (found : ∃ item ∈ items, P item) :
    ∃ before item, IsFirst P items before item := by
  induction items with
  | nil =>
      obtain ⟨item, member, -⟩ := found
      exact absurd member List.not_mem_nil
  | cons head rest ih =>
      by_cases here : P head
      · exact ⟨[], head, (isFirst_cons_of_holds here).mpr ⟨rfl, rfl⟩⟩
      · obtain ⟨item, member, holds⟩ := found
        have behind : item ∈ rest := by
          rcases List.mem_cons.mp member with rfl | behind
          · exact absurd holds here
          · exact behind
        obtain ⟨before, first, isFirst⟩ := ih ⟨item, behind, holds⟩
        exact ⟨head :: before, first, (isFirst_cons_of_not here).mpr ⟨before, rfl, isFirst⟩⟩

end First

namespace Outcome

variable {ε α β : Type}

/-- Two steps end well iff the first gives a value with which the second ends well. -/
theorem bind_eq_ok {first : Except ε α} {next : α → Except ε β} {result : β} :
    (first >>= next) = .ok result ↔ ∃ value, first = .ok value ∧ next value = .ok result := by
  cases first with
  | error fault => simp [bind, Except.bind]
  | ok value => simp [bind, Except.bind]

/-- Two steps fail iff the first does, or gives a value with which the second does. -/
theorem bind_eq_error {first : Except ε α} {next : α → Except ε β} {fault : ε} :
    (first >>= next) = .error fault ↔
      first = .error fault ∨ ∃ value, first = .ok value ∧ next value = .error fault := by
  cases first with
  | error other => simp [bind, Except.bind]
  | ok value => simp [bind, Except.bind]

/-- A check before a step ends well iff both do. -/
theorem check_bind_eq_ok {check : Except ε Unit} {next : Unit → Except ε β} {result : β} :
    (check >>= next) = .ok result ↔ check = .ok () ∧ next () = .ok result := by
  rw [bind_eq_ok]
  constructor
  · rintro ⟨_, passed, others⟩
    exact ⟨passed, others⟩
  · rintro ⟨passed, others⟩
    exact ⟨(), passed, others⟩

/-- A mapped outcome is good iff the outcome is. -/
theorem map_eq_ok {outcome : Except ε α} {f : α → β} {result : β} :
    outcome.map f = .ok result ↔ ∃ value, outcome = .ok value ∧ f value = result := by
  cases outcome with
  | error fault => simp [Except.map]
  | ok value => simp [Except.map]

/-- Mapping the result keeps the fault. -/
theorem map_eq_error {outcome : Except ε α} {f : α → β} {fault : ε} :
    outcome.map f = .error fault ↔ outcome = .error fault := by
  cases outcome with
  | error other => simp [Except.map]
  | ok value => simp [Except.map]

/-- Mapping the fault keeps the result. -/
theorem mapError_eq_ok {δ : Type} {outcome : Except ε α} {f : ε → δ} {result : α} :
    outcome.mapError f = .ok result ↔ outcome = .ok result := by
  cases outcome with
  | error fault => simp [Except.mapError]
  | ok value => simp [Except.mapError]

/-- A mapped fault comes from a fault. -/
theorem mapError_eq_error {δ : Type} {outcome : Except ε α} {f : ε → δ} {fault : δ} :
    outcome.mapError f = .error fault ↔ ∃ cause, outcome = .error cause ∧ f cause = fault := by
  cases outcome with
  | error fault => simp [Except.mapError]
  | ok value => simp [Except.mapError]

theorem pure_eq_ok {value result : α} :
    (pure value : Except ε α) = .ok result ↔ value = result := by
  simp only [pure, Except.pure, Except.ok.injEq]

theorem pure_ne_error {value : α} {fault : ε} :
    (pure value : Except ε α) = .error fault ↔ False := by
  simp only [pure, Except.pure, reduceCtorEq]

/-- What is left when faults are forgotten is the result. -/
theorem toOption_eq_some {outcome : Except ε α} {result : α} :
    outcome.toOption = some result ↔ outcome = .ok result := by
  cases outcome with
  | error fault => simp [Except.toOption]
  | ok value => simp [Except.toOption]

/-- An outcome of which something is left is good. -/
theorem exists_eq_ok {outcome : Except ε α} (ended : outcome.toOption.isSome = true) :
    ∃ result, outcome = .ok result := by
  obtain ⟨result, found⟩ := Option.isSome_iff_exists.mp ended
  exact ⟨result, toOption_eq_some.mp found⟩

/-- What follows a refusal ends well iff nothing was refused. -/
theorem guarded_eq_ok {refused : Prop} [Decidable refused] {fault : ε} {next : α → Except ε β}
    {rest : Except ε β} {result : β} :
    (if refused then throw fault >>= next else rest) = .ok result ↔
      ¬ refused ∧ rest = .ok result := by
  by_cases met : refused
  · simp [met, throw, throwThe, MonadExceptOf.throw, bind, Except.bind]
  · simp [met]

/-- A check that a condition decides. -/
theorem ite_error_eq_ok {refused : Prop} [Decidable refused] {fault : ε} {rest : Except ε α}
    {result : α} :
    (if refused then .error fault else rest) = .ok result ↔ ¬ refused ∧ rest = .ok result := by
  by_cases met : refused
  · simp [met]
  · simp [met]

/-- A traversal ends well iff its function does at every item. -/
theorem mapM_eq_ok {f : α → Except ε β} {items : List α} {results : List β} :
    items.mapM f = .ok results ↔
      List.Forall₂ (fun item result => f item = .ok result) items results := by
  induction items generalizing results with
  | nil => cases results <;> simp [pure_eq_ok]
  | cons item rest ih =>
      simp only [List.mapM_cons, bind_eq_ok, pure_eq_ok, ih, List.forall₂_cons_left_iff]
      constructor
      · rintro ⟨head, first, tail, others, rfl⟩
        exact ⟨head, tail, first, others, rfl⟩
      · rintro ⟨head, tail, first, others, rfl⟩
        exact ⟨head, first, tail, others, rfl⟩

/-- A traversal fails at the first item at which its function does not end well. -/
theorem mapM_eq_error {f : α → Except ε β} {items : List α} {fault : ε} :
    items.mapM f = .error fault ↔ ∃ before item,
      IsFirst (fun item => ¬ ∃ result, f item = .ok result) items before item ∧
        f item = .error fault := by
  induction items with
  | nil => simp [not_isFirst_nil, pure, Except.pure]
  | cons item rest ih =>
      rw [List.mapM_cons, bind_eq_error]
      cases here : f item with
      | error other =>
          have first {before : List α} {failing : α} :
              IsFirst (fun item => ¬ ∃ result, f item = .ok result) (item :: rest) before failing ↔
                before = [] ∧ failing = item :=
            isFirst_cons_of_holds (by simp [here])
          constructor
          · rintro (same | ⟨value, ended, -⟩)
            · exact ⟨[], item, first.mpr ⟨rfl, rfl⟩, here.trans same⟩
            · cases ended
          · rintro ⟨before, failing, isFirst, failed⟩
            obtain ⟨-, rfl⟩ := first.mp isFirst
            exact .inl (here.symm.trans failed)
      | ok head =>
          have later {before : List α} {failing : α} :
              IsFirst (fun item => ¬ ∃ result, f item = .ok result) (item :: rest) before failing ↔
                ∃ earlier, before = item :: earlier ∧
                  IsFirst (fun item => ¬ ∃ result, f item = .ok result) rest earlier failing :=
            isFirst_cons_of_not (not_not_intro ⟨head, here⟩)
          constructor
          · rintro (ended | ⟨_, -, failed⟩)
            · cases ended
            · simp only [bind_eq_error, pure_ne_error, and_false, exists_false, or_false] at failed
              obtain ⟨before, failing, isFirst, own⟩ := ih.mp failed
              exact ⟨item :: before, failing, later.mpr ⟨before, rfl, isFirst⟩, own⟩
          · rintro ⟨_, failing, isFirst, failed⟩
            obtain ⟨before, -, behind⟩ := later.mp isFirst
            have rest := ih.mpr ⟨before, failing, behind, failed⟩
            exact .inr ⟨head, rfl, bind_eq_error.mpr (.inl rest)⟩

/-- Every way in which an outcome fails has a property. -/
def FaultsIn (P : ε → Prop) (outcome : Except ε α) : Prop :=
  ∀ fault, outcome = .error fault → P fault

section FaultsIn

variable {P Q : ε → Prop}

/-- Faults of one kind are faults of every wider kind. -/
theorem FaultsIn.mono {outcome : Except ε α} (faults : FaultsIn P outcome)
    (weaker : ∀ fault, P fault → Q fault) : FaultsIn Q outcome :=
  fun fault failed => weaker fault (faults fault failed)

/-- A good outcome has no faults of any other kind. -/
theorem faultsIn_of_exists_ok {outcome : Except ε α} (ended : ∃ result, outcome = .ok result) :
    FaultsIn P outcome := by
  obtain ⟨result, rfl⟩ := ended
  exact fun _ failed => by cases failed

theorem faultsIn_ok (result : α) : FaultsIn P (.ok result) := faultsIn_of_exists_ok ⟨result, rfl⟩

theorem faultsIn_error {fault : ε} (holds : P fault) : FaultsIn P (.error fault : Except ε α) :=
  fun _ failed => Except.error.inj failed ▸ holds

/-- The faults of two steps are those of the first and of the second behind it. -/
theorem faultsIn_bind {first : Except ε α} {next : α → Except ε β} (head : FaultsIn P first)
    (behind : ∀ value, first = .ok value → FaultsIn P (next value)) :
    FaultsIn P (first >>= next) := by
  intro fault failed
  rcases bind_eq_error.mp failed with here | ⟨value, ended, later⟩
  · exact head fault here
  · exact behind value ended fault later

/-- The faults of a guarded step are that of the guard and those of the step. -/
theorem faultsIn_guarded {refused : Prop} [Decidable refused] {fault : ε} {next : α → Except ε β}
    {rest : Except ε β} (own : P fault) (others : FaultsIn P rest) :
    FaultsIn P (if refused then throw fault >>= next else rest) := by
  by_cases met : refused
  · rw [if_pos met]
    exact faultsIn_error own
  · rw [if_neg met]
    exact others

/-- Mapping the result keeps the kind of the faults. -/
theorem faultsIn_map {outcome : Except ε α} {f : α → β} (faults : FaultsIn P outcome) :
    FaultsIn P (outcome.map f) :=
  fun fault failed => faults fault (map_eq_error.mp failed)

/-- The faults of a traversal are those at its items. -/
theorem faultsIn_mapM {f : α → Except ε β} {items : List α}
    (each : ∀ item ∈ items, FaultsIn P (f item)) : FaultsIn P (items.mapM f) := by
  intro fault failed
  obtain ⟨before, item, first, own⟩ := mapM_eq_error.mp failed
  exact each item first.mem fault own

end FaultsIn

/-- Where the function ends well at every item, so does the traversal. -/
theorem exists_mapM_eq_ok {f : α → Except ε β} {items : List α}
    (each : ∀ item ∈ items, ∃ result, f item = .ok result) :
    ∃ results, items.mapM f = .ok results := by
  induction items with
  | nil => exact ⟨[], rfl⟩
  | cons item rest ih =>
      obtain ⟨head, first⟩ := each item List.mem_cons_self
      obtain ⟨tail, others⟩ := ih fun other member => each other (List.mem_cons_of_mem item member)
      exact ⟨head :: tail, mapM_eq_ok.mpr (.cons first (mapM_eq_ok.mp others))⟩

/-- Every result of a traversal comes from an item. -/
theorem exists_of_mem_right {R : α → β → Prop} {items : List α} {results : List β}
    (related : List.Forall₂ R items results) {result : β} (member : result ∈ results) :
    ∃ item ∈ items, R item result := by
  induction related with
  | nil => exact absurd member List.not_mem_nil
  | cons first _ ih =>
      rcases List.mem_cons.mp member with rfl | later
      · exact ⟨_, List.mem_cons_self, first⟩
      · obtain ⟨item, found, holds⟩ := ih later
        exact ⟨item, List.mem_cons_of_mem _ found, holds⟩

/-- A traversal ends well iff its function does at every item. -/
theorem exists_mapM_iff {f : α → Except ε β} {items : List α} :
    (∃ results, items.mapM f = .ok results) ↔ ∀ item ∈ items, ∃ result, f item = .ok result := by
  refine ⟨fun ⟨results, found⟩ item member => ?_, exists_mapM_eq_ok⟩
  obtain ⟨result, -, own⟩ := exists_of_mem_right
    (R := fun result item => f item = .ok result) (mapM_eq_ok.mp found).flip member
  exact ⟨result, own⟩

/-- A traversal has one list of results. -/
theorem forall₂_unique {f : α → Except ε β} {items : List α} {results others : List β}
    (first : List.Forall₂ (fun item result => f item = .ok result) items results)
    (second : List.Forall₂ (fun item result => f item = .ok result) items others) :
    results = others := by
  rw [← mapM_eq_ok] at first second
  rw [first] at second
  exact Except.ok.inj second

/-- Results of items that are related one by one. -/
theorem forall₂_results {α₁ α₂ β₁ β₂ : Type} {R : α₁ → α₂ → Prop} {S : α₁ → β₁ → Prop}
    {T : α₂ → β₂ → Prop} {items : List α₁} {others : List α₂} {results : List β₁}
    {otherResults : List β₂} (related : List.Forall₂ R items others)
    (first : List.Forall₂ S items results) (second : List.Forall₂ T others otherResults) :
    List.Forall₂ (fun result other => ∃ item same, R item same ∧ S item result ∧ T same other)
      results otherResults := by
  induction related generalizing results otherResults with
  | nil =>
      cases first
      cases second
      exact .nil
  | cons head _ ih =>
      cases first with
      | cons here behind =>
          cases second with
          | cons hereToo behindToo =>
              exact .cons ⟨_, _, head, here, hereToo⟩ (ih behind behindToo)

theorem checkAll_singleton {check : α → Except ε Unit} (item : α) :
    checkAll check [item] = check item := by
  rw [checkAll]
  cases check item <;> rfl

/-- Checking several items checks the first and then the rest. -/
theorem checkAll_cons_cons {check : α → Except ε Unit} (item next : α) (rest : List α) :
    checkAll check (item :: next :: rest) =
      check item >>= fun _ => checkAll check (next :: rest) := by
  rw [checkAll]
  cases check item <;> rfl

/-- A list of checks ends well iff each check does. -/
theorem checkAll_eq_ok {check : α → Except ε Unit} {items : List α} :
    checkAll check items = .ok () ↔ ∀ item ∈ items, check item = .ok () := by
  induction items with
  | nil => simp [checkAll]
  | cons item rest ih =>
      rw [checkAll, List.forall_mem_cons]
      cases outcome : check item with
      | error rejection => simp
      | ok _ => simp [ih]

/-- The faults of checking several items are those of the items. -/
theorem faultsIn_checkAll {check : α → Except ε Unit} {P : ε → Prop} {items : List α}
    (each : ∀ item ∈ items, FaultsIn P (check item)) : FaultsIn P (checkAll check items) := by
  induction items with
  | nil => exact faultsIn_ok _
  | cons item rest ih =>
      obtain ⟨here, behind⟩ := List.forall_mem_cons.mp each
      rw [checkAll]
      cases outcome : check item with
      | error fault => exact faultsIn_error (here fault outcome)
      | ok _ => exact ih behind

/-- A check passes exactly where a condition holds, and otherwise fails for the reason given. -/
structure Decides (outcome : Except ε Unit) (holds : Prop) (reason : ε → Prop) : Prop where
  ok : outcome = .ok () ↔ holds
  error : ∀ fault, outcome = .error fault ↔ ¬ holds ∧ reason fault

/-- A check decides whatever is equivalent to what it decides. -/
theorem Decides.congr {outcome : Except ε Unit} {holds other : Prop} {reason otherReason : ε → Prop}
    (decides : Decides outcome holds reason) (same : holds ↔ other)
    (sameReason : ¬ holds → ∀ fault, reason fault ↔ otherReason fault) :
    Decides outcome other otherReason := by
  refine ⟨decides.ok.trans same, fun fault => ?_⟩
  rw [decides.error, ← same]
  exact and_congr_right fun broken => sameReason broken fault

/-- A check that a condition decides. -/
theorem decides_ite {kept : Prop} [Decidable kept] {fault : ε} :
    Decides (if kept then .ok () else .error fault) kept (· = fault) := by
  by_cases met : kept
  · exact ⟨by simp [met], by simp [met]⟩
  · exact ⟨by simp [met], by simp [met, eq_comm]⟩

/-- A check that passes where a builder ends well. -/
theorem decides_map {outcome : Except ε α} {holds : Prop} {reason : ε → Prop}
    (ok : (∃ value, outcome = .ok value) ↔ holds)
    (error : ¬ holds → ∀ fault, outcome = .error fault ↔ reason fault) :
    Decides (outcome.map fun _ => ()) holds reason := by
  cases outcome with
  | ok value =>
      have holding : holds := ok.mp ⟨value, rfl⟩
      exact ⟨by simp [Except.map, holding], by simp [Except.map, holding]⟩
  | error other =>
      have broken : ¬ holds := fun holding => by
        obtain ⟨value, found⟩ := ok.mpr holding
        cases found
      refine ⟨by simp [Except.map, broken], fun fault => ?_⟩
      rw [map_eq_error, error broken]
      exact (and_iff_right broken).symm

/-- A list of checks, each of which decides where those before it pass: the first condition that
does not hold gives the reason. -/
theorem checkAll_decides {check : α → Except ε Unit} {Good : α → Prop}
    {Reason : α → ε → Prop} {items : List α}
    (each : ∀ before item, (∃ after, items = before ++ item :: after) →
      (∀ earlier ∈ before, Good earlier) → Decides (check item) (Good item) (Reason item)) :
    Decides (checkAll check items) (∀ item ∈ items, Good item) fun fault => ∃ before item,
      IsFirst (fun item => ¬ Good item) items before item ∧ Reason item fault := by
  induction items with
  | nil => exact ⟨by simp [checkAll], by simp [checkAll]⟩
  | cons item rest ih =>
      have here := each [] item ⟨rest, rfl⟩ (by simp)
      by_cases good : Good item
      · have behind := ih fun before other ⟨after, split⟩ kept =>
          each (item :: before) other ⟨after, by rw [split, List.cons_append]⟩
            (List.forall_mem_cons.mpr ⟨good, kept⟩)
        have later {before : List α} {other : α} :
            IsFirst (fun item => ¬ Good item) (item :: rest) before other ↔
              ∃ earlier, before = item :: earlier ∧
                IsFirst (fun item => ¬ Good item) rest earlier other :=
          isFirst_cons_of_not (not_not.mpr good)
        rw [checkAll, here.ok.mpr good]
        constructor
        · rw [behind.ok, List.forall_mem_cons]
          simp only [good, true_and]
        · intro fault
          rw [behind.error, List.forall_mem_cons]
          simp only [good, true_and]
          refine and_congr_right fun _ => ⟨?_, ?_⟩
          · rintro ⟨before, other, first, reason⟩
            exact ⟨item :: before, other, later.mpr ⟨before, rfl, first⟩, reason⟩
          · rintro ⟨_, other, first, reason⟩
            obtain ⟨before, -, firstBehind⟩ := later.mp first
            exact ⟨before, other, firstBehind, reason⟩
      · have first {before : List α} {other : α} :
            IsFirst (fun item => ¬ Good item) (item :: rest) before other ↔
              before = [] ∧ other = item :=
          isFirst_cons_of_holds good
        cases outcome : check item with
        | ok _ => exact absurd (here.ok.mp outcome) good
        | error other =>
            rw [checkAll, outcome]
            constructor
            · simp [good]
            · intro fault
              have reported := here.error fault
              rw [outcome] at reported
              rw [reported, List.forall_mem_cons]
              simp only [good, false_and, not_false_eq_true, true_and]
              constructor
              · intro own
                exact ⟨[], item, first.mpr ⟨rfl, rfl⟩, own⟩
              · rintro ⟨before, other, isFirst, own⟩
                obtain ⟨-, rfl⟩ := first.mp isFirst
                exact own

end Outcome

namespace BuildFault

open Outcome

variable {α : Type} {outcome : Except Rejection α}

/-- A lifted outcome is good iff the outcome is. -/
theorem lift_eq_ok {result : α} : lift outcome = .ok result ↔ outcome = .ok result := by
  cases outcome with
  | error rejection => simp [lift]
  | ok value => simp [lift]

/-- A lifted outcome fails with the rejection of the outcome. -/
theorem lift_eq_error {fault : BuildFault} :
    lift outcome = .error fault ↔
      ∃ rejection, outcome = .error rejection ∧ fault = .rejected rejection := by
  cases outcome with
  | error rejection => simp [lift, eq_comm]
  | ok value => simp [lift]

/-- The report is to blame. -/
def IsRejection (fault : BuildFault) : Prop := ∃ rejection, fault = .rejected rejection

/-- Nothing but rejections is lifted. -/
theorem faultsIn_lift (outcome : Except Rejection α) : FaultsIn IsRejection (lift outcome) := by
  cases outcome with
  | ok value => exact faultsIn_ok value
  | error rejection => exact faultsIn_error ⟨rejection, rfl⟩

/-- Checks may be lifted one by one. -/
theorem lift_checkAll {check : α → Except Rejection Unit} (items : List α) :
    lift (checkAll check items) = checkAll (fun item => lift (check item)) items := by
  induction items with
  | nil => rfl
  | cons item rest ih =>
      rw [checkAll, checkAll]
      cases check item with
      | error rejection => rfl
      | ok passed => exact ih

/-- A check that rejects decides the same among all faults. -/
theorem lift_decides {check : Except Rejection Unit} {holds : Prop} {reason : Rejection → Prop}
    (decides : Decides check holds reason) :
    Decides (lift check) holds fun fault =>
      ∃ rejection, reason rejection ∧ fault = .rejected rejection := by
  refine ⟨lift_eq_ok.trans decides.ok, fun fault => ?_⟩
  rw [lift_eq_error]
  constructor
  · rintro ⟨rejection, refused, rfl⟩
    obtain ⟨broken, reason⟩ := (decides.error rejection).mp refused
    exact ⟨broken, rejection, reason, rfl⟩
  · rintro ⟨broken, rejection, reason, rfl⟩
    exact ⟨rejection, (decides.error rejection).mpr ⟨broken, reason⟩, rfl⟩

end BuildFault

end Reporting
