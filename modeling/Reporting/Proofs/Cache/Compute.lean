import Reporting.Proofs.Cache.Safety

/-!
# Computing what is missing

A use that computes a result asks its computation where anything hangs on it (`CacheState.Asks`);
otherwise the computation is left alone. In every state that a run can reach it is asked where the
key has no entry, a stale one, or one that holds null, and nowhere else. A result other than null
that was given out once is given out again without asking, as long as it is neither replaced nor
cleared and its entry stays and stays fresh; null is computed anew (`CacheState.compute_decides`).
-/

namespace Reporting

variable {τ : Type}

/-- The operation neither stores under the key nor clears the cache. -/
def CacheMoment.Spares (key : String) (moment : CacheMoment τ) : Prop :=
  moment.event ≠ .cleared ∧ ∀ value, moment.event ≠ .stored key value

/-- Moments that spare a key leave what was stored last under it. -/
theorem lastStored_append_of_spares {key : String} {recent past : List (CacheMoment τ)}
    (spares : ∀ moment ∈ recent, moment.Spares key) :
    lastStored key (recent ++ past) = lastStored key past := by
  induction recent with
  | nil => rfl
  | cons moment recent ih =>
      obtain ⟨⟨uncleared, unstored⟩, others⟩ := List.forall_mem_cons.mp spares
      rw [List.cons_append, ← ih others]
      cases event : moment.event with
      | looked other found => exact lastStored_cons_looked event
      | passed => exact lastStored_cons_passed event
      | cleared => exact absurd event uncleared
      | stored other value =>
          apply lastStored_cons_of_ne event
          rintro rfl
          exact unstored value event

namespace Cache

variable {cache : Cache τ} {entry : CacheEntry τ}

/-- An entry is found under its key, where keys are told apart. -/
theorem find?_of_mem (nodup : cache.keys.Nodup) (member : entry ∈ cache.entries) :
    cache.find? entry.key = some entry := by
  cases found : cache.find? entry.key with
  | none => exact absurd (mem_keys.mpr ⟨entry, member, rfl⟩) (find?_eq_none found)
  | some other =>
      obtain ⟨inside, same⟩ := mem_of_find? found
      rw [List.inj_on_of_nodup_map nodup inside member same]

/-- What is found of an entry is its value, or nothing where it is stale. -/
theorem get_of_mem [Clock τ] (nodup : cache.keys.Nodup) (member : entry ∈ cache.entries)
    (limits : CacheLimits τ) (now : τ) :
    (cache.get limits now entry.key).1 =
      if limits.timeToLive < now - entry.storedAt then none else some entry.value := by
  rw [get, find?_of_mem nodup member]
  by_cases stale : limits.timeToLive < now - entry.storedAt
  · simp only [isStale, stale, decide_true, ↓reduceIte]
  · simp only [isStale, stale, decide_false, Bool.false_eq_true, ↓reduceIte]

end Cache

/-- The cache that a walk ends with keeps the relation to the past. -/
theorem Walk.kept [Clock τ] {limits : CacheLimits τ} {time last : τ} {cache lastCache : Cache τ}
    {moments : List (CacheMoment τ)} (room : 1 ≤ limits.capacity)
    (walk : Walk limits time cache moments last lastCache) {past : List (CacheMoment τ)}
    (after : cacheAfter past = cache) (kept : cache.Kept limits past) :
    cacheAfter (moments.reverse ++ past) = lastCache ∧
      lastCache.Kept limits (moments.reverse ++ past) := by
  induction walk generalizing past with
  | nil => exact ⟨after, kept⟩
  | @cons time cache first rest _ _ follows _ ih =>
      subst after
      rw [List.reverse_cons, List.append_assoc]
      exact ih rfl (follows.safe room kept).kept

namespace CacheState

variable [Clock τ]

/-- What comes of computing under the key hangs on the computation: there are two that it tells
apart. -/
def Asks (state : CacheState τ) (key : String) : Prop :=
  ∃ first second : List (CacheUse τ) × Except String Value,
    state.perform (.compute key first.1 first.2) ≠ state.perform (.compute key second.1 second.2)

/-- There is an entry under the key whose age can be told and is not above the time to live. -/
def HoldsFresh (state : CacheState τ) (key : String) : Prop :=
  ∃ entry ∈ state.cache.entries, entry.key = key ∧
    Clock.mixes state.now entry.storedAt = true ∧
      ¬ state.limits.timeToLive < state.now - entry.storedAt

variable {state : CacheState τ} {key : String}

/-- A computation is asked where the look-up is not refused and finds nothing but null. -/
theorem asks_iff :
    state.Asks key ↔ state.refusesGet key = false ∧ isHit (state.get key).1 = false := by
  constructor
  · rintro ⟨first, second, differ⟩
    cases reached : state.refusesGet key with
    | true =>
        rw [perform, perform, reached] at differ
        exact absurd rfl differ
    | false =>
        cases hit : isHit (state.get key).1 with
        | true =>
            rw [perform_compute _ _ _ _ reached, perform_compute _ _ _ _ reached, hit] at differ
            exact absurd rfl differ
        | false => exact ⟨rfl, rfl⟩
  · rintro ⟨reached, missed⟩
    refine ⟨([], .ok .null), ([], .error ""), ?_⟩
    rw [perform_compute _ _ _ _ reached, perform_compute _ _ _ _ reached, missed,
      if_neg Bool.false_ne_true, if_neg Bool.false_ne_true, computeMissing_eq, computeMissing_eq,
      run]
    intro same
    cases congrArg Prod.fst same

/-- A computation that is asked goes on from what the look-up leaves. -/
theorem perform_of_asks (asked : state.Asks key) (during : List (CacheUse τ))
    (outcome : Except String Value) :
    state.perform (.compute key during outcome) =
      (state.get key).2.computeMissing key during outcome := by
  obtain ⟨reached, missed⟩ := asks_iff.mp asked
  rw [perform_compute _ _ _ _ reached, missed, if_neg Bool.false_ne_true]

/-- Of what is found, null alone is no hit. -/
theorem isHit_some {value : Value} : isHit (some value) = false ↔ value = .null := by
  cases value <;> simp [isHit]

/-- Under a key that is not kept nothing is found. -/
theorem get_of_not_mem (missing : key ∉ state.cache.keys) : (state.get key).1 = none := by
  obtain ⟨-, got⟩ | ⟨entry, member, same, -⟩ :=
    state.cache.get_cases state.limits state.now key
  · exact congrArg Prod.fst got
  · exact absurd (Cache.mem_keys.mpr ⟨entry, member, same⟩) missing

/-- The clock is not asked about a key that is not kept. -/
theorem refusesGet_of_not_mem (missing : key ∉ state.cache.keys) :
    state.refusesGet key = false := by
  rw [refusesGet, Cache.tellsAge]
  cases found : state.cache.find? key with
  | none => rfl
  | some entry =>
      obtain ⟨member, same⟩ := Cache.mem_of_find? found
      exact absurd (Cache.mem_keys.mpr ⟨entry, member, same⟩) missing

/-- In terms of the entry under a key: it is asked for where its age can be told and it is stale or
holds null. -/
theorem asks_iff_of_mem (nodup : state.cache.keys.Nodup) {entry : CacheEntry τ}
    (member : entry ∈ state.cache.entries) :
    state.Asks entry.key ↔ Clock.mixes state.now entry.storedAt = true ∧
      (state.limits.timeToLive < state.now - entry.storedAt ∨ entry.value = .null) := by
  have told : state.refusesGet entry.key = !Clock.mixes state.now entry.storedAt := by
    rw [refusesGet, Cache.tellsAge, Cache.find?_of_mem nodup member]
    rfl
  have found : (state.get entry.key).1 = _ :=
    Cache.get_of_mem nodup member state.limits state.now
  rw [asks_iff, told, found, Bool.not_eq_false']
  by_cases stale : state.limits.timeToLive < state.now - entry.storedAt
  · simp only [stale, ↓reduceIte, true_or, and_true, and_iff_left_iff_imp]
    exact fun _ => rfl
  · simp only [stale, ↓reduceIte, false_or, isHit_some]

/-- A value is asked for anew iff none is kept, or the one that is kept can be compared in time and is
stale or null. -/
theorem asks_iff_of_nodup (nodup : state.cache.keys.Nodup) :
    state.Asks key ↔ key ∉ state.cache.keys ∨ ∃ entry ∈ state.cache.entries, entry.key = key ∧
      Clock.mixes state.now entry.storedAt = true ∧
        (state.limits.timeToLive < state.now - entry.storedAt ∨ entry.value = .null) := by
  by_cases member : key ∈ state.cache.keys
  · obtain ⟨entry, inside, rfl⟩ := Cache.mem_keys.mp member
    rw [asks_iff_of_mem nodup inside]
    constructor
    · exact fun asked => Or.inr ⟨entry, inside, rfl, asked⟩
    · rintro (missing | ⟨other, insideToo, same, asked⟩)
      · exact absurd member missing
      · rwa [List.inj_on_of_nodup_map nodup insideToo inside same] at asked
  · rw [asks_iff, refusesGet_of_not_mem member, get_of_not_mem member]
    simp only [member, not_false_eq_true, true_or, true_and, iff_true]
    rfl

/-- Where the entry under a key is fresh and its value is not null, the value is given out and the
computation left alone. -/
theorem perform_of_not_asks (nodup : state.cache.keys.Nodup) {entry : CacheEntry τ}
    (member : entry ∈ state.cache.entries) (told : Clock.mixes state.now entry.storedAt = true)
    (fresh : ¬ state.limits.timeToLive < state.now - entry.storedAt) (some : entry.value ≠ .null)
    (during : List (CacheUse τ)) (outcome : Except String Value) :
    (state.perform (.compute entry.key during outcome)).1 = .computed (.ok entry.value) [] := by
  have reached : state.refusesGet entry.key = false := by
    rw [refusesGet, Cache.tellsAge, Cache.find?_of_mem nodup member]
    exact congrArg not told
  have found : (state.get entry.key).1 = .some entry.value := by
    have got := Cache.get_of_mem nodup member state.limits state.now
    rwa [if_neg fresh] at got
  have hit : isHit (.some entry.value) = true := by
    rw [← Bool.not_eq_false, isHit_some]
    exact some
  rw [perform_compute _ _ _ _ reached, found, hit, if_pos rfl]
  rfl

/-- What a computing use gives out was stored last under its key. -/
theorem lastStored_of_computed {past : List (CacheMoment τ)}
    (kept : state.cache.Kept state.limits past) {during : List (CacheUse τ)}
    {outcome : Except String Value} {value : Value} {answers : List CacheAnswer}
    (gave : (state.perform (.compute key during outcome)).1 = .computed (.ok value) answers) :
    ∃ time, lastStored key ((state.momentsOf (.compute key during outcome)).reverse ++ past) =
      some (value, time) := by
  cases reached : state.refusesGet key with
  | true =>
      rw [perform, reached] at gave
      cases gave
  | false =>
      rw [perform_compute _ _ _ _ reached] at gave
      rw [momentsOf, reached, if_neg Bool.false_ne_true]
      by_cases hit : isHit (state.get key).1 = true
      · rw [if_pos hit] at gave ⊢
        have found := eq_some_of_isHit hit
        cases gave
        obtain ⟨-, got⟩ | ⟨entry, member, same, ⟨-, got⟩ | ⟨-, got⟩⟩ :=
          state.cache.get_cases state.limits state.now key
        · rw [get, got] at found
          cases found
        · rw [get, got] at found
          cases found
        · subst same
          refine ⟨entry.storedAt, ?_⟩
          rw [List.reverse_singleton, List.singleton_append, lastStored_cons_looked rfl,
            kept.latest entry member, get, got]
          rfl
      · rw [if_neg hit] at gave ⊢
        rw [computeMissing_eq] at gave
        rw [momentsOfMissing.eq_def]
        split at gave
        · cases gave
        next completed =>
          rw [if_neg completed]
          cases outcome with
          | error message => cases gave
          | ok value =>
              cases gave
              refine ⟨(run ((state.get key).2.log "Cache miss") during).state.now, ?_⟩
              rw [List.reverse_cons, List.reverse_append, List.reverse_singleton,
                List.singleton_append, List.cons_append, List.cons_append]
              exact lastStored_cons_stored rfl

/-- What a computing use gave out is what a fresh entry holds later on, unless it was replaced or
cleared. -/
theorem value_of_computed {past : List (CacheMoment τ)} (room : 1 ≤ state.limits.capacity)
    (after : cacheAfter past = state.cache) (kept : state.cache.Kept state.limits past)
    {during between : List (CacheUse τ)} {outcome : Except String Value} {value : Value}
    {answers : List CacheAnswer}
    (gave : (state.perform (.compute key during outcome)).1 = .computed (.ok value) answers)
    (spared : ∀ moment ∈ (state.perform (.compute key during outcome)).2.moments between,
      moment.Spares key) :
    let later := ((state.perform (.compute key during outcome)).2.run between).state
    later.cache.keys.Nodup ∧
      ∀ entry ∈ later.cache.entries, entry.key = key → entry.value = value := by
  intro later
  obtain ⟨time, last⟩ := lastStored_of_computed kept gave
  obtain ⟨sameLimits, walk⟩ := state.walk_momentsOf (.compute key during outcome)
  obtain ⟨-, walkLater⟩ :=
    (state.perform (.compute key during outcome)).2.walk_moments between
  rw [sameLimits] at walkLater
  obtain ⟨middle, keptMiddle⟩ := walk.kept room after kept
  obtain ⟨-, keptLater⟩ := walkLater.kept room middle keptMiddle
  refine ⟨keptLater.nodup, ?_⟩
  rintro entry member rfl
  have latest := keptLater.latest entry member
  rw [lastStored_append_of_spares, last] at latest
  · exact (congrArg Prod.fst (Option.some.inj latest)).symm
  · intro moment inside
    exact spared moment (List.mem_reverse.mp inside)

/-- In every state that a run reaches a computation is asked where the key has no entry, a stale
one, or one that holds null, and then it goes on from what the look-up leaves. What a computing use
gave out, and what was neither replaced nor cleared and is kept fresh, is asked for again just where
it is null, and else given out again. -/
theorem compute_decides (limits : CacheLimits τ) (room : 1 ≤ limits.capacity) (start : τ)
    (uses : List (CacheUse τ)) (key : String) :
    let state := (({ limits := limits, now := start } : CacheState τ).run uses).state
    (state.Asks key ↔ key ∉ state.cache.keys ∨ ∃ entry ∈ state.cache.entries, entry.key = key ∧
      Clock.mixes state.now entry.storedAt = true ∧
        (limits.timeToLive < state.now - entry.storedAt ∨ entry.value = .null)) ∧
    (state.Asks key → ∀ during outcome, state.perform (.compute key during outcome) =
      (state.get key).2.computeMissing key during outcome) ∧
    ∀ during outcome value answers between,
      let after := (state.perform (.compute key during outcome)).2
      let later := (after.run between).state
      (state.perform (.compute key during outcome)).1 = .computed (.ok value) answers →
      (∀ moment ∈ after.moments between, moment.Spares key) → later.HoldsFresh key →
        (later.Asks key ↔ value = .null) ∧
          (value ≠ .null → ∀ another anotherOutcome,
            (later.perform (.compute key another anotherOutcome)).1 =
              .computed (.ok value) []) := by
  intro state
  obtain ⟨sameLimits, walk⟩ :=
    ({ limits := limits, now := start } : CacheState τ).walk_moments uses
  have begun : cacheAfter ([] : List (CacheMoment τ)) = {} := rfl
  obtain ⟨after, kept⟩ := walk.kept room begun .empty
  refine ⟨?_, perform_of_asks, ?_⟩
  · rw [asks_iff_of_nodup kept.nodup, sameLimits]
  · intro during outcome value answers between _ later gave spared held
    obtain ⟨entry, member, same, told, fresh⟩ := held
    obtain ⟨nodup, holds⟩ :=
      value_of_computed (sameLimits ▸ room) after (sameLimits ▸ kept) gave spared
    have held : entry.value = value := holds entry member same
    subst same held
    refine ⟨?_, fun some => perform_of_not_asks nodup member told fresh some⟩
    rw [asks_iff_of_mem nodup member]
    exact ⟨fun asked => asked.2.resolve_left fresh, fun null => ⟨told, Or.inr null⟩⟩

/-- A result is computed when the one stored before has expired, and given out again for as long as
it is fresh. -/
theorem compute_decides_of_expired :
    let limits : CacheLimits Int := ⟨45, 2⟩
    let uses : List (CacheUse Int) := [.put "a" (.text "x"), .advance 46]
    let state := (({ limits := limits, now := 1000 } : CacheState Int).run uses).state
    let after := (state.perform (.compute "a" [] (.ok (.list [])))).2
    let later := (after.run [.put "b" (.text "y"), .advance 45]).state
    1 ≤ limits.capacity ∧ state.Asks "a" ∧ ∀ during outcome,
      (later.perform (.compute "a" during outcome)).1 = .computed (.ok (.list [])) [] := by
  intro limits uses state after later
  have room : 1 ≤ limits.capacity := by decide
  obtain ⟨asked, -, kept⟩ := compute_decides limits room 1000 uses "a"
  have reached : state = ⟨limits, 1046, ⟨[⟨"a", .text "x", 1000⟩]⟩, []⟩ := by
    simp only [state, uses, run, refuses, perform]
    rfl
  have gave : state.perform (.compute "a" [] (.ok (.list []))) =
      (.computed (.ok (.list [])) [],
        ⟨limits, 1046, ⟨[⟨"a", .list [], 1046⟩]⟩, [⟨.debug, "Cache miss"⟩]⟩) := by
    rw [reached]
    simp only [perform, computeMissing, run]
    rfl
  have moved : later = ⟨limits, 1091, ⟨[⟨"a", .list [], 1046⟩, ⟨"b", .text "y", 1046⟩]⟩, []⟩ := by
    simp only [later, after, gave, run, refuses, perform]
    rfl
  have spared : ∀ moment ∈ after.moments [.put "b" (.text "y"), .advance 45],
      moment.Spares "a" := by
    simp [after, gave, moments, momentsOf, refuses, Clock.mixes, CacheMoment.Spares]
  refine ⟨room, asked.mpr (Or.inr ?_), ?_⟩
  · change ∃ entry ∈ state.cache.entries, entry.key = "a" ∧
      Clock.mixes state.now entry.storedAt = true ∧
        (limits.timeToLive < state.now - entry.storedAt ∨ entry.value = .null)
    rw [reached]
    exact ⟨_, List.mem_singleton_self _, rfl, rfl, Or.inl (by decide)⟩
  · have fresh : later.HoldsFresh "a" := by
      rw [moved]
      exact ⟨_, List.mem_cons_self, rfl, rfl, by decide⟩
    exact (kept _ _ _ _ _ (congrArg Prod.fst gave) spared fresh).2 Value.noConfusion

/-- Null is computed anew although its entry is fresh. -/
theorem compute_of_null :
    let state : CacheState Int := { limits := ⟨45, 2⟩, now := 1000 }
    let later := (state.run [.compute "k" [] (.ok .null)]).state
    later.HoldsFresh "k" ∧ later.Asks "k" ∧
      (later.perform (.compute "k" [] (.ok (.text "second")))).1 =
        .computed (.ok (.text "second")) [] := by
  intro state later
  have stored : later = ⟨⟨45, 2⟩, 1000, ⟨[⟨"k", .null, 1000⟩]⟩, []⟩ := by
    simp only [later, state, run, refuses, perform, computeMissing]
    rfl
  rw [stored]
  refine ⟨⟨_, List.mem_singleton_self _, rfl, rfl, by decide⟩, asks_iff.mpr ⟨rfl, rfl⟩, ?_⟩
  simp only [perform, computeMissing, run]
  rfl

end CacheState

end Reporting
