import Mathlib.Algebra.Order.Group.Int
import Mathlib.Algebra.Order.Group.Unbundled.Basic
import Mathlib.Data.Finset.Card
import Mathlib.Data.Finset.Dedup
import Mathlib.Data.List.Chain
import Reporting.Proofs.Cache.Compute

/-!
# What a cache retains

A result is owed while it is fresh and fewer other keys than the capacity were used since its own
(`Owed`). A look-up drops nothing but a stale result, and storing evicts the key that was used
before all others, so that by then, with the new key, as many others were used since as the capacity
allows. Hence no operation loses a result that is still owed after it (`Cache.Retains.follows`), and
in every run on a clock that never goes back, computations that use the cache themselves included,
each owed result is there and is found (`CacheState.run_retains`).
-/

namespace Reporting

/-- Times are exact numbers: any two have a sum and a difference, and a later time is at least as
far from another one as an earlier time is. -/
structure Clock.Exact (τ : Type) [Clock τ] : Prop where
  mixes : ∀ first second : τ, Clock.mixes first second = true
  age_mono : ∀ {span early late origin : τ}, ¬ late < early → span < early - origin →
    span < late - origin

/-- Numbers of any kind as times: integers, fractions or reals. -/
abbrev Clock.ofNumbers (τ : Type) [AddCommGroup τ] [LinearOrder τ] : Clock τ where
  decidableLT := inferInstance

/-- Numbers of an ordered group tell exact times. -/
theorem Clock.exact_ofNumbers (τ : Type) [AddCommGroup τ] [LinearOrder τ] [IsOrderedAddMonoid τ] :
    @Clock.Exact τ (Clock.ofNumbers τ) := by
  let _ := Clock.ofNumbers τ
  refine ⟨fun _ _ => rfl, ?_⟩
  intro span early late origin forward older
  have later : early ≤ late := not_lt.mp forward
  exact lt_of_lt_of_le older (sub_le_sub_right later origin)

/-- Integers tell exact times. -/
theorem Clock.exact_int : Clock.Exact Int := Clock.exact_ofNumbers Int

variable {τ : Type}

section Past

variable {past : List (CacheMoment τ)} {moment : CacheMoment τ} {key first second : String}

/-- The time that a past has led to from a start. -/
def timeAfter (start : τ) (past : List (CacheMoment τ)) : τ :=
  (past.head?.map (·.time)).getD start

/-- The other keys that were used since a key was used last. -/
def usedSince (key : String) (past : List (CacheMoment τ)) : Finset String :=
  ((usedKeys past).takeWhile (· ≠ key)).toFinset

/-- A key that comes first before another stands in front of it. -/
theorem mem_takeWhile_of_idxOf_lt {keys : List String}
    (before : keys.idxOf second < keys.idxOf first) : second ∈ keys.takeWhile (· ≠ first) := by
  induction keys with
  | nil => exact absurd before (Nat.lt_irrefl _)
  | cons head keys ih =>
      have other : head ≠ first := by
        rintro rfl
        rw [List.idxOf_cons_self] at before
        exact absurd before (Nat.not_lt_zero _)
      rw [List.takeWhile_cons, if_pos (decide_eq_true other), List.mem_cons]
      by_cases same : second = head
      · exact Or.inl same
      · rw [List.idxOf_cons_ne _ (Ne.symm same), List.idxOf_cons_ne _ other] at before
        exact Or.inr (ih (Nat.lt_of_succ_lt_succ before))

/-- A key used after another one was used since the last use of that one. -/
theorem UsedBefore.mem_usedSince (before : UsedBefore past first second) :
    second ∈ usedSince first past := List.mem_toFinset.mpr (mem_takeWhile_of_idxOf_lt before.2)

/-- A moment that uses no key adds none to those used since. -/
theorem usedSince_cons_of_none (unused : moment.event.usedKey? = none) :
    usedSince key (moment :: past) = usedSince key past := by
  rw [usedSince, usedKeys_cons_of_none unused, usedSince]

/-- A moment that uses another key adds it to those used since. -/
theorem usedSince_cons_of_ne (used : moment.event.usedKey? = some second) (other : second ≠ key) :
    usedSince key (moment :: past) = insert second (usedSince key past) := by
  rw [usedSince, usedKeys_cons_of_some used, List.takeWhile_cons, if_pos (decide_eq_true other),
    List.toFinset_cons, usedSince]

/-- A moment that does not use a key leaves it no fewer other keys that were used since. -/
theorem card_usedSince_le (spared : moment.event.usedKey? ≠ some key) :
    (usedSince key past).card ≤ (usedSince key (moment :: past)).card := by
  cases used : moment.event.usedKey? with
  | none => rw [usedSince_cons_of_none used]
  | some second =>
      have other : second ≠ key := fun same => spared (used.trans (congrArg some same))
      rw [usedSince_cons_of_ne used other]
      exact Finset.card_le_card (Finset.subset_insert _ _)

/-- When a new key finds the cache full, all keys but the first were used since that one, and the
new one is one more. -/
theorem Cache.Kept.capacity_le_card {limits : CacheLimits τ} {cache : Cache τ}
    {entry : CacheEntry τ} {rest : List (CacheEntry τ)} (kept : cache.Kept limits past)
    (entries : cache.entries = entry :: rest) (full : cache.size = limits.capacity)
    (new : key ∉ cache.keys) (used : moment.event.usedKey? = some key) :
    limits.capacity ≤ (usedSince entry.key (moment :: past)).card := by
  have keys : cache.keys = entry.key :: rest.map (·.key) := by
    rw [Cache.keys, entries, List.map_cons]
  have ordered := kept.ordered
  have nodup := kept.nodup
  rw [keys, List.pairwise_cons] at ordered
  rw [keys, List.nodup_cons] at nodup
  rw [keys, List.mem_cons, not_or] at new
  have distinct : (key :: rest.map (·.key)).Nodup := List.nodup_cons.mpr ⟨new.2, nodup.2⟩
  have size : (key :: rest.map (·.key)).length = limits.capacity := by
    rw [← full, Cache.size, entries, List.length_cons, List.length_map, List.length_cons]
  rw [← size, ← List.toFinset_card_of_nodup distinct, usedSince_cons_of_ne used new.1,
    List.toFinset_cons]
  refine Finset.card_le_card (Finset.insert_subset_insert key fun other member => ?_)
  exact (ordered.1 other (List.mem_toFinset.mp member)).mem_usedSince

end Past

variable [Clock τ]

/-- The clock never goes back: no moment comes before the one that it follows. -/
def Forward (start : τ) (moments : List (CacheMoment τ)) : Prop :=
  (start :: moments.map (·.time)).IsChain fun before after => ¬ after < before

/-- A result that is to be found under a key: it was stored last, its age is not above the time to
live, and fewer other keys than the capacity were used since. -/
structure Owed (limits : CacheLimits τ) (past : List (CacheMoment τ)) (now : τ) (key : String)
    (value : Value) : Prop where
  fresh : ∃ storedAt, lastStored key past = some (value, storedAt) ∧
    ¬ limits.timeToLive < now - storedAt
  recent : (usedSince key past).card < limits.capacity

/-- All owed results are in the cache. -/
def Cache.Retains (limits : CacheLimits τ) (past : List (CacheMoment τ)) (now : τ)
    (cache : Cache τ) : Prop :=
  ∀ key value, Owed limits past now key value → key ∈ cache.keys

variable {limits : CacheLimits τ} {past : List (CacheMoment τ)} {moment : CacheMoment τ}
  {time : τ} {key : String} {value : Value} {cache : Cache τ}

/-- What is owed after a moment that neither used nor stored it was owed before. -/
theorem Owed.before (exact : Clock.Exact τ)
    (owed : Owed limits (moment :: past) moment.time key value)
    (forward : ¬ moment.time < time) (spared : moment.event.usedKey? ≠ some key)
    (same : lastStored key (moment :: past) = lastStored key past) :
    Owed limits past time key value where
  fresh := by
    obtain ⟨storedAt, last, fresh⟩ := owed.fresh
    exact ⟨storedAt, same.symm.trans last, fun stale => fresh (exact.age_mono forward stale)⟩
  recent := Nat.lt_of_le_of_lt (card_usedSince_le spared) owed.recent

/-- What is owed and in the cache is found. -/
theorem Owed.get_eq (owed : Owed limits past time key value) (kept : cache.Kept limits past)
    (member : key ∈ cache.keys) : (cache.get limits time key).1 = some value := by
  obtain ⟨entry, inside, rfl⟩ := Cache.mem_keys.mp member
  obtain ⟨storedAt, last, fresh⟩ := owed.fresh
  rw [kept.latest entry inside, Option.some.injEq, Prod.mk.injEq] at last
  obtain ⟨rfl, rfl⟩ := last
  rw [Cache.get_of_mem kept.nodup inside, if_neg fresh]

namespace Cache

omit [Clock τ] in
theorem mem_keys_concat {entry : CacheEntry τ} :
    key ∈ keys ⟨cache.entries ++ [entry]⟩ ↔ key ∈ cache.keys ∨ key = entry.key := by
  rw [keys, List.map_append, List.mem_append, List.map_singleton, List.mem_singleton, keys]

omit [Clock τ] in
/-- Erasing a key keeps every other key. -/
theorem mem_keys_erase {other : String} (differs : key ≠ other) (member : key ∈ cache.keys) :
    key ∈ (cache.erase other).keys := by
  rw [keys_erase, List.mem_filter]
  exact ⟨member, bne_iff_ne.mpr differs⟩

namespace Retains

/-- A look-up drops nothing that is owed, since a stale result is not. -/
theorem looked (exact : Clock.Exact τ) (forward : ¬ time < time)
    (kept : cache.Kept limits past) (retains : cache.Retains limits past time) (key : String) :
    (cache.get limits time key).2.Retains limits
      (⟨.looked key (cache.get limits time key).1, time, (cache.get limits time key).2⟩ :: past)
      time := by
  intro asked value owed
  have same := @lastStored_cons_looked τ past
    ⟨.looked key (cache.get limits time key).1, time, (cache.get limits time key).2⟩ asked key _ rfl
  obtain ⟨-, got⟩ | ⟨entry, inside, rfl, ⟨stale, got⟩ | ⟨-, got⟩⟩ :=
    cache.get_cases limits time key
  · rw [got] at owed ⊢
    exact retains asked value (owed.before exact forward nofun same)
  · rw [got] at owed ⊢
    have member := retains asked value (owed.before exact forward nofun same)
    refine mem_keys_erase ?_ member
    rintro rfl
    obtain ⟨storedAt, last, fresh⟩ := owed.fresh
    rw [lastStored_cons_looked rfl, kept.latest entry inside, Option.some.injEq,
      Prod.mk.injEq] at last
    exact fresh (last.2 ▸ stale)
  · rw [got] at owed ⊢
    by_cases own : asked = entry.key
    · exact mem_keys_concat.mpr (Or.inr own)
    · have spared : some entry.key ≠ some asked := fun used => own (Option.some.inj used).symm
      have member := retains asked value (owed.before exact forward spared same)
      exact mem_keys_concat.mpr (Or.inl (mem_keys_erase own member))

/-- Storing evicts nothing that is owed, since for the key that goes the others used since are as
many as the capacity. -/
theorem stored (exact : Clock.Exact τ) (forward : ¬ time < time) (room : 1 ≤ limits.capacity)
    (kept : cache.Kept limits past) (retains : cache.Retains limits past time) (key : String)
    (value : Value) :
    (cache.put limits time key value).2.Retains limits
      (⟨.stored key value, time, (cache.put limits time key value).2⟩ :: past) time := by
  intro asked found owed
  have put := congrArg mk (entries_put room kept.size_le time key value)
  change (cache.put limits time key value).2 = _ at put
  rw [put] at owed ⊢
  rw [mem_keys_concat]
  by_cases own : asked = key
  · exact Or.inr own
  · have spared : some key ≠ some asked := fun used => own (Option.some.inj used).symm
    have member := retains asked found
      (owed.before exact forward spared (lastStored_cons_of_ne rfl own))
    refine Or.inl ?_
    by_cases full : key ∉ cache.keys ∧ cache.size = limits.capacity
    · obtain ⟨first, rest, entries⟩ := exists_cons_of_full room full.2
      rw [if_pos full, entries, List.tail_cons]
      rw [keys, entries, List.map_cons, List.mem_cons] at member
      refine member.resolve_left ?_
      rintro rfl
      exact absurd owed.recent (Nat.not_lt.mpr (kept.capacity_le_card entries full.2 full.1 rfl))
    · rw [if_neg full]
      exact mem_keys_erase own member

/-- No operation loses what is still owed after it. -/
theorem follows (exact : Clock.Exact τ) (room : 1 ≤ limits.capacity)
    (follows : moment.Follows limits time cache) (forward : ¬ moment.time < time)
    (kept : cache.Kept limits past) (retains : cache.Retains limits past time) :
    moment.cache.Retains limits (moment :: past) moment.time := by
  cases follows with
  | looked key => exact retains.looked exact forward kept key
  | stored key value => exact retains.stored exact forward room kept key value
  | cleared =>
      intro key value owed
      obtain ⟨storedAt, last, -⟩ := owed.fresh
      cases last
  | passed span =>
      intro key value owed
      exact retains key value (owed.before exact forward nofun (lastStored_cons_passed rfl))

end Retains

end Cache

namespace Walk

variable {last : τ} {lastCache : Cache τ}

/-- A walk over two parts goes over the first and then over the second. -/
theorem exists_between {before after : List (CacheMoment τ)}
    (walk : Walk limits time cache (before ++ after) last lastCache) :
    ∃ middle middleCache, Walk limits time cache before middle middleCache ∧
      Walk limits middle middleCache after last lastCache := by
  induction before generalizing time cache with
  | nil => exact ⟨time, cache, .nil, walk⟩
  | cons moment before ih =>
      cases walk with
      | cons follows others =>
          obtain ⟨middle, middleCache, first, second⟩ := ih others
          exact ⟨middle, middleCache, .cons follows first, second⟩

/-- The last moment shows the time at which a walk ends. -/
theorem timeAfter_eq {start : τ} {moments : List (CacheMoment τ)}
    (walk : Walk limits time cache moments last lastCache) (after : timeAfter start past = time) :
    timeAfter start (moments.reverse ++ past) = last := by
  induction walk generalizing past with
  | nil => exact after
  | @cons _ _ moment rest _ _ _ _ ih =>
      rw [List.reverse_cons, List.append_assoc]
      exact ih rfl

/-- Where a walk ends, nothing that is owed is lost. -/
theorem retains {moments : List (CacheMoment τ)} (exact : Clock.Exact τ)
    (room : 1 ≤ limits.capacity) (walk : Walk limits time cache moments last lastCache)
    (forward : Forward time moments) (after : cacheAfter past = cache)
    (kept : cache.Kept limits past) (retained : cache.Retains limits past time) :
    lastCache.Retains limits (moments.reverse ++ past) last := by
  induction walk generalizing past with
  | nil => exact retained
  | @cons time cache moment rest _ _ follows _ ih =>
      subst after
      obtain ⟨here, later⟩ := List.isChain_cons_cons.mp forward
      rw [List.reverse_cons, List.append_assoc]
      exact ih later rfl (follows.safe room kept).kept
        (retained.follows exact room follows here kept)

/-- What is owed where a walk from an empty cache ends is in the cache and is found. -/
theorem finds {start : τ} {moments : List (CacheMoment τ)} (exact : Clock.Exact τ)
    (room : 1 ≤ limits.capacity) (walk : Walk limits start {} moments last lastCache)
    (forward : Forward start moments) (owed : Owed limits moments.reverse last key value) :
    key ∈ lastCache.keys ∧ (lastCache.get limits last key).1 = some value := by
  have nothing : Cache.Retains limits [] start {} := by
    intro key value owed
    obtain ⟨storedAt, last, -⟩ := owed.fresh
    cases last
  have begun : cacheAfter ([] : List (CacheMoment τ)) = {} := rfl
  have kept := (walk.kept room begun .empty).2
  have retains := walk.retains exact room forward begun .empty nothing
  rw [List.append_nil] at kept retains
  have member := retains key value owed
  exact ⟨member, owed.get_eq kept member⟩

end Walk

/-- Where time runs forward, it does so over every first part. -/
theorem Forward.before {start : τ} {earlier later : List (CacheMoment τ)}
    (forward : Forward start (earlier ++ later)) : Forward start earlier := by
  rw [Forward, List.map_append, ← List.cons_append] at forward
  exact forward.left_of_append

/-- In every run on a clock of exact numbers that never goes back, whatever is owed after some of
its moments is in the cache then and is found, and at the end of the run it is what a look-up
answers. -/
theorem CacheState.run_retains (limits : CacheLimits τ) (room : 1 ≤ limits.capacity)
    (exact : Clock.Exact τ) (start : τ) (uses : List (CacheUse τ)) :
    let state : CacheState τ := { limits := limits, now := start }
    Forward start (state.moments uses) →
      (∀ earlier later, state.moments uses = earlier ++ later →
        let now := timeAfter start earlier.reverse
        let cache := cacheAfter earlier.reverse
        ∀ key value, Owed limits earlier.reverse now key value →
          key ∈ cache.keys ∧ (cache.get limits now key).1 = some value) ∧
      (state.run uses).halted = false ∧
      let reached := (state.run uses).state
      ∀ key value, Owed limits (state.moments uses).reverse reached.now key value →
        key ∈ reached.cache.keys ∧ reached.refuses (.get key) = false ∧
          (reached.perform (.get key)).1 = .found (some value) := by
  intro state forward
  obtain ⟨sameLimits, walk⟩ := state.walk_moments uses
  refine ⟨?_, state.halted_of_exact exact.mixes uses, ?_⟩
  · intro earlier later split now cache key value owed
    rw [split] at walk forward
    obtain ⟨middle, middleCache, first, -⟩ := walk.exists_between
    have begun : cacheAfter ([] : List (CacheMoment τ)) = {} := rfl
    have begins : timeAfter start ([] : List (CacheMoment τ)) = start := rfl
    have time := first.timeAfter_eq begins
    have after := (first.kept room begun .empty).1
    rw [List.append_nil] at time after
    change Owed limits earlier.reverse (timeAfter start earlier.reverse) key value at owed
    rw [time] at owed
    rw [show now = middle from time, show cache = middleCache from after]
    exact first.finds exact room forward.before owed
  · intro reached key value owed
    obtain ⟨member, found⟩ := walk.finds exact room forward owed
    refine ⟨member, reached.refuses_of_exact exact.mixes _, ?_⟩
    rw [perform, get, sameLimits]
    exact congrArg _ found

/-- A result that is looked up within a computation outlasts what is stored there, and is found
until its time is over. -/
theorem CacheState.run_retains_of_looked :
    let limits : CacheLimits Int := ⟨45, 2⟩
    let uses : List (CacheUse Int) := [.put "a" (.text "x"), .put "b" .null, .get "a",
      .compute "c" [.put "d" .null, .get "a", .advance 45] (.ok (.text "y"))]
    let state : CacheState Int := { limits := limits, now := 1000 }
    1 ≤ limits.capacity ∧ Clock.Exact Int ∧ Forward 1000 (state.moments uses) ∧
      Owed limits (state.moments uses).reverse (state.run uses).state.now "a" (.text "x") ∧
      (state.run uses).state.cache.keys = ["a", "c"] ∧
      ((state.run uses).state.perform (.get "a")).1 = .found (some (.text "x")) := by
  intro limits uses state
  have room : 1 ≤ limits.capacity := by decide
  have forward : Forward 1000 (state.moments uses) := by
    simp only [state, uses, limits, moments, momentsOf, momentsOfMissing, perform, run,
      computeMissing, Forward]
    decide +kernel
  have owed : Owed limits (state.moments uses).reverse (state.run uses).state.now "a"
      (.text "x") := by
    refine ⟨⟨1000, ?_, ?_⟩, ?_⟩
    · simp only [state, uses, limits, moments, momentsOf, momentsOfMissing, perform, run,
        computeMissing]
      rfl
    · simp only [state, uses, limits, perform, run, computeMissing]
      decide +kernel
    · simp only [state, uses, limits, moments, momentsOf, momentsOfMissing, perform, run,
        computeMissing]
      decide +kernel
  obtain ⟨-, -, found⟩ := run_retains limits room Clock.exact_int 1000 uses forward
  refine ⟨room, Clock.exact_int, forward, owed, ?_, (found _ _ owed).2.2⟩
  simp only [state, uses, limits, perform, run, computeMissing]
  decide +kernel

end Reporting
