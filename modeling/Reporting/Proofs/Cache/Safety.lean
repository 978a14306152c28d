import Reporting.Proofs.Cache.Entries
import Reporting.Proofs.Cache.Exchanges

/-!
# Safety of a cache

`Cache.Kept` relates the entries of a cache to its past: no key stands twice, the capacity is kept,
the keys stand in the order of their last use, and each entry carries what was stored last under its
key and when. Every operation preserves it (`CacheMoment.Follows.safe`). It follows that nothing
gives out a result that is stale or replaced, and that nothing evicts a result except for a new key
that finds the cache full, and then the one used least recently (`Walk.safe`,
`CacheState.run_safe`).
-/

namespace Reporting

variable {τ : Type}

section Past

variable {past : List (CacheMoment τ)} {moment : CacheMoment τ} {key first second : String}

/-- A moment that uses no key leaves the order of use. -/
theorem usedKeys_cons_of_none (unused : moment.event.usedKey? = none) :
    usedKeys (moment :: past) = usedKeys past := List.filterMap_cons_none unused

/-- A moment that uses a key puts it in front of the order of use. -/
theorem usedKeys_cons_of_some (used : moment.event.usedKey? = some key) :
    usedKeys (moment :: past) = key :: usedKeys past := List.filterMap_cons_some used

/-- A moment that uses no key leaves which of two was used before the other. -/
theorem usedBefore_cons_of_none (unused : moment.event.usedKey? = none) :
    UsedBefore (moment :: past) first second ↔ UsedBefore past first second := by
  rw [UsedBefore, usedKeys_cons_of_none unused, UsedBefore]

/-- A further use of one key leaves the order of two others. -/
theorem UsedBefore.cons (used : moment.event.usedKey? = some key) (firstOther : first ≠ key)
    (secondOther : second ≠ key) (before : UsedBefore past first second) :
    UsedBefore (moment :: past) first second := by
  obtain ⟨member, order⟩ := before
  rw [UsedBefore, usedKeys_cons_of_some used, List.idxOf_cons_ne _ firstOther.symm,
    List.idxOf_cons_ne _ secondOther.symm]
  exact ⟨List.mem_cons_of_mem key member, Nat.succ_lt_succ order⟩

/-- A key that was used before comes before the one that is used now. -/
theorem usedBefore_of_used (used : moment.event.usedKey? = some key) (other : first ≠ key)
    (member : first ∈ usedKeys past) : UsedBefore (moment :: past) first key := by
  rw [UsedBefore, usedKeys_cons_of_some used, List.idxOf_cons_self,
    List.idxOf_cons_ne _ other.symm]
  exact ⟨List.mem_cons_of_mem key member, Nat.succ_pos _⟩

/-- A look-up leaves what was stored last. -/
theorem lastStored_cons_looked {found : Option Value}
    (event : moment.event = .looked second found) :
    lastStored key (moment :: past) = lastStored key past := by
  rw [lastStored, event]

theorem lastStored_cons_passed (event : moment.event = .passed) :
    lastStored key (moment :: past) = lastStored key past := by
  rw [lastStored, event]

/-- What is stored under a key is what was stored last under it. -/
theorem lastStored_cons_stored {value : Value} (event : moment.event = .stored key value) :
    lastStored key (moment :: past) = some (value, moment.time) := by
  rw [lastStored, event]
  exact if_pos rfl

/-- Storing under another key leaves what was stored last. -/
theorem lastStored_cons_of_ne {value : Value} (event : moment.event = .stored second value)
    (other : key ≠ second) : lastStored key (moment :: past) = lastStored key past := by
  rw [lastStored, event]
  exact if_neg other.symm

/-- A key under which something was stored has been used. -/
theorem mem_usedKeys_of_lastStored {value : Value} {time : τ}
    (stored : lastStored key past = some (value, time)) : key ∈ usedKeys past := by
  induction past with
  | nil => exact absurd stored (by simp [lastStored])
  | cons moment past ih =>
      have keep : ∀ other, other ∈ usedKeys past → other ∈ usedKeys (moment :: past) := by
        intro other member
        exact (List.Sublist.filterMap _ (List.sublist_cons_self moment past)).subset member
      cases event : moment.event with
      | looked other found => exact keep key (ih ((lastStored_cons_looked event).symm.trans stored))
      | passed => exact keep key (ih ((lastStored_cons_passed event).symm.trans stored))
      | cleared =>
          rw [lastStored, event] at stored
          exact absurd stored (by simp)
      | stored other value =>
          by_cases same : key = other
          · subst same
            have used : moment.event.usedKey? = some key := by rw [event]; rfl
            rw [usedKeys_cons_of_some used]
            exact List.mem_cons_self
          · exact keep key (ih ((lastStored_cons_of_ne event same).symm.trans stored))

end Past

/-- How the entries of a cache relate to its past. -/
structure Cache.Kept (limits : CacheLimits τ) (past : List (CacheMoment τ)) (cache : Cache τ) :
    Prop where
  size_le : cache.size ≤ limits.capacity
  nodup : cache.keys.Nodup
  ordered : cache.keys.Pairwise (UsedBefore past)
  latest : ∀ entry ∈ cache.entries, lastStored entry.key past = some (entry.value, entry.storedAt)

/-- The entries under other keys that storing under a key has evicted. -/
def Cache.evictedBy (key : String) (before after : Cache τ) : List (CacheEntry τ) :=
  before.entries.filter fun entry => entry.key ≠ key ∧ entry.key ∉ after.keys

/-- What is safe after a past. The cache is kept as it should be. A result that is found is the one
stored last under its key, and its age is not above the time to live. Storing evicts nothing, or one
entry, the one used before all others, for a new key that finds the cache full. -/
structure CacheMoment.Safe [Clock τ] (limits : CacheLimits τ) (past : List (CacheMoment τ))
    (moment : CacheMoment τ) : Prop where
  kept : moment.cache.Kept limits (moment :: past)
  found : ∀ key value, moment.event = .looked key (some value) →
    ∃ storedAt, lastStored key past = some (value, storedAt) ∧
      ¬ limits.timeToLive < moment.time - storedAt
  evicted : ∀ key value, moment.event = .stored key value →
    (cacheAfter past).evictedBy key moment.cache = [] ∨
      key ∉ (cacheAfter past).keys ∧ (cacheAfter past).size = limits.capacity ∧
        ∃ entry, (cacheAfter past).evictedBy key moment.cache = [entry] ∧
          ∀ other ∈ (cacheAfter past).keys, other ≠ entry.key → UsedBefore past entry.key other

namespace Cache

variable {key : String} {value : Value} {time : τ} {before : Cache τ}

/-- Storing under a key that is kept evicts nothing. -/
theorem evictedBy_erase :
    before.evictedBy key ⟨(before.erase key).entries ++ [⟨key, value, time⟩]⟩ = [] := by
  rw [evictedBy, List.filter_eq_nil_iff]
  intro entry member evicted
  obtain ⟨other, gone⟩ := of_decide_eq_true evicted
  apply gone
  rw [keys, List.map_append]
  exact List.mem_append_left _ (mem_keys.mpr ⟨entry, mem_erase.mpr ⟨member, other⟩, rfl⟩)

/-- Storing a new key in place of the first entry evicts that entry alone. -/
theorem evictedBy_first {first : CacheEntry τ} {rest : List (CacheEntry τ)}
    (entries : before.entries = first :: rest) (new : key ≠ first.key)
    (once : first.key ∉ keys ⟨rest⟩) :
    before.evictedBy key ⟨rest ++ [⟨key, value, time⟩]⟩ = [first] := by
  have after : keys ⟨rest ++ [⟨key, value, time⟩]⟩ = keys ⟨rest⟩ ++ [key] := List.map_append
  have evicted : first.key ∉ keys ⟨rest⟩ ++ [key] := by
    rw [List.mem_append, List.mem_singleton, not_or]
    exact ⟨once, new.symm⟩
  have stays :
      rest.filter (fun entry => entry.key ≠ key ∧ entry.key ∉ keys ⟨rest⟩ ++ [key]) = [] := by
    rw [List.filter_eq_nil_iff]
    intro entry member gone
    apply (of_decide_eq_true gone).2
    exact List.mem_append_left _ (mem_keys.mpr ⟨entry, member, rfl⟩)
  rw [evictedBy, entries, after, List.filter_cons, stays]
  exact if_pos (decide_eq_true ⟨new.symm, evicted⟩)

end Cache

namespace Cache.Kept

variable {limits : CacheLimits τ} {past : List (CacheMoment τ)} {moment : CacheMoment τ}
  {cache rest : Cache τ} {key : String}

/-- The empty cache keeps what any past asks of it. -/
theorem empty : Kept limits past {} where
  size_le := Nat.zero_le _
  nodup := List.nodup_nil
  ordered := .nil
  latest := fun _ member => absurd member List.not_mem_nil

/-- Every key that is kept has been used. -/
theorem mem_usedKeys (kept : cache.Kept limits past) (member : key ∈ cache.keys) :
    key ∈ usedKeys past := by
  obtain ⟨entry, inside, same⟩ := mem_keys.mp member
  subst same
  exact mem_usedKeys_of_lastStored (kept.latest entry inside)

/-- A cache that loses entries and changes nothing else still keeps what the past asks. -/
theorem sublist (kept : cache.Kept limits past) (fewer : rest.entries.Sublist cache.entries) :
    rest.Kept limits past where
  size_le := Nat.le_trans fewer.length_le kept.size_le
  nodup := kept.nodup.sublist (fewer.map _)
  ordered := kept.ordered.sublist (fewer.map _)
  latest := fun entry member => kept.latest entry (fewer.subset member)

/-- What uses no key and stores nothing keeps the relation. -/
theorem unused (kept : cache.Kept limits past) (unused : moment.event.usedKey? = none)
    (same : ∀ key, lastStored key (moment :: past) = lastStored key past) :
    cache.Kept limits (moment :: past) where
  size_le := kept.size_le
  nodup := kept.nodup
  ordered := kept.ordered.imp (usedBefore_cons_of_none unused).mpr
  latest := fun entry member => (same entry.key).trans (kept.latest entry member)

/-- The entry of the key that is used now belongs at the end. -/
theorem used {entry : CacheEntry τ} (kept : rest.Kept limits past)
    (other : entry.key ∉ rest.keys) (used : moment.event.usedKey? = some entry.key)
    (room : rest.size + 1 ≤ limits.capacity)
    (others : ∀ key ≠ entry.key, lastStored key (moment :: past) = lastStored key past)
    (last : lastStored entry.key (moment :: past) = some (entry.value, entry.storedAt)) :
    Kept limits (moment :: past) ⟨rest.entries ++ [entry]⟩ := by
  have keys : Cache.keys ⟨rest.entries ++ [entry]⟩ = rest.keys ++ [entry.key] :=
    List.map_append
  have differs : ∀ key ∈ rest.keys, key ≠ entry.key := by
    intro key member same
    exact other (same ▸ member)
  constructor
  · rw [size, List.length_append, List.length_singleton]
    exact room
  · rw [keys, List.nodup_append]
    refine ⟨kept.nodup, List.nodup_singleton _, ?_⟩
    intro key member last inside
    rw [List.mem_singleton.mp inside]
    exact differs key member
  · rw [keys, List.pairwise_append]
    refine ⟨?_, List.pairwise_singleton _ _, ?_⟩
    · refine kept.ordered.imp_of_mem ?_
      intro first second firstMember secondMember before
      exact before.cons used (differs first firstMember) (differs second secondMember)
    · intro first member last inside
      rw [List.mem_singleton.mp inside]
      exact usedBefore_of_used used (differs first member) (kept.mem_usedKeys member)
  · intro kept' member
    rcases List.mem_append.mp member with inside | inside
    · have differ := differs kept'.key (mem_keys.mpr ⟨kept', inside, rfl⟩)
      exact (others kept'.key differ).trans (kept.latest kept' inside)
    · rw [List.mem_singleton.mp inside]
      exact last

/-- With room for it, an entry put behind the others keeps what the longer past asks. -/
theorem stored (kept : rest.Kept limits past) (other : key ∉ rest.keys)
    (room : rest.size < limits.capacity) {value : Value} {time : τ} :
    Kept limits (⟨.stored key value, time, cache⟩ :: past)
      ⟨rest.entries ++ [⟨key, value, time⟩]⟩ :=
  kept.used other rfl room (fun _ differs => lastStored_cons_of_ne rfl differs)
    (lastStored_cons_stored rfl)

end Cache.Kept

namespace CacheMoment

variable {limits : CacheLimits τ} {past : List (CacheMoment τ)} {moment : CacheMoment τ}
  {time : τ} {cache : Cache τ}

/-- Only the relation is at stake where nothing is found and nothing stored. -/
theorem safe_of_unused [Clock τ] (unused : moment.event.usedKey? = none)
    (kept : moment.cache.Kept limits (moment :: past)) : moment.Safe limits past where
  kept := kept
  found := by
    intro key value event
    rw [event] at unused
    exact absurd unused (Option.some_ne_none key)
  evicted := by
    intro key value event
    rw [event] at unused
    exact absurd unused (Option.some_ne_none key)

variable [Clock τ]

/-- A look-up is a safe moment. -/
theorem safe_looked (key : String) (kept : cache.Kept limits past) :
    (CacheMoment.mk (.looked key (cache.get limits time key).1) time
      (cache.get limits time key).2).Safe limits past := by
  obtain ⟨-, got⟩ | ⟨entry, member, same, ⟨-, got⟩ | ⟨fresh, got⟩⟩ :=
    cache.get_cases limits time key
  · rw [got]
    exact safe_of_unused rfl (kept.unused rfl fun _ => lastStored_cons_looked rfl)
  · rw [got]
    have fewer : (cache.erase key).Kept limits past := kept.sublist List.filter_sublist
    exact safe_of_unused rfl (fewer.unused rfl fun _ => lastStored_cons_looked rfl)
  · rw [got]
    subst same
    have fewer : (cache.erase entry.key).Kept limits past := kept.sublist List.filter_sublist
    have smaller := Cache.size_erase_lt (Cache.mem_keys.mpr ⟨entry, member, rfl⟩)
    have last := kept.latest entry member
    constructor
    · refine fewer.used Cache.not_mem_keys_erase rfl (Nat.le_trans smaller kept.size_le) ?_ ?_
      · exact fun _ _ => lastStored_cons_looked rfl
      · exact (lastStored_cons_looked rfl).trans last
    · intro key value event
      injection event with sameKey sameValue
      subst sameKey
      rw [← Option.some.inj sameValue]
      exact ⟨entry.storedAt, last, fresh⟩
    · intro key value event
      cases event

/-- Storing in a full cache under a new key evicts the first entry. -/
theorem safe_stored_of_full {first : CacheEntry τ} {rest : List (CacheEntry τ)} {key : String}
    {value : Value} (kept : (cacheAfter past).Kept limits past)
    (entries : (cacheAfter past).entries = first :: rest)
    (new : key ∉ (cacheAfter past).keys) (full : (cacheAfter past).size = limits.capacity) :
    (CacheMoment.mk (.stored key value) time ⟨rest ++ [⟨key, value, time⟩]⟩).Safe limits past := by
  have keys : (cacheAfter past).keys = first.key :: Cache.keys ⟨rest⟩ := by
    rw [Cache.keys, entries]
    rfl
  have size : (cacheAfter past).size = rest.length + 1 := by
    rw [Cache.size, entries]
    rfl
  have nodup := kept.nodup
  have ordered := kept.ordered
  rw [keys, List.nodup_cons] at nodup
  rw [keys, List.pairwise_cons] at ordered
  rw [keys, List.mem_cons, not_or] at new
  have fewer : Cache.Kept limits past ⟨rest⟩ :=
    kept.sublist (entries ▸ List.sublist_cons_self first rest)
  have room : Cache.size ⟨rest⟩ < limits.capacity := by
    rw [← full, size]
    exact Nat.lt_succ_self rest.length
  refine ⟨fewer.stored new.2 room, (by rintro _ _ ⟨⟩), ?_⟩
  intro stored value event
  injection event with same
  subst same
  refine Or.inr ⟨?_, full, first, Cache.evictedBy_first entries new.1 nodup.1, ?_⟩
  · rw [keys, List.mem_cons, not_or]
    exact new
  · intro other member differs
    rw [keys] at member
    exact ordered.1 other (List.mem_of_ne_of_mem differs member)

/-- Storing evicts nothing where there is room. -/
theorem safe_stored_of_room {key : String} {value : Value}
    (kept : (cacheAfter past).Kept limits past)
    (room : ((cacheAfter past).erase key).size < limits.capacity) :
    (CacheMoment.mk (.stored key value) time
      ⟨((cacheAfter past).erase key).entries ++ [⟨key, value, time⟩]⟩).Safe limits past := by
  have fewer : ((cacheAfter past).erase key).Kept limits past := kept.sublist List.filter_sublist
  refine ⟨fewer.stored Cache.not_mem_keys_erase room, (by rintro _ _ ⟨⟩), ?_⟩
  intro stored value event
  injection event with same
  subst same
  exact Or.inl Cache.evictedBy_erase

/-- Storing a value is a safe moment, whether the cache is full or not. -/
theorem safe_stored (room : 1 ≤ limits.capacity) (kept : (cacheAfter past).Kept limits past)
    (key : String) (value : Value) :
    (CacheMoment.mk (.stored key value) time
      ((cacheAfter past).put limits time key value).2).Safe limits past := by
  have put := congrArg Cache.mk (Cache.entries_put room kept.size_le time key value)
  change ((cacheAfter past).put limits time key value).2 = _ at put
  rw [put]
  by_cases full : key ∉ (cacheAfter past).keys ∧ (cacheAfter past).size = limits.capacity
  · obtain ⟨first, rest, entries⟩ := Cache.exists_cons_of_full room full.2
    rw [if_pos full, entries, List.tail_cons]
    exact safe_stored_of_full kept entries full.1 full.2
  · rw [if_neg full]
    exact safe_stored_of_room kept (Cache.size_erase_lt_capacity kept.size_le full)

/-- One operation is safe and preserves the relation of the cache to its past. -/
theorem Follows.safe (room : 1 ≤ limits.capacity) (kept : (cacheAfter past).Kept limits past)
    (follows : moment.Follows limits time (cacheAfter past)) : moment.Safe limits past := by
  cases follows with
  | looked key => exact safe_looked key kept
  | stored key value => exact safe_stored room kept key value
  | cleared => exact safe_of_unused rfl .empty
  | passed span =>
      exact safe_of_unused rfl (kept.unused rfl fun _ => lastStored_cons_passed rfl)

end CacheMoment

/-- Every moment of a walk is safe after those before it. -/
theorem Walk.safe [Clock τ] {limits : CacheLimits τ} {time last : τ} {cache lastCache : Cache τ}
    {moments : List (CacheMoment τ)} (room : 1 ≤ limits.capacity)
    (walk : Walk limits time cache moments last lastCache) {past : List (CacheMoment τ)}
    (after : cacheAfter past = cache) (kept : cache.Kept limits past)
    {earlier later : List (CacheMoment τ)} {moment : CacheMoment τ}
    (split : moments = earlier ++ moment :: later) :
    moment.Safe limits (earlier.reverse ++ past) := by
  -- Each step moves its moment into the past, whose relation to the cache `Follows.safe` preserves.
  induction walk generalizing past earlier with
  | nil => exact absurd split (by simp)
  | @cons time cache first rest _ _ follows _ ih =>
      subst after
      have safe := follows.safe room kept
      cases earlier with
      | nil =>
          injection split with same
          exact same ▸ safe
      | cons head between =>
          injection split with same split
          subst same
          rw [List.reverse_cons, List.append_assoc]
          exact ih rfl safe.kept split

/-- A run on an exact clock performs and answers every use. Its moments lead from the empty cache to
the last one, every answer tells of one of them, and each is safe after those before it. -/
theorem CacheState.run_safe [Clock τ] (limits : CacheLimits τ) (room : 1 ≤ limits.capacity)
    (exact : ∀ first second : τ, Clock.mixes first second = true) (start : τ)
    (uses : List (CacheUse τ)) :
    let state : CacheState τ := { limits := limits, now := start }
    (state.run uses).halted = false ∧ (state.run uses).answers.length = uses.length ∧
      Walk limits start {} (state.moments uses) (state.run uses).state.now
        (state.run uses).state.cache ∧
      (∀ exchange ∈ exchanges uses (state.run uses).answers,
        ∃ moment ∈ state.moments uses, moment.ToldBy exchange) ∧
      ∀ earlier moment later, state.moments uses = earlier ++ moment :: later →
        moment.Safe limits earlier.reverse := by
  intro state
  obtain ⟨-, walk⟩ := state.walk_moments uses
  refine ⟨state.halted_of_exact exact uses, state.length_answers_of_exact exact uses, walk,
    exists_told exact state uses, ?_⟩
  intro earlier moment later split
  have safe : moment.Safe limits (earlier.reverse ++ []) := walk.safe room rfl .empty split
  rw [List.append_nil] at safe
  exact safe

/-- Whole numbers are an exact clock. -/
instance : Clock Int where
  decidableLT := inferInstance

/-- Two results kept for 45 seconds: a computation stores another one and outlasts them. -/
theorem CacheState.run_safe_of_two :
    let limits : CacheLimits Int := ⟨45, 2⟩
    let uses : List (CacheUse Int) := [.put "a" (.text "x"), .put "b" .null, .get "a",
      .compute "b" [.put "c" .null, .advance 46, .get "a"] (.ok (.text "y")), .get "b"]
    let state : CacheState Int := { limits := limits, now := 1000 }
    1 ≤ limits.capacity ∧ (∀ first second : Int, Clock.mixes first second = true) ∧
      (state.moments uses).map (·.cache.keys) = [["a"], ["a", "b"], ["b", "a"], ["a", "b"],
        ["b", "c"], ["b", "c"], ["b", "c"], ["c", "b"], ["c", "b"]] ∧
      ∀ earlier moment later, state.moments uses = earlier ++ moment :: later →
        moment.Safe limits earlier.reverse := by
  intro limits uses state
  have room : 1 ≤ limits.capacity := by decide
  have exact : ∀ first second : Int, Clock.mixes first second = true := fun _ _ => rfl
  refine ⟨room, exact, ?_, ?_⟩
  · simp only [state, uses, limits, moments, momentsOf, momentsOfMissing, perform, run,
      computeMissing]
    decide +kernel
  obtain ⟨-, -, -, -, safe⟩ := run_safe limits room exact 1000 uses
  exact safe

end Reporting
