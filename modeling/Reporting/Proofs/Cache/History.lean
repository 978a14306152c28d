import Reporting.Cache.Run

/-!
# The history of a cache

Whatever the uses of a cache are, a run comes down to simple operations: results are looked up and
stored, the cache is cleared, and time passes. `CacheState.moments` lists these operations, those
within computations included, each with its time and the cache after it. A past is such a list with
the latest moment first; `lastStored` and `UsedBefore` read off it what was stored last under a key
and which of two keys was used last.
-/

namespace Reporting

inductive CacheEvent where
  | looked (key : String) (found : Option Value)
  | stored (key : String) (value : Value)
  | cleared
  | passed

/-- A simple operation, its time, and the cache after it. -/
structure CacheMoment (τ : Type) where
  event : CacheEvent
  time : τ
  cache : Cache τ

/-- The key that is used, if any: one that is stored, or one under which a fresh result is found. -/
def CacheEvent.usedKey? : CacheEvent → Option String
  | .stored key _ | .looked key (some _) => some key
  | .looked _ none | .cleared | .passed => none

section Past

variable {τ : Type}

/-- The value stored last under a key since the cache was cleared last, with its time. -/
def lastStored (key : String) : (past : List (CacheMoment τ)) → Option (Value × τ)
  | [] => none
  | moment :: past =>
    match moment.event with
    | .cleared => none
    | .stored other value =>
      if other = key then some (value, moment.time) else lastStored key past
    | .looked _ _ | .passed => lastStored key past

/-- The keys that were used, one for each use, the latest first. -/
def usedKeys (past : List (CacheMoment τ)) : List String :=
  past.filterMap (·.event.usedKey?)

/-- The first key was used, and the second one after the last time. -/
def UsedBefore (past : List (CacheMoment τ)) (first second : String) : Prop :=
  first ∈ usedKeys past ∧ (usedKeys past).idxOf second < (usedKeys past).idxOf first

/-- The cache that a past has led to. -/
def cacheAfter (past : List (CacheMoment τ)) : Cache τ := (past.head?.map (·.cache)).getD {}

end Past

namespace CacheState

variable {τ : Type} [Clock τ]

mutual

/-- The simple operations of a use. -/
def momentsOf (state : CacheState τ) : CacheUse τ → List (CacheMoment τ)
  | .get key => [⟨.looked key (state.get key).1, state.now, (state.get key).2.cache⟩]
  | .put key value => [⟨.stored key value, state.now, (state.put key value).cache⟩]
  | .clear => [⟨.cleared, state.now, {}⟩]
  | .advance span => [⟨.passed, state.now + span, state.cache⟩]
  | .compute key during outcome =>
    if state.refusesGet key then []
    else
      ⟨.looked key (state.get key).1, state.now, (state.get key).2.cache⟩ ::
        if isHit (state.get key).1 then []
        else momentsOfMissing (state.get key).2 key during outcome

/-- The simple operations of computing a missing result: those of the computation, then storing
what it gives. -/
def momentsOfMissing (state : CacheState τ) (key : String) (during : List (CacheUse τ))
    (outcome : Except String Value) : List (CacheMoment τ) :=
  moments (state.log "Cache miss") during ++
    if (run (state.log "Cache miss") during).halted then []
    else
      match outcome with
      | .error _ => []
      | .ok value =>
        [⟨.stored key value, (run (state.log "Cache miss") during).state.now,
          ((run (state.log "Cache miss") during).state.put key value).cache⟩]

/-- The simple operations of a run. -/
def moments (state : CacheState τ) : List (CacheUse τ) → List (CacheMoment τ)
  | [] => []
  | use :: rest =>
    if state.refuses use then []
    else momentsOf state use ++ moments { (perform state use).2 with pending := [] } rest

end

end CacheState

end Reporting
