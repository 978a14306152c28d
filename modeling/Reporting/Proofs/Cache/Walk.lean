import Mathlib.Data.List.Basic
import Reporting.Proofs.Cache.History

/-!
# Runs as walks

Each moment of a run follows from the one before by a single operation on the cache
(`CacheMoment.Follows`), and the last one leaves the cache and the clock as the run does
(`CacheState.walk_moments`). This holds through computations that use the cache themselves, so the
walk is stated for a use, for what follows a miss, and for a run at once.
-/

namespace Reporting

variable {τ : Type}

namespace CacheState

/-- Logging evictions changes the log alone. -/
theorem put_foldl (evicted : List String) (state : CacheState τ) :
    (evicted.foldl (fun state key => state.log ("Evicted cached result " ++ key)) state).limits =
        state.limits ∧
      (evicted.foldl (fun state key => state.log ("Evicted cached result " ++ key)) state).now =
        state.now ∧
      (evicted.foldl (fun state key => state.log ("Evicted cached result " ++ key)) state).cache =
        state.cache := by
  induction evicted generalizing state with
  | nil => exact ⟨rfl, rfl, rfl⟩
  | cons key rest ih => exact ih (state.log ("Evicted cached result " ++ key))

/-- Storing a value keeps the limits. -/
@[simp] theorem put_limits (state : CacheState τ) (key : String) (value : Value) :
    (state.put key value).limits = state.limits := (put_foldl _ _).1

/-- Storing a value takes no time. -/
@[simp] theorem put_now (state : CacheState τ) (key : String) (value : Value) :
    (state.put key value).now = state.now := (put_foldl _ _).2.1

/-- Storing a value in a state stores it in its cache. -/
@[simp] theorem put_cache (state : CacheState τ) (key : String) (value : Value) :
    (state.put key value).cache = (state.cache.put state.limits state.now key value).2 :=
  (put_foldl _ _).2.2

end CacheState

variable [Clock τ]

/-- What can come next after a time with a cache: one operation on the cache, or time passes. -/
inductive CacheMoment.Follows (limits : CacheLimits τ) (time : τ) (cache : Cache τ) :
    CacheMoment τ → Prop
  | looked (key : String) :
    Follows limits time cache
      ⟨.looked key (cache.get limits time key).1, time, (cache.get limits time key).2⟩
  | stored (key : String) (value : Value) :
    Follows limits time cache ⟨.stored key value, time, (cache.put limits time key value).2⟩
  | cleared : Follows limits time cache ⟨.cleared, time, {}⟩
  | passed (span : τ) : Follows limits time cache ⟨.passed, time + span, cache⟩

/-- Moments that follow one another from a time with a cache to another. -/
inductive Walk (limits : CacheLimits τ) :
    τ → Cache τ → List (CacheMoment τ) → τ → Cache τ → Prop
  | nil {time : τ} {cache : Cache τ} : Walk limits time cache [] time cache
  | cons {time : τ} {cache : Cache τ} {moment : CacheMoment τ} {rest : List (CacheMoment τ)}
      {lastTime : τ} {lastCache : Cache τ} (first : moment.Follows limits time cache)
      (others : Walk limits moment.time moment.cache rest lastTime lastCache) :
      Walk limits time cache (moment :: rest) lastTime lastCache

namespace Walk

variable {limits : CacheLimits τ} {time middle last : τ} {cache middleCache lastCache : Cache τ}

/-- Two walks, one behind the other, are a walk. -/
theorem append {before after : List (CacheMoment τ)}
    (first : Walk limits time cache before middle middleCache)
    (second : Walk limits middle middleCache after last lastCache) :
    Walk limits time cache (before ++ after) last lastCache := by
  induction first with
  | nil => exact second
  | cons follows _ ih => exact .cons follows (ih second)

/-- A moment that follows is a walk of its own. -/
theorem single {moment : CacheMoment τ} (follows : moment.Follows limits time cache) :
    Walk limits time cache [moment] moment.time moment.cache := .cons follows .nil

/-- The last moment shows where a walk ends. -/
theorem exists_last {moments : List (CacheMoment τ)} (some : moments ≠ [])
    (walk : Walk limits time cache moments last lastCache) :
    ∃ moment ∈ moments, moment.cache = lastCache := by
  induction walk with
  | nil => exact absurd rfl some
  | @cons _ _ moment rest _ _ follows others ih =>
      by_cases more : rest = []
      · subst more
        cases others
        exact ⟨moment, List.mem_cons_self, rfl⟩
      · obtain ⟨later, member, same⟩ := ih more
        exact ⟨later, List.mem_cons_of_mem moment member, same⟩

end Walk

namespace CacheState

/-- Computing is looking up, and computing what is missing where nothing but null is found. -/
theorem perform_compute (state : CacheState τ) (key : String) (during : List (CacheUse τ))
    (outcome : Except String Value) (reached : state.refusesGet key = false) :
    state.perform (.compute key during outcome) =
      if isHit (state.get key).1 then
        (.computed (.ok ((state.get key).1.getD .null)) [], (state.get key).2.log "Cache hit")
      else (state.get key).2.computeMissing key during outcome := by
  rw [perform, reached, if_neg Bool.false_ne_true]
  split
  next value after found =>
    rw [found]
    rfl
  next after found =>
    rw [found]
    rfl

/-- What the computation of a missing result ends with. -/
theorem computeMissing_eq (state : CacheState τ) (key : String) (during : List (CacheUse τ))
    (outcome : Except String Value) :
    state.computeMissing key during outcome =
      if ((state.log "Cache miss").run during).halted then
        (.computed (.error .refused) ((state.log "Cache miss").run during).answers,
          ((state.log "Cache miss").run during).state)
      else
        match outcome with
        | .error message =>
          (.computed (.error (.failed message)) ((state.log "Cache miss").run during).answers,
            ((state.log "Cache miss").run during).state)
        | .ok value =>
          (.computed (.ok value) ((state.log "Cache miss").run during).answers,
            ((state.log "Cache miss").run during).state.put key value) := by
  unfold computeMissing
  cases (state.log "Cache miss").run during with
  | mk answers after halted => cases halted <;> cases outcome <;> rfl

/-- Storing a value is a walk of one moment. -/
theorem walk_put (state : CacheState τ) (key : String) (value : Value) :
    Walk state.limits state.now state.cache
      [⟨.stored key value, state.now, (state.put key value).cache⟩] (state.put key value).now
      (state.put key value).cache := by
  rw [put_now, put_cache]
  exact .single (.stored key value)

mutual

/-- The moments of a use lead to the cache and the time after it. -/
theorem walk_momentsOf (state : CacheState τ) : (use : CacheUse τ) →
    (state.perform use).2.limits = state.limits ∧
      Walk state.limits state.now state.cache (state.momentsOf use) (state.perform use).2.now
        (state.perform use).2.cache
  | .get key => by
      rw [momentsOf, perform]
      exact ⟨rfl, .single (.looked key)⟩
  | .put key value => by
      rw [momentsOf, perform]
      exact ⟨put_limits state key value, state.walk_put key value⟩
  | .clear => by
      rw [momentsOf, perform]
      exact ⟨rfl, .single .cleared⟩
  | .advance span => by
      rw [momentsOf, perform]
      exact ⟨rfl, .single (.passed span)⟩
  | .compute key during outcome => by
      rw [momentsOf]
      cases reached : state.refusesGet key with
      | true =>
          rw [perform, reached]
          exact ⟨rfl, .nil⟩
      | false =>
          rw [perform_compute state key during outcome reached, if_neg Bool.false_ne_true]
          split
          next hit => exact ⟨rfl, .single (.looked key)⟩
          next missing =>
            obtain ⟨limits, walk⟩ := walk_momentsOfMissing (state.get key).2 key during outcome
            exact ⟨limits, .cons (.looked key) walk⟩

/-- A computation, with all that is done during it, is a walk. -/
theorem walk_momentsOfMissing (state : CacheState τ) (key : String) (during : List (CacheUse τ))
    (outcome : Except String Value) :
    (state.computeMissing key during outcome).2.limits = state.limits ∧
      Walk state.limits state.now state.cache (state.momentsOfMissing key during outcome)
        (state.computeMissing key during outcome).2.now
        (state.computeMissing key during outcome).2.cache := by
  obtain ⟨limits, walk⟩ := walk_moments (state.log "Cache miss") during
  rw [computeMissing_eq, momentsOfMissing.eq_def]
  by_cases halted : ((state.log "Cache miss").run during).halted = true
  · rw [if_pos halted, if_pos halted, List.append_nil]
    exact ⟨limits, walk⟩
  · rw [if_neg halted, if_neg halted]
    cases outcome with
    | error message =>
        rw [List.append_nil]
        exact ⟨limits, walk⟩
    | ok value =>
        refine ⟨(put_limits _ key value).trans limits, walk.append ?_⟩
        have stored := ((state.log "Cache miss").run during).state.walk_put key value
        rw [limits] at stored
        exact stored

/-- The moments of a run lead to the cache and the time at its end. -/
theorem walk_moments (state : CacheState τ) : (uses : List (CacheUse τ)) →
    (state.run uses).state.limits = state.limits ∧
      Walk state.limits state.now state.cache (state.moments uses) (state.run uses).state.now
        (state.run uses).state.cache
  | [] => by
      rw [moments, run]
      exact ⟨rfl, .nil⟩
  | use :: rest => by
      rw [moments, run]
      cases refused : state.refuses use with
      | true => exact ⟨rfl, .nil⟩
      | false =>
          obtain ⟨limits, walk⟩ := walk_momentsOf state use
          obtain ⟨others, later⟩ := walk_moments { (perform state use).2 with pending := [] } rest
          refine ⟨others.trans limits, walk.append ?_⟩
          rw [← limits]
          exact later

end

end CacheState

end Reporting
