import Reporting.Cache.Limits
import Reporting.Proofs.Cache.Compute
import Reporting.Proofs.Number.Reading

/-!
# Computations that use the cache

Whatever a computation does to the cache while its result is missing, what it gives is given out.
If it gives a value, a look-up right after finds that value, and the capacity is kept; if it fails,
the call leaves what looking up and the operations of the computation leave, and nothing else
(`CacheState.compute_ends`). The records of the log make no difference to the cache
(`CacheState.unlogged_run`), so that the operations can be told apart from the call around them.
-/

namespace Reporting

variable {τ : Type}

namespace Cache

variable {limits : CacheLimits τ} {cache : Cache τ} {key : String}

/-- After a value is stored the cache keeps within its capacity. -/
theorem size_put_le (now : τ) (key : String) (value : Value) :
    (cache.put limits now key value).2.size ≤ limits.capacity := by
  change (List.drop (((cache.erase key).entries ++ [CacheEntry.mk key value now]).length -
    limits.capacity) ((cache.erase key).entries ++ [CacheEntry.mk key value now])).length ≤ _
  rw [List.length_drop]
  omega

/-- What was stored last is found, however much it has evicted. -/
theorem find?_put (room : 1 ≤ limits.capacity) (now : τ) (key : String) (value : Value) :
    (cache.put limits now key value).2.find? key = some ⟨key, value, now⟩ := by
  change (List.drop (((cache.erase key).entries ++ [CacheEntry.mk key value now]).length -
    limits.capacity) ((cache.erase key).entries ++ [CacheEntry.mk key value now])).find? _ = _
  have others : ∀ entry ∈ (cache.erase key).entries, ¬ (entry.key == key) = true := by
    intro entry member same
    exact (mem_erase.mp member).2 (beq_iff_eq.mp same)
  rw [List.length_append, List.length_singleton, List.drop_append_of_le_length (by omega),
    List.find?_append, List.find?_eq_none.mpr fun entry member => others entry
      (List.mem_of_mem_drop member), Option.none_or]
  exact List.find?_cons_of_pos (beq_self_eq_true key)

/-- A look-up never makes a cache larger. -/
theorem size_get_le [Clock τ] (limits : CacheLimits τ) (now : τ) (key : String) :
    (cache.get limits now key).2.size ≤ cache.size := by
  obtain ⟨-, got⟩ | ⟨entry, member, rfl, ⟨-, got⟩ | ⟨-, got⟩⟩ := cache.get_cases limits now key
  · exact Nat.le_of_eq (congrArg (fun answer => answer.2.size) got)
  · rw [got]
    exact size_erase_le
  · rw [got, size, List.length_append, List.length_singleton]
    exact size_erase_lt (mem_keys.mpr ⟨entry, member, rfl⟩)

end Cache

namespace CacheState

/-- The state without the records that no answer has taken yet. -/
def unlogged (state : CacheState τ) : CacheState τ := { state with pending := [] }

/-- But for the log, storing a value changes the entries alone. -/
theorem unlogged_put (state : CacheState τ) (key : String) (value : Value) :
    (state.put key value).unlogged = { state.unlogged with
      cache := (state.cache.put state.limits state.now key value).2 } := by
  rw [unlogged, put_limits, put_now, put_cache]
  rfl

/-- What is stored does not hang on the log. -/
theorem unlogged_put_congr {first second : CacheState τ}
    (same : first.unlogged = second.unlogged) (key : String) (value : Value) :
    (first.put key value).unlogged = (second.put key value).unlogged := by
  obtain ⟨limits, now, cache, -⟩ := CacheState.mk.inj same
  rw [unlogged_put, unlogged_put, same, limits, now, cache]

variable [Clock τ]

/-- What computing a missing result leaves hangs on what the computation leaves. -/
theorem unlogged_computeMissing {first second : CacheState τ} {during : List (CacheUse τ)}
    (halts : ((first.log "Cache miss").run during).halted =
      ((second.log "Cache miss").run during).halted)
    (leaves : ((first.log "Cache miss").run during).state.unlogged =
      ((second.log "Cache miss").run during).state.unlogged)
    (key : String) (outcome : Except String Value) :
    (first.computeMissing key during outcome).2.unlogged =
      (second.computeMissing key during outcome).2.unlogged := by
  rw [computeMissing_eq, computeMissing_eq, halts]
  by_cases halted : ((second.log "Cache miss").run during).halted = true
  · rw [if_pos halted, if_pos halted]
    exact leaves
  · rw [if_neg halted, if_neg halted]
    cases outcome with
    | error message => exact leaves
    | ok value => exact unlogged_put_congr leaves key value

mutual

/-- The records of the log make no difference to what an operation leaves. -/
theorem unlogged_perform (state : CacheState τ) (records : List LogRecord) : (use : CacheUse τ) →
    ({ state with pending := records }.perform use).2.unlogged = (state.perform use).2.unlogged
  | .get key => by
      rw [perform, perform]
      rfl
  | .put key value => by
      rw [perform, perform]
      have same : { state with pending := records }.unlogged = state.unlogged := rfl
      exact unlogged_put_congr same key value
  | .clear => by
      rw [perform, perform]
      rfl
  | .advance span => by
      rw [perform, perform]
      rfl
  | .compute key during outcome => by
      cases reached : state.refusesGet key with
      | true =>
          have reachedToo : { state with pending := records }.refusesGet key = true := reached
          rw [perform, perform, reached, reachedToo]
          rfl
      | false =>
          have reachedToo : { state with pending := records }.refusesGet key = false := reached
          rw [perform_compute _ _ _ _ reached, perform_compute _ _ _ _ reachedToo]
          by_cases hit : isHit (state.get key).1 = true
          · have hitToo : isHit ({ state with pending := records }.get key).1 = true := hit
            rw [if_pos hit, if_pos hitToo]
            rfl
          · have hitToo : ¬ isHit ({ state with pending := records }.get key).1 = true := hit
            rw [if_neg hit, if_neg hitToo]
            obtain ⟨halts, leaves⟩ := unlogged_run ((state.get key).2.log "Cache miss")
              (records ++ [⟨.debug, "Cache miss"⟩]) during
            exact unlogged_computeMissing halts leaves key outcome

/-- The records of the log make no difference to what a run leaves, or to whether it is cut
short. -/
theorem unlogged_run (state : CacheState τ) (records : List LogRecord) :
    (uses : List (CacheUse τ)) →
      ({ state with pending := records }.run uses).halted = (state.run uses).halted ∧
        ({ state with pending := records }.run uses).state.unlogged =
          (state.run uses).state.unlogged
  | [] => by
      rw [run, run]
      exact ⟨rfl, rfl⟩
  | use :: rest => by
      cases refused : state.refuses use with
      | true =>
          have refusedToo : { state with pending := records }.refuses use = true := by
            cases use <;> exact refused
          rw [run, run, refused, refusedToo]
          exact ⟨rfl, rfl⟩
      | false =>
          have acceptedToo : { state with pending := records }.refuses use = false := by
            cases use <;> exact refused
          -- The records are handed over after every operation, so what is left to run is the same.
          have next := unlogged_perform state records use
          rw [unlogged, unlogged] at next
          rw [run_cons _ use rest refused, run_cons _ use rest acceptedToo]
          simp only [next, and_self]

end

/-- What comes of a computation: its own outcome, unless a use of the cache within it is refused. -/
def conclusion (halted : Bool) (outcome : Except String Value) : Except ComputeFailure Value :=
  if halted then .error .refused else outcome.mapError .failed

/-- Computing a missing result gives what comes of the computation, and stores it if it is a
value. -/
theorem computeMissing_concludes (state : CacheState τ) (key : String)
    (during : List (CacheUse τ)) (outcome : Except String Value) :
    let inner := (state.log "Cache miss").run during
    state.computeMissing key during outcome =
      match conclusion inner.halted outcome with
      | .error failure => (.computed (.error failure) inner.answers, inner.state)
      | .ok value => (.computed (.ok value) inner.answers, inner.state.put key value) := by
  intro inner
  rw [computeMissing_eq]
  change (if inner.halted = true then _ else _) = _
  cases inner.halted with
  | true => rfl
  | false => cases outcome <;> rfl

/-- Looking up and the operations of the computation leave by themselves what they leave within a
call that misses. -/
theorem run_get_cons (state : CacheState τ) {key : String} (reached : state.refusesGet key = false)
    (during : List (CacheUse τ)) :
    let own := state.run (.get key :: during)
    let inner := ((state.get key).2.log "Cache miss").run during
    own.halted = inner.halted ∧ own.state.unlogged = inner.state.unlogged := by
  intro own inner
  have same := unlogged_run ((state.get key).2.log "Cache miss") [] during
  have own : own = _ := run_cons state (.get key) during reached
  rw [own, perform]
  exact same

/-- What is stored is found at once, if its age is told and is not above the time to live. -/
theorem get_put (state : CacheState τ) (room : 1 ≤ state.limits.capacity)
    (told : Clock.mixes state.now state.now = true)
    (fresh : ¬ state.limits.timeToLive < state.now - state.now) (key : String) (value : Value) :
    (state.put key value).refusesGet key = false ∧
      ((state.put key value).get key).1 = some value := by
  have found := state.cache.find?_put room state.now key value
  constructor
  · rw [refusesGet, put_cache, put_now, Cache.tellsAge, found]
    exact congrArg not told
  · rw [get, put_cache, put_now, put_limits, Cache.get, found]
    simp only [Cache.isStale, fresh, decide_false, Bool.false_eq_true, ↓reduceIte]

end CacheState

namespace CacheLimits

/-- Limits that are let through have a positive time to live and room for an entry. -/
theorem make_eq_ok {timeToLive capacity : Reading} {limits : CacheLimits Reading}
    (made : make timeToLive capacity = .ok limits) :
    limits.timeToLive.isZeroOrLess = false ∧ 1 ≤ limits.capacity := by
  unfold make at made
  split at made
  · cases made
  next positive =>
    split at made
    · cases made
    next large =>
      cases made
      have notSmall : isTooSmall capacity = false := Bool.not_eq_true _ ▸ large
      exact ⟨Bool.not_eq_true _ ▸ positive,
        Reading.one_le_wholePart (of_decide_eq_false notSmall)⟩

end CacheLimits

namespace CacheState

/-- Where a result is missing, in whatever state, and whatever its computation does to the cache: if
the computation fails, so does the call, and it leaves what looking up and the operations of the
computation leave. If the computation gives a value, so does the call, it stores just that value,
and a look-up right after finds it, with no more results than the capacity. -/
theorem compute_ends {timeToLive capacity : Reading} (state : CacheState Reading)
    (made : CacheLimits.make timeToLive capacity = .ok state.limits) (key : String)
    (asked : state.Asks key) (during : List (CacheUse Reading)) (outcome : Except String Value) :
    let own := state.run (.get key :: during)
    let call := state.perform (.compute key during outcome)
    (∀ failure, conclusion own.halted outcome = .error failure →
      (∃ answers, call.1 = .computed (.error failure) answers) ∧
        call.2.unlogged = own.state.unlogged) ∧
    ∀ value, conclusion own.halted outcome = .ok value →
      (∃ answers, call.1 = .computed (.ok value) answers) ∧
        call.2.unlogged = (own.state.put key value).unlogged ∧
        call.2.cache.size ≤ state.limits.capacity ∧ call.2.refuses (.get key) = false ∧
        (call.2.perform (.get key)).1 = .found (some value) ∧
        (call.2.perform (.get key)).2.cache.size ≤ state.limits.capacity := by
  intro own call
  obtain ⟨positive, room⟩ := CacheLimits.make_eq_ok made
  obtain ⟨halts, leaves⟩ := state.run_get_cons (asks_iff.mp asked).1 during
  have calls : call = (state.get key).2.computeMissing key during outcome :=
    perform_of_asks asked during outcome
  rw [computeMissing_concludes, ← halts] at calls
  constructor
  · intro failure concluded
    rw [concluded] at calls
    rw [calls]
    exact ⟨⟨_, rfl⟩, leaves.symm⟩
  · intro value concluded
    rw [concluded] at calls
    -- The state in which the value is stored is the one that the computation leaves.
    let left := (((state.get key).2.log "Cache miss").run during).state
    change call = (_, left.put key value) at calls
    have sameLimits : left.limits = state.limits :=
      ((state.get key).2.log "Cache miss").walk_moments during |>.1
    have bounded : (left.put key value).cache.size ≤ state.limits.capacity := by
      rw [put_cache, ← sameLimits]
      exact Cache.size_put_le _ _ _
    obtain ⟨accepted, found⟩ := left.get_put (sameLimits ▸ room) (Reading.mixes_self _)
      (Reading.not_lt_sub_self (sameLimits ▸ positive) _) key value
    rw [calls, perform]
    refine ⟨⟨_, rfl⟩, (unlogged_put_congr leaves key value).symm, bounded, accepted,
      congrArg _ found, ?_⟩
    exact Nat.le_trans (Cache.size_get_le _ _ _) bounded

/-- A computation clears the cache, fills it, and computes a result under the very key. When it
fails, what it stored stays; when it gives a value, that one is found. -/
theorem compute_ends_of_filled :
    let start : CacheState Reading := { limits := ⟨.int 45, 2⟩, now := .int 1000 }
    let state := (start.run [.put "a" (.text "x"), .put "k" .null,
      .advance (.double (Double.ofDecimal false 5 (-1)))]).state
    let during : List (CacheUse Reading) := [.clear, .put "b" (.text "y"), .put "c" .null,
      .compute "k" [.advance (.int 1)] (.ok (.text "inner")), .put "d" .null]
    CacheLimits.make (.int 45) (.int 2) = .ok state.limits ∧ state.Asks "k" ∧
      (state.perform (.compute "k" during (.error "broken"))).2.cache.keys = ["k", "d"] ∧
      ((state.perform (.compute "k" during (.ok (.text "outer")))).2.perform (.get "k")).1 =
        .found (some (.text "outer")) := by
  intro start state during
  have limits : state.limits = ⟨.int 45, 2⟩ := walk_moments _ _ |>.1
  have made : CacheLimits.make (.int 45) (.int 2) = .ok state.limits := by
    have positive : (Reading.int 45).isZeroOrLess = false := by decide +kernel
    have large : CacheLimits.isTooSmall (.int 2) = false := by decide +kernel
    have whole : (Reading.int 2).wholePart = 2 := by decide +kernel
    rw [limits, CacheLimits.make, positive, large, whole]
    rfl
  have asked : state.Asks "k" := by
    apply asks_iff.mpr
    simp only [state, run, refuses, perform]
    decide +kernel
  have complete : (state.run (.get "k" :: during)).halted = false := by
    simp only [state, during, run, refuses, perform, computeMissing]
    decide +kernel
  have kept : (state.run (.get "k" :: during)).state.cache.keys = ["k", "d"] := by
    simp only [state, during, run, refuses, perform, computeMissing]
    decide +kernel
  refine ⟨made, asked, ?_, ?_⟩
  · obtain ⟨fails, -⟩ := compute_ends state made "k" asked during (.error "broken")
    have failed : conclusion (state.run (.get "k" :: during)).halted (.error "broken") =
        .error (.failed "broken") := by rw [complete]; rfl
    obtain ⟨-, leaves⟩ := fails _ failed
    rw [← kept]
    exact congrArg (fun state => state.cache.keys) leaves
  · obtain ⟨-, gives⟩ := compute_ends state made "k" asked during (.ok (.text "outer"))
    have given : conclusion (state.run (.get "k" :: during)).halted (.ok (.text "outer")) =
        .ok (.text "outer") := by rw [complete]; rfl
    obtain ⟨-, -, -, -, found, -⟩ := gives _ given
    exact found

end CacheState

end Reporting
