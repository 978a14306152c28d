import Reporting.Cache
import Reporting.Log

/-!
# Uses of a cache

A `CacheUse` is one operation on a cache under a clock. Computing a result that is missing may use
the cache itself, so the uses that a computation makes are part of it. `CacheState.run` performs
uses one after the other and answers each with its result, the keys then kept, and what was logged
since the answer before.

A use is refused where the clock has no sum or no difference for it. Within a computation a refused
use ends the computation as a failure; otherwise it halts the run.
-/

namespace Reporting

inductive CacheUse (τ : Type) where
  | get (key : String)
  | put (key : String) (value : Value)
  | clear
  | advance (span : τ)
  | compute (key : String) (during : List (CacheUse τ)) (outcome : Except String Value)

/-- Why no result is computed: the computation failed by itself, or a use of the cache was
refused. -/
inductive ComputeFailure where
  | failed (message : String)
  | refused
  deriving DecidableEq

mutual

inductive CacheResult where
  | nothing
  | found (value : Option Value)
  | computed (outcome : Except ComputeFailure Value) (during : List CacheAnswer)

/-- The result of an operation, the keys kept after it, least recently used first, and the records
logged since the answer before. -/
inductive CacheAnswer where
  | mk (result : CacheResult) (keys : List String) (log : List LogRecord)

end

/-- A cache, its clock, and the records that no answer has taken yet. -/
structure CacheState (τ : Type) where
  limits : CacheLimits τ
  now : τ
  cache : Cache τ := {}
  pending : List LogRecord := []

/-- The answers of a run, the state at its end, and whether a refused use has cut it short. -/
structure CacheRun (τ : Type) where
  answers : List CacheAnswer
  state : CacheState τ
  halted : Bool

namespace CacheState

variable {τ : Type} [Clock τ]

def log (state : CacheState τ) (message : String) : CacheState τ :=
  { state with pending := state.pending ++ [⟨.debug, message⟩] }

def put (state : CacheState τ) (key : String) (value : Value) : CacheState τ :=
  let (evicted, cache) := state.cache.put state.limits state.now key value
  evicted.foldl (fun state key => state.log ("Evicted cached result " ++ key))
    { state with cache }

def get (state : CacheState τ) (key : String) : Option Value × CacheState τ :=
  let (value, cache) := state.cache.get state.limits state.now key
  (value, { state with cache })

/-- Is the result under a key out of reach, because its age cannot be told? -/
def refusesGet (state : CacheState τ) (key : String) : Bool :=
  !state.cache.tellsAge state.now key

/-- Is an operation refused? A computation is not; it fails instead. -/
def refuses (state : CacheState τ) : CacheUse τ → Bool
  | .get key => state.refusesGet key
  | .advance span => !Clock.mixes state.now span
  | .put _ _ | .clear | .compute _ _ _ => false

/-- A result other than null counts as found. -/
def isHit : Option Value → Bool
  | none | some .null => false
  | some _ => true

/-- Answers with a result and hands over the pending records. -/
def answer (state : CacheState τ) (result : CacheResult) : CacheAnswer × CacheState τ :=
  (.mk result state.cache.keys state.pending, { state with pending := [] })

mutual

/-- Performs an operation that is not refused. -/
def perform (state : CacheState τ) : CacheUse τ → CacheResult × CacheState τ
  | .get key =>
    let (value, state) := state.get key
    (.found value, state)
  | .put key value => (.nothing, state.put key value)
  | .clear => (.nothing, { state with cache := {} })
  | .advance span => (.nothing, { state with now := state.now + span })
  | .compute key during outcome =>
    if state.refusesGet key then (.computed (.error .refused) [], state)
    else
      match state.get key with
      | (some value, state) =>
        if isHit (some value) then (.computed (.ok value) [], state.log "Cache hit")
        else computeMissing state key during outcome
      | (none, state) => computeMissing state key during outcome

/-- Computes a missing result and stores it, unless the computation fails. -/
def computeMissing (state : CacheState τ) (key : String) (during : List (CacheUse τ))
    (outcome : Except String Value) : CacheResult × CacheState τ :=
  let ⟨answers, state, halted⟩ := run (state.log "Cache miss") during
  if halted then (.computed (.error .refused) answers, state)
  else
    match outcome with
    | .error message => (.computed (.error (.failed message)) answers, state)
    | .ok value => (.computed (.ok value) answers, state.put key value)

/-- Performs operations one after the other, up to the first that is refused. -/
def run (state : CacheState τ) : List (CacheUse τ) → CacheRun τ
  | [] => ⟨[], state, false⟩
  | use :: rest =>
    if state.refuses use then ⟨[], state, true⟩
    else
      let (result, state) := perform state use
      let (first, state) := state.answer result
      let ⟨answers, state, halted⟩ := run state rest
      ⟨first :: answers, state, halted⟩

end

end CacheState

end Reporting
