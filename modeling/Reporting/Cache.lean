import Reporting.Value

/-!
# The result cache

A `Cache` keeps results under keys for a limited time and in limited number. Its entries stand in
the order of their last use, the least recent first: storing a result and finding a fresh one are
uses. A result is fresh until its age exceeds the time to live; a stale one is dropped when it is
asked for. When a new result exceeds the capacity, the entries used least recently are evicted.

Times are values of any type `τ` that is a `Clock`.
-/

namespace Reporting

/-- Times and spans of time with sums, differences and an order. Two values may lack a sum or a
difference, in which case `mixes` is false for them; on an exact clock none do. -/
class Clock (τ : Type) extends Add τ, Sub τ, LT τ where
  mixes : τ → τ → Bool := fun _ _ => true
  decidableLT : DecidableLT τ

instance Clock.instDecidableLT {τ : Type} [Clock τ] : DecidableLT τ := Clock.decidableLT

/-- How long a result stays fresh and how many results are kept. -/
structure CacheLimits (τ : Type) where
  timeToLive : τ
  capacity : Nat

/-- A result under its key with the time when it was stored. -/
structure CacheEntry (τ : Type) where
  key : String
  value : Value
  storedAt : τ

/-- The results kept, least recently used first. -/
structure Cache (τ : Type) where
  entries : List (CacheEntry τ) := []

namespace Cache

variable {τ : Type} [Clock τ]

def keys (cache : Cache τ) : List String := cache.entries.map (·.key)

def size (cache : Cache τ) : Nat := cache.entries.length

def find? (cache : Cache τ) (key : String) : Option (CacheEntry τ) :=
  cache.entries.find? (·.key == key)

def erase (cache : Cache τ) (key : String) : Cache τ :=
  ⟨cache.entries.filter (·.key != key)⟩

/-- Can the age of the entry under a key be told? -/
def tellsAge (now : τ) (key : String) (cache : Cache τ) : Bool :=
  (cache.find? key).all fun entry => Clock.mixes now entry.storedAt

def isStale (limits : CacheLimits τ) (now : τ) (entry : CacheEntry τ) : Bool :=
  decide (limits.timeToLive < now - entry.storedAt)

/-- The fresh result under a key, and the cache after the use. -/
def get (limits : CacheLimits τ) (now : τ) (key : String) (cache : Cache τ) :
    Option Value × Cache τ :=
  match cache.find? key with
  | none => (none, cache)
  | some entry =>
    if isStale limits now entry then (none, cache.erase key)
    else (some entry.value, ⟨(cache.erase key).entries ++ [entry]⟩)

def excess (limits : CacheLimits τ) (cache : Cache τ) : Nat := cache.size - limits.capacity

/-- Stores a result as the most recently used one. The keys of evicted results come with it. -/
def put (limits : CacheLimits τ) (now : τ) (key : String) (value : Value) (cache : Cache τ) :
    List String × Cache τ :=
  let grown : Cache τ := ⟨(cache.erase key).entries ++ [⟨key, value, now⟩]⟩
  let excess := grown.excess limits
  ((grown.entries.take excess).map (·.key), ⟨grown.entries.drop excess⟩)

end Cache

end Reporting
