import Reporting.Cache
import Reporting.Number.Reading

/-!
# Limits of a cache

`CacheLimits.make` lets through a positive time to live and a capacity of at least one, for a cache
whose clock shows readings. Of a capacity with a fraction only the whole part counts.
-/

namespace Reporting

instance : Clock Reading where
  mixes := Reading.mixes
  decidableLT := inferInstance

inductive CacheLimitFault where
  | timeToLive
  | capacity
  deriving DecidableEq

def CacheLimitFault.message : CacheLimitFault → String
  | .timeToLive => "ttl_seconds must be positive"
  | .capacity => "capacity must be at least 1"

namespace CacheLimits

/-- Seconds that a result stays fresh unless told otherwise. -/
def usualTimeToLive : Double := Double.ofDecimal false 45 0

/-- The number of results kept unless told otherwise. -/
def usualCapacity : Int := 256

def isTooSmall (capacity : Reading) : Bool := decide (capacity < Reading.int 1)

/-- The limits of a cache, the time to live checked before the capacity. -/
def make (timeToLive capacity : Reading) : Except CacheLimitFault (CacheLimits Reading) :=
  if timeToLive.isZeroOrLess then .error .timeToLive
  else if isTooSmall capacity then .error .capacity
  else .ok ⟨timeToLive, capacity.wholePart⟩

end CacheLimits

end Reporting
