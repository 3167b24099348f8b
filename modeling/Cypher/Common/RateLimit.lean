import Cypher.Common
import Cypher.Lib.Binary64

/-!
# The token bucket (`cypher-common/src/ratelimit.rs`)

The bucket's arithmetic is that of `f64`: every operation is the exact one followed by `Lib.fl`.
Instants are nanoseconds of a monotonic clock; `duration_since` of an earlier instant is zero.
-/

namespace Cypher

open Lib

structure TokenBucket where
  capacity : UInt32
  tokens : ℚ
  refillRate : ℚ
  lastRefill : Nat

/-- `Duration::as_secs_f64`: the whole seconds, and the nanoseconds divided by their number in a
second. -/
def asSecsF64 (ns : Nat) : ℚ :=
  fl (fl (ns / 10 ^ 9 : Nat) + fl ((ns % 10 ^ 9 : Nat) / 10 ^ 9))

namespace TokenBucket

def new (now : Nat) (capacity : UInt32) (refillRate : ℚ) : TokenBucket :=
  ⟨capacity, capacity.toNat, refillRate, now⟩

def refill (b : TokenBucket) (now : Nat) : TokenBucket :=
  let elapsed := asSecsF64 (now - b.lastRefill)
  { b with
    tokens := min (fl (b.tokens + fl (elapsed * b.refillRate))) b.capacity.toNat
    lastRefill := now }

def tryConsume (b : TokenBucket) (now : Nat) (n : UInt32) : Bool × TokenBucket :=
  let b := b.refill now
  let cost : ℚ := n.toNat
  if b.tokens ≥ cost then (true, { b with tokens := fl (b.tokens - cost) }) else (false, b)

end TokenBucket

end Cypher
