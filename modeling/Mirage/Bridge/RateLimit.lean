import Mirage.Bridge.Destinations
import Mirage.Lib.Capped
import Mirage.Lib.Runs

/-!
# The limiter of connections

`crates/bridge/src/rate_limit.rs`. Whether a bucket has a token left is an argument of the call. A
refusal says for which of the three reasons `try_acquire` returned `None`. `Guarded` is the limiter
with the guards that are held.
-/

namespace Mirage.Bridge

open Maps Capped

structure Bucket where
  lastSeen : ℕ
  concurrent : ℕ

abbrev Buckets : Type := AList fun _ : IpAddr => Bucket

def Buckets.concurrent (buckets : Buckets) (ip : IpAddr) : ℕ :=
  ((buckets.lookup ip).map Bucket.concurrent).getD 0

structure PerPeerLimiter where
  buckets : Buckets
  maxConcurrent : ℕ
  maxEntries : ℕ

inductive Refusal
  | noRoom
  | concurrency
  | rate

namespace PerPeerLimiter

def new (maxConcurrent maxEntries : ℕ) : PerPeerLimiter := ⟨∅, maxConcurrent, maxEntries⟩

def evictSample : ℕ := 32

def oldestIdle (l : List (Σ _ : IpAddr, Bucket)) : Option IpAddr :=
  oldest Bucket.lastSeen (l.filter fun e => e.2.concurrent = 0)

/-- The oldest idle bucket of a sample, or else of all. -/
def victim (walk : Walk IpAddr Bucket) (buckets : Buckets) : Option IpAddr :=
  (oldestIdle ((walk.iter buckets).take evictSample)).or (oldestIdle (walk.iter buckets))

variable (limiter : PerPeerLimiter)

def tryAcquire (walk : Walk IpAddr Bucket) (ip : IpAddr) (now : ℕ) (hasToken : Bool) :
    Except Refusal Unit × PerPeerLimiter :=
  let room := if Fits limiter.maxEntries limiter.buckets ip then some limiter.buckets
    else (victim walk limiter.buckets).map limiter.buckets.erase
  match room with
  | none => (.error .noRoom, limiter)
  | some buckets =>
    let n := ((buckets.lookup ip).getD ⟨now, 0⟩).concurrent
    if 0 < limiter.maxConcurrent ∧ limiter.maxConcurrent ≤ n then
      (.error .concurrency, { limiter with buckets := buckets.insert ip ⟨now, n⟩ })
    else if !hasToken then (.error .rate, { limiter with buckets := buckets.insert ip ⟨now, n⟩ })
    else (.ok (), { limiter with buckets := buckets.insert ip ⟨now, n + 1⟩ })

def release (ip : IpAddr) : PerPeerLimiter :=
  match limiter.buckets.lookup ip with
  | none => limiter
  | some b =>
    { limiter with buckets := limiter.buckets.insert ip { b with concurrent := b.concurrent - 1 } }

end PerPeerLimiter

structure Guarded where
  limiter : PerPeerLimiter
  guards : List IpAddr

inductive GuardEvent
  | acquire (walk : Walk IpAddr Bucket) (ip : IpAddr) (now : ℕ) (hasToken : Bool)
  | drop (ip : IpAddr)

namespace Guarded

def start (maxConcurrent maxEntries : ℕ) : Guarded := ⟨.new maxConcurrent maxEntries, []⟩

def step (s : Guarded) : GuardEvent → Guarded
  | .acquire walk ip now hasToken =>
    match s.limiter.tryAcquire walk ip now hasToken with
    | (.ok (), limiter) => ⟨limiter, ip :: s.guards⟩
    | (.error _, limiter) => { s with limiter }
  | .drop ip => if ip ∈ s.guards then ⟨s.limiter.release ip, s.guards.erase ip⟩ else s

end Guarded

end Mirage.Bridge
