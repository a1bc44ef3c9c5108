import Mathlib.Data.List.MinMax
import Mirage.Discovery.Wire
import Mirage.Lib.Maps
import Mirage.Lib.Runs

/-!
# The pool of bridges

`BridgePool` of `crates/discovery/src/pool.rs`: the bridges that a client can dial, and the keys
that revocations keep out. The order in which a hash map is walked is an argument of the calls.
-/

namespace Mirage.Discovery

open Words
open Maps (size retain)

def bridgeRevocationMemorySeconds : ℕ := 7 * 24 * 3600

structure BridgeEntry where
  bridgeEd25519Pk : Bytes32
  bridgeX25519Pk : Bytes32
  transportCaps : UInt32
  endpoint : Endpoint
  announcementIssuedAt : UInt64
  announcementExpiresAt : UInt64
  successes : UInt32
  failures : UInt32
  lastSeenUnix : UInt64
  deriving DecidableEq

namespace BridgeEntry

def fromAnnouncement (ann : Announcement) (nowUnix : UInt64) : BridgeEntry where
  bridgeEd25519Pk := ann.bridgeEd25519Pk
  bridgeX25519Pk := ann.bridgeX25519Pk
  transportCaps := ann.transportCaps
  endpoint := ann.endpoint
  announcementIssuedAt := ann.issuedAt
  announcementExpiresAt := ann.expiresAt
  successes := 0
  failures := 0
  lastSeenUnix := max nowUnix ann.issuedAt

/-- What a newer announcement changes. The counters stay. -/
def update (e : BridgeEntry) (ann : Announcement) (nowUnix : UInt64) : BridgeEntry :=
  { e with
    bridgeX25519Pk := ann.bridgeX25519Pk
    transportCaps := ann.transportCaps
    endpoint := ann.endpoint
    announcementIssuedAt := ann.issuedAt
    announcementExpiresAt := ann.expiresAt
    lastSeenUnix := max nowUnix e.lastSeenUnix }

def score (e : BridgeEntry) : Float :=
  (e.successes.toFloat + 1) / (e.successes.toFloat + e.failures.toFloat + 2)

/-- By score, then by when the bridge was last seen, then by key, as numbers. -/
def compareScore (a b : BridgeEntry) : Ordering :=
  (if a.score < b.score then .lt else if b.score < a.score then .gt else .eq : Ordering).then
    ((compare a.lastSeenUnix b.lastSeenUnix).then
      (compare (beNat a.bridgeEd25519Pk.toList) (beNat b.bridgeEd25519Pk.toList)))

end BridgeEntry

inductive EvictReason
  | revoked
  | expired
  | lru

structure BlocklistEntry where
  reason : RevocationReason
  issuedAt : UInt64
  forgetAt : UInt64

inductive SelectionPolicy
  | bestScore
  | roundRobin

abbrev Bridges : Type := AList fun _ : Bytes32 => BridgeEntry

/-- The order in which the hash map of the bridges is walked. -/
structure Walk where
  iter : Bridges → List (Σ _ : Bytes32, BridgeEntry)
  perm : ∀ bridges, (iter bridges).Perm bridges.entries

/-- The cursor wraps around at `2 ^ 64`. -/
structure PoolState where
  bridges : Bridges
  blocklist : AList fun _ : Bytes32 => BlocklistEntry
  roundRobinCursor : ℕ
  maxBridges : ℕ

structure ApplyReport where
  announcementsNew : ℕ
  announcementsUpdated : ℕ
  announcementsStale : ℕ
  rejectedByBlocklist : ℕ
  revocationsIngested : ℕ
  evicted : List (Bytes32 × EvictReason)

/-- Until when a revocation of that time is remembered, by an addition that saturates. -/
def forgetAt (issuedAt : UInt64) : UInt64 :=
  UInt64.ofNat (min (issuedAt.toNat + bridgeRevocationMemorySeconds) (2 ^ 64 - 1))

/-- The last of the greatest, as `max_by` has it. -/
def maxBy {α : Type*} (cmp : α → α → Ordering) : List α → Option α
  | [] => none
  | a :: l => some (l.foldl (fun x y => if cmp x y = .gt then x else y) a)

namespace PoolState

def withCapacity (maxBridges : ℕ) : PoolState := ⟨∅, ∅, 0, maxBridges⟩

def revoke (sr : PoolState × ApplyReport) (rev : Revocation) : PoolState × ApplyReport :=
  let (s, rep) := sr
  let key := rev.targetEd25519Pk
  let rep := if key ∈ s.bridges then { rep with evicted := rep.evicted ++ [(key, .revoked)] }
    else rep
  let s := { s with bridges := s.bridges.erase key }
  if ∃ existing ∈ s.blocklist.lookup key, rev.issuedAt ≤ existing.issuedAt then (s, rep)
  else
    let blocked : BlocklistEntry := ⟨rev.reason, rev.issuedAt, forgetAt rev.issuedAt⟩
    ({ s with blocklist := s.blocklist.insert key blocked },
      { rep with revocationsIngested := rep.revocationsIngested + 1 })

def announce (nowUnix : UInt64) (sr : PoolState × ApplyReport) (ann : Announcement) :
    PoolState × ApplyReport :=
  let (s, rep) := sr
  let key := ann.bridgeEd25519Pk
  if key ∈ s.blocklist then (s, { rep with rejectedByBlocklist := rep.rejectedByBlocklist + 1 })
  else
    let rep := if key ∈ s.bridges then rep
      else { rep with announcementsNew := rep.announcementsNew + 1 }
    let entry := (s.bridges.lookup key).getD (.fromAnnouncement ann nowUnix)
    if entry.announcementIssuedAt ≤ ann.issuedAt then
      ({ s with bridges := s.bridges.insert key (entry.update ann nowUnix) },
        { rep with announcementsUpdated := rep.announcementsUpdated + 1 })
    else ({ s with bridges := s.bridges.insert key entry },
      { rep with announcementsStale := rep.announcementsStale + 1 })

def gcExpired (walk : Walk) (nowUnix : UInt64) (sr : PoolState × ApplyReport) :
    PoolState × ApplyReport :=
  let (s, rep) := sr
  let expired := ((walk.iter s.bridges).filter fun e => e.2.announcementExpiresAt ≤ nowUnix).map
    Sigma.fst
  ({ s with bridges := expired.foldl (fun bridges k => bridges.erase k) s.bridges },
    { rep with evicted := rep.evicted ++ expired.map fun k => (k, .expired) })

def gcBlocklist (nowUnix : UInt64) (s : PoolState) : PoolState :=
  { s with blocklist := retain (fun b => nowUnix < b.forgetAt) s.blocklist }

def evictLru (walk : Walk) : ℕ → PoolState × ApplyReport → PoolState × ApplyReport
  | 0, sr => sr
  | n + 1, (s, rep) =>
    match (walk.iter s.bridges).argmin fun e => e.2.lastSeenUnix.toNat with
    | some e => evictLru walk n ({ s with bridges := s.bridges.erase e.1 },
        { rep with evicted := rep.evicted ++ [(e.1, .lru)] })
    | none => (s, rep)

def applyFetch (walk : Walk) (announcements : List Announcement) (revocations : List Revocation)
    (nowUnix : UInt64) (s : PoolState) : PoolState × ApplyReport :=
  let sr := revocations.foldl revoke (s, ⟨0, 0, 0, 0, 0, []⟩)
  let sr := announcements.foldl (announce nowUnix) sr
  let sr := if 0 < nowUnix then gcExpired walk nowUnix sr else sr
  let sr := if 0 < nowUnix then (gcBlocklist nowUnix sr.1, sr.2) else sr
  -- Each round removes one bridge, so this is how often the loop goes round.
  evictLru walk (size sr.1.bridges - sr.1.maxBridges) sr

def select (walk : Walk) (policy : SelectionPolicy) (s : PoolState) :
    Option BridgeEntry × PoolState :=
  if size s.bridges = 0 then (none, s)
  else match policy with
    | .bestScore => (maxBy BridgeEntry.compareScore ((walk.iter s.bridges).map Sigma.snd), s)
    | .roundRobin =>
      let keys := ((walk.iter s.bridges).map Sigma.fst).mergeSort
        fun a b => beNat a.toList ≤ beNat b.toList
      ((keys[s.roundRobinCursor % keys.length]?).bind s.bridges.lookup,
        { s with roundRobinCursor := (s.roundRobinCursor + 1) % 2 ^ 64 })

def modify (key : Bytes32) (f : BridgeEntry → BridgeEntry) (s : PoolState) : PoolState :=
  match s.bridges.lookup key with
  | some e => { s with bridges := s.bridges.insert key (f e) }
  | none => s

def recordSuccess (key : Bytes32) (nowUnix : UInt64) (s : PoolState) : PoolState :=
  s.modify key fun e =>
    { e with successes := satAdd e.successes 1, lastSeenUnix := max nowUnix e.lastSeenUnix }

def recordFailure (key : Bytes32) (nowUnix : UInt64) (s : PoolState) : PoolState :=
  s.modify key fun e =>
    { e with failures := satAdd e.failures 1, lastSeenUnix := max nowUnix e.lastSeenUnix }

def snapshot (walk : Walk) (s : PoolState) : List BridgeEntry :=
  (walk.iter s.bridges).map Sigma.snd

end PoolState

inductive PoolCall
  | applyFetch (walk : Walk) (announcements : List Announcement) (revocations : List Revocation)
      (nowUnix : UInt64)
  | select (walk : Walk) (policy : SelectionPolicy)
  | recordSuccess (key : Bytes32) (nowUnix : UInt64)
  | recordFailure (key : Bytes32) (nowUnix : UInt64)

structure PoolHistory where
  pool : PoolState
  revoked : List Revocation
  clock : UInt64

namespace PoolHistory

def init (maxBridges : ℕ) : PoolHistory := ⟨.withCapacity maxBridges, [], 0⟩

def step (h : PoolHistory) : PoolCall → PoolHistory
  | .applyFetch walk announcements revocations nowUnix =>
    ⟨(h.pool.applyFetch walk announcements revocations nowUnix).1, h.revoked ++ revocations,
      nowUnix⟩
  | .select walk policy => { h with pool := (h.pool.select walk policy).2 }
  | .recordSuccess key nowUnix => { h with pool := h.pool.recordSuccess key nowUnix }
  | .recordFailure key nowUnix => { h with pool := h.pool.recordFailure key nowUnix }

end PoolHistory

structure PoolPast extends PoolHistory where
  past : List PoolState

namespace PoolPast

def init (maxBridges : ℕ) : PoolPast := ⟨.init maxBridges, []⟩

def step (h : PoolPast) (c : PoolCall) : PoolPast :=
  let next := h.toPoolHistory.step c
  ⟨next, h.past ++ [next.pool]⟩

end PoolPast

end Mirage.Discovery
