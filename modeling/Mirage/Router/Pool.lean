import Mathlib
import Mirage.Lib.Slots
import Mirage.Lib.Words

/-!
# The circuit pool

`crates/router/src/pool.rs`. A class that the map of entries does not have yet has no entries, so
the map is a function. The order of a hash map, the picker of jitter, which may answer otherwise at
every call, and the keyed hash of `blake3` are arguments.
-/

namespace Mirage.Router

open Slots Words

/-!
## Classes, profiles and policy

`crates/router/src/class.rs`, `profile.rs` and `policy.rs`: the classes of traffic, what a circuit
of each is built with, and how many of them the pool may have. Durations are in nanoseconds. Streams
are counted up only below `max_streams`, so these counts are numbers; those of the policy are
machine words.
-/

inductive Class
  | metadata
  | interactive
  | bulk
  | realtime
  | onionService
  | background
  deriving DecidableEq

namespace Class

def name : Class → String
  | metadata => "metadata"
  | interactive => "interactive"
  | bulk => "bulk"
  | realtime => "realtime"
  | onionService => "onion-service"
  | background => "background"

def all : List Class := [metadata, interactive, bulk, realtime, onionService, background]

end Class

structure CircuitProfile where
  cls : Class
  idleTtl : ℕ
  maxAge : ℕ
  maxStreams : ℕ
  minPoolSize : UInt32
  deriving DecidableEq

def minutes (n : ℕ) : ℕ := n * 60 * 10 ^ 9

def Class.defaultProfile : Class → CircuitProfile
  | .metadata => ⟨.metadata, minutes 5, minutes 15, 32, 1⟩
  | .interactive => ⟨.interactive, minutes 10, minutes 60, 64, 3⟩
  | .bulk => ⟨.bulk, minutes 5, minutes 30, 8, 1⟩
  | .realtime => ⟨.realtime, minutes 5, minutes 15, 4, 1⟩
  | .onionService => ⟨.onionService, minutes 10, minutes 60, 32, 1⟩
  | .background => ⟨.background, minutes 30, minutes 120, 16, 0⟩

lemma Class.one_le_maxStreams (c : Class) : 1 ≤ c.defaultProfile.maxStreams := by
  cases c <;> decide

structure PerClass (α : Type*) where
  metadata : α
  interactive : α
  bulk : α
  realtime : α
  onionService : α
  background : α

def PerClass.get {α : Type*} (v : PerClass α) : Class → α
  | .metadata => v.metadata
  | .interactive => v.interactive
  | .bulk => v.bulk
  | .realtime => v.realtime
  | .onionService => v.onionService
  | .background => v.background

structure PoolPolicy where
  maxPerClass : PerClass UInt32
  refreshJitter : ℕ
  maxPendingBuildsPerClass : UInt32

namespace PoolPolicy

def default : PoolPolicy := ⟨⟨4, 8, 4, 2, 4, 4⟩, minutes 1, 4⟩

def maxFor (policy : PoolPolicy) (c : Class) : UInt32 := policy.maxPerClass.get c

end PoolPolicy

inductive EntryState
  | building
  | healthy
  | draining
  | failed
  deriving DecidableEq

structure PoolEntry (Id : Type*) where
  id : Option Id
  profile : CircuitProfile
  state : EntryState
  stateEntered : ℕ
  builtAt : Option ℕ
  streams : ℕ
  pendingStreams : ℕ
  effectiveMaxAge : ℕ

inductive PoolAction (Id : Type*)
  | buildCircuit (profile : CircuitProfile)
  | retireCircuit (id : Id)
  | drainCircuit (id : Id)
  deriving DecidableEq

inductive AcquireOutcome (Id : Type*)
  | ready (id : Id)
  | pending
  | buildFirst (profile : CircuitProfile)

inductive PoolError
  | noPendingBuild (c : Class)
  | unknownId
  | poolFull (c : Class)

structure CircuitPool (Id : Type*) where
  byClass : Class → List (PoolEntry Id)
  idIndex : AList fun _ : Id => Class
  jitterSeq : UInt64
  policy : PoolPolicy

/-- What jitter is picked for a number in sequence, at most the duration. -/
abbrev Picker := UInt64 → ℕ → ℕ

def durationAdd (a b : ℕ) : ℕ := min (a + b) (2 ^ 64 * 10 ^ 9 - 1)

namespace PoolEntry

variable {Id : Type*} [DecidableEq Id] (e : PoolEntry Id)

def isBuilding : Bool := e.state = .building

def isHealthy : Bool := e.state = .healthy

def toDrain (now : ℕ) : Option Id :=
  match e.state, e.builtAt, e.id with
  | .healthy, some builtAt, some id => if e.effectiveMaxAge ≤ now - builtAt then some id else none
  | _, _, _ => none

def toRetire (now : ℕ) : Option Id :=
  match e.state with
  | .draining =>
    if e.streams = 0 ∧ e.profile.idleTtl ≤ now - e.stateEntered then e.id else none
  | .failed => e.id
  | _ => none

def idlessFailed : Bool := e.state = .failed && e.id.isNone

end PoolEntry

namespace CircuitPool

variable {Id : Type*} [DecidableEq Id]

def new (policy : PoolPolicy) : CircuitPool Id := ⟨fun _ => [], ∅, 0, policy⟩

variable (p : CircuitPool Id)

def healthyCount (c : Class) : UInt32 :=
  UInt32.ofNat ((p.byClass c).countP PoolEntry.isHealthy)

def pendingCount (c : Class) : UInt32 :=
  UInt32.ofNat ((p.byClass c).countP PoolEntry.isBuilding)

def totalCount (c : Class) : UInt32 := UInt32.ofNat (p.byClass c).length

def setClass (c : Class) (l : List (PoolEntry Id)) : CircuitPool Id :=
  { p with byClass := Function.update p.byClass c l }

def insertBuilding (picker : Picker) (c : Class) (profile : CircuitProfile) (now pending : ℕ) :
    CircuitPool Id :=
  let seq := p.jitterSeq + 1
  let jitter := picker seq p.policy.refreshJitter
  let entry : PoolEntry Id :=
    ⟨none, profile, .building, now, none, 0, pending, durationAdd profile.maxAge jitter⟩
  { p.setClass c (p.byClass c ++ [entry]) with jitterSeq := seq }

def transitionToDraining (c : Class) (id : Id) (now : ℕ) : CircuitPool Id :=
  match splitFirst (fun e => e.id = some id) (p.byClass c) with
  | none => p
  | some (before, e, after) =>
    p.setClass c (before ++ { e with state := .draining, stateEntered := now } :: after)

def removeEntry (c : Class) (id : Id) : CircuitPool Id :=
  { p.setClass c ((p.byClass c).filter fun e => e.id ≠ some id) with idIndex := p.idIndex.erase id }

def dropIdlessFailed (c : Class) : CircuitPool Id :=
  p.setClass c ((p.byClass c).filter fun e => !e.idlessFailed)

/-- The first healthy circuit with room for a stream. One without a handle would be counted up and
passed over. -/
def takeHealthy : List (PoolEntry Id) → Option Id × List (PoolEntry Id)
  | [] => (none, [])
  | e :: l =>
    if e.state = .healthy ∧ e.streams < e.profile.maxStreams then
      match e.id with
      | some id => (some id, { e with streams := e.streams + 1 } :: l)
      | none => ((takeHealthy l).1, { e with streams := e.streams + 1 } :: (takeHealthy l).2)
    else ((takeHealthy l).1, e :: (takeHealthy l).2)

def acquire (picker : Picker) (c : Class) (now : ℕ) :
    Except PoolError (AcquireOutcome Id) × CircuitPool Id :=
  match takeHealthy (p.byClass c) with
  | (some id, l) => (.ok (.ready id), p.setClass c l)
  | (none, l) =>
    let p := p.setClass c l
    match splitFirst (fun e => e.state = .building && e.pendingStreams < e.profile.maxStreams)
      (p.byClass c) with
    | some (before, e, after) =>
      (.ok .pending,
        p.setClass c (before ++ { e with pendingStreams := e.pendingStreams + 1 } :: after))
    | none =>
      if p.policy.maxFor c ≤ p.totalCount c then (.error (.poolFull c), p)
      else if p.policy.maxPendingBuildsPerClass ≤ p.pendingCount c then (.error (.poolFull c), p)
      else
        (.ok (.buildFirst c.defaultProfile), p.insertBuilding picker c c.defaultProfile now 1)

def recordBuilt (id : Id) (c : Class) (now : ℕ) : Except PoolError ℕ × CircuitPool Id :=
  match splitFirst (fun e => e.state = .building && e.id.isNone) (p.byClass c) with
  | none => (.error (.noPendingBuild c), p)
  | some (before, e, after) =>
    (.ok e.pendingStreams,
      { p.setClass c (before ++ { e with
            id := some id
            state := .healthy
            stateEntered := now
            builtAt := some now
            streams := e.pendingStreams
            pendingStreams := 0 } :: after) with
        idIndex := p.idIndex.insert id c })

def recordBuildFailure (c : Class) : Except PoolError Unit × CircuitPool Id :=
  match splitFirst (fun e => e.state = .building && e.id.isNone) (p.byClass c) with
  | none => (.error (.noPendingBuild c), p)
  | some (before, _, after) => (.ok (), p.setClass c (before ++ closeGap after))

/-- `compute_isolation_hash`. The key is the salt with zeros behind it. -/
def computeIsolationHash (keyed : Bytes32 → Bytes → Bytes32)
    (salt : Vector UInt8 16) (c : Class) (domain : String) : UInt64 :=
  let out := keyed (vec 32 salt.toList) (c.name.toUTF8.toList ++ domain.toUTF8.toList)
  UInt64.ofNat (beNat (out.toList.take 8))

def chosen (hash : UInt64) (l : List (PoolEntry Id)) : Option ℕ :=
  let healthy := (List.range l.length).filter fun i => l[i]?.any PoolEntry.isHealthy
  healthy[hash.toNat % healthy.length]?

def acquireForDomain (keyed : Bytes32 → Bytes → Bytes32) (picker : Picker)
    (c : Class) (domain : String) (salt : Vector UInt8 16) (now : ℕ) :
    Except PoolError (AcquireOutcome Id) × CircuitPool Id :=
  let l := p.byClass c
  match chosen (computeIsolationHash keyed salt c domain) l with
  | none => p.acquire picker c now
  | some i =>
    match l[i]? with
    | none => p.acquire picker c now
    | some e =>
      if e.streams < e.profile.maxStreams then
        let p := p.setClass c (l.set i { e with streams := e.streams + 1 })
        match e.id with
        | some id => (.ok (.ready id), p)
        | none => p.acquire picker c now
      else p.acquire picker c now

def onEntry (id : Id) (f : PoolEntry Id → PoolEntry Id) : Except PoolError Unit × CircuitPool Id :=
  match p.idIndex.lookup id with
  | none => (.error .unknownId, p)
  | some c =>
    match splitFirst (fun e => e.id = some id) (p.byClass c) with
    | none => (.error .unknownId, p)
    | some (before, e, after) => (.ok (), p.setClass c (before ++ f e :: after))

def release (id : Id) : Except PoolError Unit × CircuitPool Id :=
  p.onEntry id fun e => { e with streams := e.streams - 1 }

def recordFailure (id : Id) : Except PoolError Unit × CircuitPool Id :=
  p.onEntry id fun e => { e with state := .failed }

/-- What a test finds in the classes, in the order of the hash map. -/
def collect (order : List Class) (f : PoolEntry Id → Option Id) : List (Class × Id) :=
  order.flatMap fun c => (p.byClass c).filterMap fun e => (f e).map fun id => (c, id)

def toRequest (c : Class) : ℕ :=
  let pending := p.pendingCount c
  min (min (satSub c.defaultProfile.minPoolSize (satAdd (p.healthyCount c) pending)).toNat
    (satSub (p.policy.maxFor c) (p.totalCount c)).toNat)
    (satSub p.policy.maxPendingBuildsPerClass pending).toNat

def insertBuildings (picker : Picker) (c : Class) (now : ℕ) : ℕ → CircuitPool Id
  | 0 => p
  | n + 1 => (insertBuildings picker c now n).insertBuilding picker c c.defaultProfile now 0

def floor (picker : Picker) (now : ℕ) (acc : List (PoolAction Id) × CircuitPool Id) (c : Class) :
    List (PoolAction Id) × CircuitPool Id :=
  if c.defaultProfile.minPoolSize = 0 then acc
  else
    let n := acc.2.toRequest c
    (acc.1 ++ List.replicate n (.buildCircuit c.defaultProfile),
      acc.2.insertBuildings picker c now n)

/-- The first two phases. Each class is swept of failed builds alone, so that their order does not
matter. -/
def sweep (order : List Class) (now : ℕ) : CircuitPool Id :=
  let drain := p.collect order (PoolEntry.toDrain · now)
  let retire := p.collect order (PoolEntry.toRetire · now)
  let idless := order.filter fun c => (p.byClass c).any PoolEntry.idlessFailed
  let p := drain.foldl (fun p d => p.transitionToDraining d.1 d.2 now) p
  let p := retire.foldl (fun p d => p.removeEntry d.1 d.2) p
  idless.foldl (fun p c => p.dropIdlessFailed c) p

def tick (picker : Picker) (order : List Class) (now : ℕ) : List (PoolAction Id) × CircuitPool Id :=
  let drain := (p.collect order (PoolEntry.toDrain · now)).map fun d => .drainCircuit d.2
  let retire := (p.collect order (PoolEntry.toRetire · now)).map fun d => .retireCircuit d.2
  let built := Class.all.foldl (floor picker now) ([], p.sweep order now)
  (drain ++ retire ++ built.1, built.2)

end CircuitPool

inductive PoolCall (Id : Type*)
  | acquire (picker : Picker) (c : Class) (now : ℕ)
  | acquireForDomain (picker : Picker) (c : Class) (domain : String) (salt : Vector UInt8 16)
    (now : ℕ)
  | recordBuilt (id : Id) (c : Class) (now : ℕ)
  | recordBuildFailure (c : Class)
  | release (id : Id)
  | recordFailure (id : Id)
  | tick (picker : Picker) (order : List Class) (now : ℕ)

def CircuitPool.step {Id : Type*} [DecidableEq Id]
    (keyed : Bytes32 → Bytes → Bytes32) (p : CircuitPool Id) :
    PoolCall Id → CircuitPool Id
  | .acquire picker c now => (p.acquire picker c now).2
  | .acquireForDomain picker c domain salt now =>
    (p.acquireForDomain keyed picker c domain salt now).2
  | .recordBuilt id c now => (p.recordBuilt id c now).2
  | .recordBuildFailure c => (p.recordBuildFailure c).2
  | .release id => (p.release id).2
  | .recordFailure id => (p.recordFailure id).2
  | .tick picker order now => (p.tick picker order now).2

end Mirage.Router
