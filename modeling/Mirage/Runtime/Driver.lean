import Mathlib.Data.Finset.Basic
import Mirage.Router.Pool

/-!
# The pool driver

`crates/runtime/src/driver.rs` and the lock around the pool in `crates/runtime/src/pool.rs`. Every
call of `dispatch_build` is a task of its own, and so is the `tick_once` that runs. A step takes one
of them from one `await` to the next, with an `Outcome` from outside. History: which ids were taken,
what was put into the registry, and what was destroyed.
-/

namespace Mirage.Runtime

open Router Words

structure BuiltCircuit (H : Type*) where
  conn : H
  hopCount : ℕ
  deriving DecidableEq

structure MemoryCircuitRegistry (H : Type*) where
  inner : AList fun _ : UInt64 => BuiltCircuit H
  draining : Finset UInt64

namespace MemoryCircuitRegistry

variable {H : Type*} (r : MemoryCircuitRegistry H)

def new : MemoryCircuitRegistry H := ⟨∅, ∅⟩

def insert (id : UInt64) (built : BuiltCircuit H) : MemoryCircuitRegistry H :=
  { r with inner := r.inner.insert id built }

def take (id : UInt64) : Option (BuiltCircuit H) × MemoryCircuitRegistry H :=
  (r.inner.lookup id, ⟨r.inner.erase id, r.draining.erase id⟩)

def markDraining (id : UInt64) : MemoryCircuitRegistry H :=
  { r with draining := Insert.insert id r.draining }

end MemoryCircuitRegistry

inductive BuildTask (H : Type*)
  | done
  | selecting (profile : CircuitProfile)
  | building (c : Router.Class)
  | failing (c : Router.Class)
  | registering (id : UInt64) (c : Router.Class) (built : BuiltCircuit H)
  | recording (id : UInt64) (c : Router.Class)
  | refused (id : UInt64)
  | destroying (id : UInt64) (built : BuiltCircuit H)

structure Outcome (H : Type*) where
  selected : Bool
  built : Option (BuiltCircuit H)
  now : ℕ

structure PoolDriver (H : Type*) where
  pool : CircuitPool UInt64
  registry : MemoryCircuitRegistry H
  nextId : UInt64
  /-- The tasks by the order in which they were spawned. -/
  builds : ℕ → BuildTask H
  spawned : ℕ
  /-- What the tick that is under way has left to do, and the circuit it is about to destroy. -/
  actions : List (PoolAction UInt64)
  destroying : Option (UInt64 × BuiltCircuit H)
  issued : List UInt64
  inserted : List (UInt64 × BuiltCircuit H)
  destroyed : List (UInt64 × BuiltCircuit H)

def isUse : PoolCall UInt64 → Bool
  | .acquire _ _ _ | .acquireForDomain _ _ _ _ _ | .release _ | .recordFailure _ => true
  | .recordBuilt _ _ _ | .recordBuildFailure _ | .tick _ _ _ => false

inductive DriverEvent (H : Type*)
  | dispatchBuild (profile : CircuitProfile)
  | advance (i : ℕ) (o : Outcome H)
  | tickOnce (picker : Picker) (order : List Router.Class) (now : ℕ)
  | act
  | use (call : PoolCall UInt64)

namespace PoolDriver

variable {H : Type*} (d : PoolDriver H)

def new (policy : PoolPolicy) : PoolDriver H :=
  ⟨.new policy, .new, 1, fun _ => .done, 0, [], none, [], [], []⟩

def setBuild (i : ℕ) (t : BuildTask H) : PoolDriver H :=
  { d with builds := Function.update d.builds i t }

def spawn (profile : CircuitProfile) : PoolDriver H :=
  { d.setBuild d.spawned (.selecting profile) with spawned := d.spawned + 1 }

def advance (i : ℕ) (o : Outcome H) : PoolDriver H :=
  match d.builds i with
  | .done => d
  | .selecting profile =>
    d.setBuild i (if o.selected then .building profile.cls else .failing profile.cls)
  | .building c =>
    match o.built with
    | none => d.setBuild i (.failing c)
    | some built =>
      { d.setBuild i (.registering d.nextId c built) with
        nextId := d.nextId + 1, issued := d.nextId :: d.issued }
  | .failing c => { d.setBuild i .done with pool := (d.pool.recordBuildFailure c).2 }
  | .registering id c built =>
    { d.setBuild i (.recording id c) with
      registry := d.registry.insert id built, inserted := (id, built) :: d.inserted }
  | .recording id c =>
    match d.pool.recordBuilt id c o.now with
    | (.ok _, pool) => { d.setBuild i .done with pool }
    | (.error _, pool) => { d.setBuild i (.refused id) with pool }
  | .refused id =>
    match d.registry.take id with
    | (some built, registry) => { d.setBuild i (.destroying id built) with registry }
    | (none, registry) => { d.setBuild i .done with registry }
  | .destroying id built => { d.setBuild i .done with destroyed := (id, built) :: d.destroyed }

def tickOnce (picker : Picker) (order : List Router.Class) (now : ℕ) : PoolDriver H :=
  match d.actions, d.destroying with
  | [], none =>
    let p := d.pool.tick picker order now
    { d with pool := p.2, actions := p.1 }
  | _, _ => d

def act : PoolDriver H :=
  match d.destroying, d.actions with
  | some x, _ => { d with destroying := none, destroyed := x :: d.destroyed }
  | none, [] => d
  | none, .buildCircuit profile :: rest => { d.spawn profile with actions := rest }
  | none, .drainCircuit id :: rest =>
    { d with registry := d.registry.markDraining id, actions := rest }
  | none, .retireCircuit id :: rest =>
    match d.registry.take id with
    | (built, registry) => { d with registry, actions := rest, destroying := built.map (id, ·) }

end PoolDriver

def PoolDriver.step {H : Type*} (keyed : Bytes32 → Bytes → Bytes32)
    (d : PoolDriver H) : DriverEvent H → PoolDriver H
  | .dispatchBuild profile => d.spawn profile
  | .advance i o => d.advance i o
  | .tickOnce picker order now => d.tickOnce picker order now
  | .act => d.act
  | .use call => if isUse call then { d with pool := d.pool.step keyed call } else d

end Mirage.Runtime
