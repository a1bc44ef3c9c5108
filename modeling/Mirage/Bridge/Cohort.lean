import Mirage.Lib.Runs
import Mirage.Lib.Words

/-!
# The cohort of bridges

`CohortDistressMonitor` of `crates/bridge/src/cohort_distress.rs`, and one peer of `TcpCohortGossip`
in `crates/discovery/src/cohort_gossip_tcp.rs`: its bounded queue with the loop that connects and
writes. Instants are in nanoseconds.
-/

namespace Mirage.Cohort

open Words

structure DistressMonitorConfig where
  publishThreshold : UInt8
  republishInterval : ℕ
  minPublishInterval : ℕ

structure EntryDistressed where
  severity : UInt8
  observedAt : ℕ

/-- One pass of the loop: the sensor panics or has a reading at `now`; an event is published by
`after`. -/
structure Tick where
  reading : Option UInt8
  now : ℕ
  unixNow : ℕ
  after : ℕ

def Tick.severity (t : Tick) : UInt8 := t.reading.getD 255

structure DistressMonitor where
  lastPublishAt : Option ℕ := none
  lastActualPublish : Option ℕ := none
  lastSeverity : UInt8 := 0
  published : List EntryDistressed := []

namespace DistressMonitor

variable (config : DistressMonitorConfig)

variable (m : DistressMonitor)

def throttled (now : ℕ) : Bool :=
  m.lastActualPublish.any (now - · < config.minPublishInterval)

def shouldPublish (t : Tick) : Bool :=
  match m.lastPublishAt with
  | none => config.publishThreshold ≤ t.severity
  | some sent =>
    if config.publishThreshold ≤ t.severity then config.republishInterval ≤ t.now - sent
    else config.publishThreshold ≤ m.lastSeverity

def tick (t : Tick) : DistressMonitor :=
  if m.shouldPublish config t && !m.throttled config t.now then
    { lastPublishAt := if config.publishThreshold ≤ t.severity then some t.after else none
      lastActualPublish := some t.after
      lastSeverity := t.severity
      published := m.published ++ [⟨t.severity, t.unixNow⟩] }
  else { m with lastSeverity := t.severity }

def distressed : Bool :=
  m.published.getLast?.any (config.publishThreshold ≤ ·.severity)

end DistressMonitor

structure PeerQueue where
  depth : ℕ
  queue : List Bytes
  connected : Bool
  connections : ℕ
  written : List (ℕ × Bytes)
  drops : ℕ
  accepted : List Bytes

inductive GossipStep
  | publish (authorized verified fresh : Bool) (wire : Bytes)
  | connect (ok : Bool)
  /-- A frame is taken from the queue; its write may fail after some bytes. -/
  | write (failsAfter : Option ℕ)

def GossipStep.writeFails : GossipStep → Bool
  | .write failsAfter => failsAfter.isSome
  | _ => false

def GossipStep.isWrite : GossipStep → Bool
  | .write _ => true
  | _ => false

namespace PeerQueue

def new (depth : ℕ) : PeerQueue := ⟨depth, [], false, 0, [], 0, []⟩

def step (p : PeerQueue) : GossipStep → PeerQueue
  | .publish authorized verified fresh wire =>
    if !authorized || !verified || !fresh then p
    else if p.queue.length < p.depth then
      { p with queue := p.queue ++ [wire], accepted := p.accepted ++ [wire] }
    else { p with drops := p.drops + 1 }
  | .connect ok =>
    if p.connected || !ok then p
    else { p with connected := true, connections := p.connections + 1 }
  | .write failsAfter =>
    if !p.connected then p
    else match p.queue, failsAfter with
      | [], _ => p
      | payload :: queue, none =>
        { p with queue, written := p.written ++ [(p.connections, payload)] }
      | payload :: queue, some n =>
        { p with
          queue
          written := p.written ++ [(p.connections, payload.take n)]
          connected := false }

end PeerQueue

end Mirage.Cohort
