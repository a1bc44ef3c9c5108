import Mathlib.Data.Finmap
import Mathlib.Data.Fintype.Defs
import Mirage.Mux.Frame
import Mirage.Lib.RoundRobin
import Mirage.Lib.Runs

/-!
# The mux state machine

`crates/mux/src/state.rs`, with the id allocator of `stream.rs` and the fields of `policy.rs` it
reads. A call returns its result and the state it leaves, so that what a failing call has already
changed shows.
-/

namespace Mirage.Mux

open Words

inductive StreamRole
  | initiator
  | responder
  deriving DecidableEq

namespace StreamRole

instance : Fintype StreamRole := ⟨{initiator, responder}, fun r => by cases r <;> decide⟩

def peer : StreamRole → StreamRole
  | initiator => responder
  | responder => initiator

/-- Whether an id is one the role allocates: initiators the even ones, responders the odd. -/
def owns (role : StreamRole) (id : UInt32) : Bool :=
  match role with
  | initiator => id % 2 = 0
  | responder => id % 2 = 1

def firstId : StreamRole → UInt32
  | initiator => 2
  | responder => 1

/-- `StreamIdAllocator::next`: the counter moves on by two, wrapping, before the id is looked at. -/
def allocate (role : StreamRole) (next : UInt32) : Option UInt32 :=
  let ok : Bool := match role with
    | initiator => next % 2 = 0 && next ≠ 0
    | responder => next % 2 = 1
  if ok then (if next = 0 then none else some next) else none

def allocations (role : StreamRole) : ℕ → UInt32 → List (Option UInt32)
  | 0, _ => []
  | n + 1, next => allocate role next :: allocations role n (next + 2)

end StreamRole

structure MuxPolicy where
  initialWindow : UInt32
  maxConcurrentStreams : UInt32
  maxPendingOutbound : ℕ
  drrQuantumBytes : ℕ

def MuxPolicy.default : MuxPolicy := ⟨65536, 256, 1024, 4096⟩

/-- What a frame takes from its stream's deficit: control frames are charged one byte. -/
def drrCost (f : MuxFrame) : ℕ := max f.body.length 1

def deficitRoundRobin (frames : List MuxFrame) (quantum : ℕ) : List MuxFrame :=
  if quantum = 0 ∨ frames.length < 2 then frames
  else
    let g := RoundRobin.group MuxFrame.streamId frames
    if g.order.length < 2 then (g.order.head?.map g.queues).getD []
    else RoundRobin.schedule MuxFrame.streamId drrCost quantum frames

inductive StreamState
  | synSent
  | synReceived
  | open
  | halfClosedLocal
  | halfClosedRemote
  | closed
  deriving DecidableEq

structure Stream where
  state : StreamState
  sendCredit : UInt32
  recvWindow : UInt32
  pendingTarget : Option MuxTarget
  deriving DecidableEq

inductive MuxStateError
  | frame (e : MuxFrameError)
  | target (e : TargetError)
  | unknownStream (id : UInt32)
  | foreignStreamId (id : UInt32)
  | badState (id : UInt32) (state : StreamState)
  | streamLimit (cap : UInt32)
  | streamIdExhausted
  | outboundQueueFull (cap : ℕ)
  | internal (msg : String)
  deriving DecidableEq

inductive MuxEvent
  | incoming (id : UInt32) (target : MuxTarget)
  | established (id : UInt32)
  | data (id : UInt32) (body : Bytes)
  | windowUpdate (id : UInt32) (delta : UInt32)
  | peerEndLocal (id : UInt32)
  | reset (id : UInt32) (code : UInt8)

structure MuxState where
  role : StreamRole
  policy : MuxPolicy
  streams : Finmap fun _ : UInt32 => Stream
  next : UInt32
  outbound : List MuxFrame
  openCount : UInt32

namespace MuxState

def new (role : StreamRole) (policy : MuxPolicy) : MuxState :=
  { role := role, policy := policy, streams := ∅, next := role.firstId, outbound := []
    openCount := 0 }

variable (m : MuxState)

def enqueue (frame : MuxFrame) : Except MuxStateError MuxState :=
  if m.policy.maxPendingOutbound ≤ m.outbound.length then
    .error (.outboundQueueFull m.policy.maxPendingOutbound)
  else .ok { m with outbound := m.outbound ++ [frame] }

/-- `MuxFrame::new` and `enqueue` with the two errors mapped as every caller does. -/
def emit (id : UInt32) (cmd : MuxCmd) (body : Bytes) : Except MuxStateError MuxState :=
  match MuxFrame.new id cmd body with
  | .error e => .error (.frame e)
  | .ok frame => m.enqueue frame

def setStream (id : UInt32) (s : Stream) : MuxState :=
  { m with streams := m.streams.insert id s }

def closeStream (id : UInt32) : MuxState :=
  match m.streams.lookup id with
  | none => m
  | some s =>
    { m with
      streams := m.streams.erase id
      openCount := if s.state ≠ .closed then satSub m.openCount 1 else m.openCount }

def freshStream (state : StreamState) (target : Option MuxTarget) : Stream :=
  ⟨state, m.policy.initialWindow, m.policy.initialWindow, target⟩

def openLocal (target : MuxTarget) : Except MuxStateError UInt32 × MuxState :=
  if m.policy.maxConcurrentStreams ≤ m.openCount then
    (.error (.streamLimit m.policy.maxConcurrentStreams), m)
  else
    let id := m.role.allocate m.next
    let m := { m with next := m.next + 2 }
    match id with
    | none => (.error .streamIdExhausted, m)
    | some id =>
      match target.encode with
      | .error e => (.error (.target e), m)
      | .ok bytes =>
        match m.emit id .begin bytes with
        | .error e => (.error e, m)
        | .ok m =>
          (.ok id, { m.setStream id (m.freshStream .synSent none) with
            openCount := m.openCount + 1 })

def accept (id : UInt32) : Except MuxStateError MuxTarget × MuxState :=
  match m.streams.lookup id with
  | none => (.error (.unknownStream id), m)
  | some s =>
    if s.state ≠ .synReceived then (.error (.badState id s.state), m)
    else match s.pendingTarget with
      | none => (.error (.internal "SynReceived missing pending_target"), m)
      | some target =>
        let m := m.setStream id { s with state := .open, pendingTarget := none }
        match m.emit id .beginOk [] with
        | .error e => (.error e, m)
        | .ok m => (.ok target, m)

def reject (id : UInt32) : Except MuxStateError Unit × MuxState :=
  match m.streams.lookup id with
  | none => (.error (.unknownStream id), m)
  | some s =>
    if s.state ≠ .synReceived then (.error (.badState id s.state), m)
    else match m.emit id .reset [0x01] with
      | .error e => (.error e, m)
      | .ok m => (.ok (), m.closeStream id)

/-- The bytes of `payload` that fit one frame and the credit. -/
def maxChunk (s : Stream) (payload : Bytes) : ℕ :=
  min (min maxMuxFrameBody s.sendCredit.toNat) payload.length

def sendData (id : UInt32) (payload : Bytes) : Except MuxStateError ℕ × MuxState :=
  match m.streams.lookup id with
  | none => (.error (.unknownStream id), m)
  | some s =>
    if ¬(s.state = .open ∨ s.state = .halfClosedRemote) then (.error (.badState id s.state), m)
    else if s.sendCredit = 0 then (.ok 0, m)
    else if maxChunk s payload = 0 then (.ok 0, m)
    else match m.emit id .data (payload.take (maxChunk s payload)) with
      | .error e => (.error e, m)
      | .ok m =>
        (.ok (maxChunk s payload), m.setStream id
          { s with sendCredit := satSub s.sendCredit (UInt32.ofNat (maxChunk s payload)) })

def endLocal (id : UInt32) : Except MuxStateError Unit × MuxState :=
  match m.streams.lookup id with
  | none => (.error (.unknownStream id), m)
  | some s =>
    match s.state with
    | .open =>
      match m.emit id .endLocal [] with
      | .error e => (.error e, m)
      | .ok m => (.ok (), m.setStream id { s with state := .halfClosedLocal })
    | .halfClosedRemote =>
      match m.emit id .endLocal [] with
      | .error e => (.error e, m)
      | .ok m => (.ok (), m.closeStream id)
    | other => (.error (.badState id other), m)

def reset (id : UInt32) (errorCode : UInt8) : Except MuxStateError Unit × MuxState :=
  match m.streams.lookup id with
  | none => (.error (.unknownStream id), m)
  | some _ =>
    match m.emit id .reset [errorCode] with
    | .error e => (.error e, m)
    | .ok m => (.ok (), m.closeStream id)

def grantCredit (id : UInt32) (delta : UInt32) : Except MuxStateError Unit × MuxState :=
  match m.streams.lookup id with
  | none => (.error (.unknownStream id), m)
  | some s =>
    if s.state = .closed then (.error (.badState id s.state), m)
    else match m.emit id .windowUpdate (beBytes 4 delta.toNat) with
      | .error e => (.error e, m)
      | .ok m => (.ok (), m.setStream id { s with recvWindow := satAdd s.recvWindow delta })

def recvBegin (id : UInt32) (body : Bytes) : Except MuxStateError MuxEvent × MuxState :=
  if ¬m.role.peer.owns id then
    match m.emit id .reset [0x03] with
    | .error e => (.error e, m)
    | .ok m => (.error (.foreignStreamId id), m)
  else match MuxTarget.decode body with
    | .error e => (.error (.target e), m)
    | .ok target =>
      match m.streams.lookup id with
      | some existing => (.error (.badState id existing.state), m)
      | none =>
        if m.policy.maxConcurrentStreams ≤ m.openCount then
          match m.emit id .reset [0x02] with
          | .error e => (.error e, m)
          | .ok m => (.error (.streamLimit m.policy.maxConcurrentStreams), m)
        else
          (.ok (.incoming id target),
            { m.setStream id (m.freshStream .synReceived (some target)) with
              openCount := m.openCount + 1 })

def recvBeginOk (id : UInt32) : Except MuxStateError MuxEvent × MuxState :=
  match m.streams.lookup id with
  | none => (.error (.unknownStream id), m)
  | some s =>
    if s.state ≠ .synSent then (.error (.badState id s.state), m)
    else (.ok (.established id), m.setStream id { s with state := .open })

def recvData (id : UInt32) (body : Bytes) : Except MuxStateError MuxEvent × MuxState :=
  match m.streams.lookup id with
  | none => (.error (.unknownStream id), m)
  | some s =>
    if ¬(s.state = .open ∨ s.state = .halfClosedLocal) then (.error (.badState id s.state), m)
    else
      let bytes := UInt32.ofNat body.length
      if s.recvWindow < bytes then
        match m.emit id .reset [0x03] with
        | .error e => (.error e, m)
        | .ok m => (.error (.badState id .closed), m.closeStream id)
      else
        (.ok (.data id body), m.setStream id { s with recvWindow := satSub s.recvWindow bytes })

def recvWindowUpdate (id : UInt32) (body : Bytes) : Except MuxStateError MuxEvent × MuxState :=
  if body.length ≠ 4 then (.error (.frame .bodyLength), m)
  else match m.streams.lookup id with
    | none => (.error (.unknownStream id), m)
    | some s =>
      let delta := UInt32.ofNat (beNat body)
      (.ok (.windowUpdate id delta),
        m.setStream id { s with sendCredit := satAdd s.sendCredit delta })

def recvEndLocal (id : UInt32) : Except MuxStateError MuxEvent × MuxState :=
  match m.streams.lookup id with
  | none => (.error (.unknownStream id), m)
  | some s =>
    match s.state with
    | .open => (.ok (.peerEndLocal id), m.setStream id { s with state := .halfClosedRemote })
    | .halfClosedLocal => (.ok (.peerEndLocal id), m.closeStream id)
    | other => (.error (.badState id other), m)

def recvReset (id : UInt32) (body : Bytes) : Except MuxStateError MuxEvent × MuxState :=
  match m.streams.lookup id with
  | none => (.error (.unknownStream id), m)
  | some _ => (.ok (.reset id (body.head?.getD 0xff)), m.closeStream id)

def recv (frame : MuxFrame) : Except MuxStateError MuxEvent × MuxState :=
  match frame.command with
  | .begin => m.recvBegin frame.streamId frame.body
  | .beginOk => m.recvBeginOk frame.streamId
  | .data => m.recvData frame.streamId frame.body
  | .windowUpdate => m.recvWindowUpdate frame.streamId frame.body
  | .endLocal => m.recvEndLocal frame.streamId
  | .reset => m.recvReset frame.streamId frame.body

def pendingOutbound : List MuxFrame × MuxState :=
  (deficitRoundRobin m.outbound m.policy.drrQuantumBytes, { m with outbound := [] })

def streamState (id : UInt32) : Option StreamState := (m.streams.lookup id).map (·.state)

end MuxState

/-!
## Mux endpoints

The calls of a `MuxState` as data, one endpoint driven by calls and inbound frames (`input`), and
two endpoints joined by FIFO channels that `pending_outbound` feeds (`Net`). A net keeps, for every
end and stream id, a log of what `send_data` consumed, what `recv` surfaced and what was granted
since the id was last opened.
-/

inductive MuxCall
  | openLocal (target : MuxTarget)
  | accept (id : UInt32)
  | reject (id : UInt32)
  | sendData (id : UInt32) (payload : Bytes)
  | endLocal (id : UInt32)
  | reset (id : UInt32) (code : UInt8)
  | grantCredit (id : UInt32) (delta : UInt32)
  | pendingOutbound
  deriving DecidableEq

inductive MuxReply
  | opened (id : UInt32)
  | accepted (target : MuxTarget)
  | consumed (n : ℕ)
  | done
  | drained (frames : List MuxFrame)

namespace MuxState

variable (m : MuxState)

def reply {α : Type} (f : α → MuxReply) (r : Except MuxStateError α × MuxState) :
    Except MuxStateError MuxReply × MuxState := (r.1.map f, r.2)

def call : MuxCall → Except MuxStateError MuxReply × MuxState
  | .openLocal target => reply .opened (m.openLocal target)
  | .accept id => reply .accepted (m.accept id)
  | .reject id => reply (fun _ => .done) (m.reject id)
  | .sendData id payload => reply .consumed (m.sendData id payload)
  | .endLocal id => reply (fun _ => .done) (m.endLocal id)
  | .reset id code => reply (fun _ => .done) (m.reset id code)
  | .grantCredit id delta => reply (fun _ => .done) (m.grantCredit id delta)
  | .pendingOutbound => (.ok (.drained m.pendingOutbound.1), m.pendingOutbound.2)

end MuxState

inductive MuxInput
  | call (c : MuxCall)
  | frame (f : MuxFrame)

def failure {α : Type} : Except MuxStateError α → Option MuxStateError
  | .error e => some e
  | .ok _ => none

def MuxState.input (m : MuxState) : MuxInput → Option MuxStateError × MuxState
  | .call c => (failure (m.call c).1, (m.call c).2)
  | .frame f => (failure (m.recv f).1, (m.recv f).2)

/-- What happened on a stream at one end since the stream's id was opened. -/
structure Log where
  consumed : Bytes := []
  surfaced : Bytes := []
  ended : Bool := false
  granted : ℕ := 0
  credited : ℕ := 0

inductive Effect
  | quiet
  | opened
  | consumed (bytes : Bytes)
  | granted (delta : ℕ)
  | surfaced (bytes : Bytes)
  | ended
  | credited (delta : ℕ)
  deriving DecidableEq

def Log.after (l : Log) : Effect → Log
  | .quiet => l
  | .opened => {}
  | .consumed bytes => { l with consumed := l.consumed ++ bytes }
  | .granted delta => { l with granted := l.granted + delta }
  | .surfaced bytes => { l with surfaced := l.surfaced ++ bytes }
  | .ended => { l with ended := true }
  | .credited delta => { l with credited := l.credited + delta }

def MuxCall.effect (c : MuxCall) (r : Except MuxStateError MuxReply) : UInt32 × Effect :=
  match c, r with
  | .openLocal _, .ok (.opened id) => (id, .opened)
  | .sendData id payload, .ok (.consumed n) => (id, .consumed (payload.take n))
  | .grantCredit id delta, .ok _ => (id, .granted delta.toNat)
  | _, _ => (0, .quiet)

def MuxEvent.effect : MuxEvent → UInt32 × Effect
  | .data id body => (id, .surfaced body)
  | .peerEndLocal id => (id, .ended)
  | .windowUpdate id delta => (id, .credited delta.toNat)
  | _ => (0, .quiet)

def recvEffect : Except MuxStateError MuxEvent → UInt32 × Effect
  | .ok ev => ev.effect
  | .error _ => (0, .quiet)

/-- `chan r` holds the frames on their way to `r`. -/
@[ext]
structure Net where
  side : StreamRole → MuxState
  chan : StreamRole → List MuxFrame
  log : StreamRole → UInt32 → Log

inductive NetEvent
  | call (r : StreamRole) (c : MuxCall)
  | deliver (r : StreamRole)

namespace Net

def init (policy : StreamRole → MuxPolicy) : Net where
  side r := .new r (policy r)
  chan _ := []
  log _ _ := {}

/-- The logs after an effect at end `r`: opening a stream starts them at both ends. -/
def logged (log : StreamRole → UInt32 → Log) (r : StreamRole) (e : UInt32 × Effect) :
    StreamRole → UInt32 → Log :=
  fun r' id =>
    if id = e.1 ∧ (r' = r ∨ e.2 = .opened) then (log r' id).after e.2 else log r' id

def drained : Except MuxStateError MuxReply → List MuxFrame
  | .ok (.drained frames) => frames
  | _ => []

def step (n : Net) : NetEvent → Net
  | .call r c =>
    let p := (n.side r).call c
    { side := Function.update n.side r p.2
      chan := Function.update n.chan r.peer (n.chan r.peer ++ drained p.1)
      log := logged n.log r (c.effect p.1) }
  | .deliver r =>
    match n.chan r with
    | [] => n
    | f :: rest =>
      let p := (n.side r).recv f
      { side := Function.update n.side r p.2
        chan := Function.update n.chan r rest
        log := logged n.log r (recvEffect p.1) }

end Net

end Mirage.Mux
