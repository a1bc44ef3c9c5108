import Mirage.Bridge.Executor
import Mirage.Bridge.Router

/-!
# The task of a session

`crates/bridge/src/session_task.rs`: the loop that serves one connection from a previous hop. An arm
waits along the way while others go on: it is the list of what it still has to do (`agenda`), and
each entry is one step, with an `Outcome` for what the outside answers. History: `lives` counts the
circuits an id has stood for, `openers` says which of them opened a connection, and `injected` is
what was sealed toward the client.
-/

namespace Mirage.Bridge

open Circuits Words Maps

inductive NextHopError
  | synthDestroy (e : CellError)
  | exitEventEncode (streamId : StreamId) (e : ExtendError)

inductive DaemonError
  | io
  | bridge (e : BridgeCircuitError)
  | readTimeout
  | nextHop (e : NextHopError)
  | relayMisconfigured (relayMode tokenVerify : Bool)

def isRendezvousCmd (cmd : UInt8) : Bool :=
  cmd = cmdEstablishIntro || cmd = cmdEstablishRendezvous || cmd = cmdIntroduce ||
    cmd = cmdRendezvous

/-- The sub-cells for an event of the exit, small enough for the layers of every hop. -/
def encodeExitEventChunked : StreamEvent → Except ExtendError (List Bytes)
  | .data streamId bytes =>
    (Records.chunks (max maxReverseRelayDataBytes 1) bytes).mapM fun chunk =>
      RelaySubCell.encode ⟨cmdData, DataBody.encode ⟨streamId, chunk⟩⟩
  | .ended streamId => do
    let payload ← RelaySubCell.encode ⟨cmdEnd, EndBody.encode ⟨streamId⟩⟩
    pure [payload]

inductive Task
  | act (a : BridgeAction)
  /-- The rest of the payloads for one event of a connection of the exit. -/
  | inject (circId : UInt32) (origin : ℕ) (now : Instant) (payloads : List Bytes)
  | sweep

structure CircuitLife where
  circId : UInt32
  life : ℕ
  deriving DecidableEq

structure Injection where
  circId : UInt32
  origin : ℕ
  payload : Bytes

structure SessionTask where
  state : BridgeCircuitState
  executor : BridgeCircuitExecutor
  streamToCirc : AList fun _ : StreamId => UInt32
  rendezvous : Option RendezvousRouter
  rvHandle : UInt64
  rvCircuits : List UInt32
  agenda : List Task
  written : List Cell
  result : Option (Except DaemonError Unit)
  lives : UInt32 → ℕ
  openers : List CircuitLife
  injected : List Injection

structure Outcome where
  now : Instant
  handshake : Option (HopKeys × Bytes)
  answer : Option (List Cell)
  sent : Bool
  written : Bool
  validToken : Bool
  net : Network

namespace SessionTask

def new (state : BridgeCircuitState) (executor : BridgeCircuitExecutor) : SessionTask where
  state := state
  executor := executor
  streamToCirc := ∅
  rendezvous := none
  rvHandle := 0
  rvCircuits := []
  agenda := []
  written := []
  result := none
  lives := fun _ => 0
  openers := []
  injected := []

variable (A : Aead) (S : Ed25519) (t : SessionTask)

def withRendezvous (router : RendezvousRouter) : SessionTask :=
  { t with rvHandle := router.registerSession.1, rendezvous := some router.registerSession.2 }

def finish (result : Except DaemonError Unit) : SessionTask :=
  { t with
    result := some result
    agenda := []
    rendezvous := t.rendezvous.map fun r => (r.forgetSession t.rvHandle t.rvCircuits).2 }

def checkRelayTokenCoupling : SessionTask :=
  if t.state.relayMode ≠ t.executor.tokenVerify then
    t.finish (.error (.relayMisconfigured t.state.relayMode t.executor.tokenVerify))
  else t

def start (state : BridgeCircuitState) (executor : BridgeCircuitExecutor)
    (router : Option RendezvousRouter) : SessionTask :=
  checkRelayTokenCoupling <| match router with
    | none => new state executor
    | some r => (new state executor).withRendezvous r

def executeActions (actions : List BridgeAction) : SessionTask :=
  { t with agenda := actions.map .act ++ t.agenda }

def record (reply : Reply) : SessionTask :=
  match reply with
  | (.ok actions, bc) => { t with state := bc }.executeActions actions
  | (.error e, bc) => { t with state := bc }.finish (.error (.bridge e))

def purgeStreams (circId : UInt32) : SessionTask :=
  { t with streamToCirc := retain (fun v => v ≠ circId) t.streamToCirc }

def reapCircuit (inCircId : UInt32) (now : Instant) : SessionTask :=
  let t := t.purgeStreams inCircId
  let t := { t with executor := t.executor.forgetPendingResponder inCircId }
  match Cell.new inCircId cmdDestroy [] with
  | .error e => t.finish (.error (.nextHop (.synthDestroy e)))
  | .ok cell =>
    let reply := t.state.processInboundFromPrev A cell now
    { t with state := reply.2 }.executeActions (actionsOf reply.1)

def reapCircuitByOutId (outCircId : UInt32) (now : Instant) : SessionTask :=
  let t := match t.state.inCircIdFor outCircId with
    | some inCircId => t.purgeStreams inCircId
    | none => t
  match Cell.new outCircId cmdDestroy [] with
  | .error e => t.finish (.error (.nextHop (.synthDestroy e)))
  | .ok cell =>
    let reply := t.state.processInboundFromNext A cell now
    { t with state := reply.2 }.executeActions (actionsOf reply.1)

def sendRendezvousSub (inCircId : UInt32) (cmd : UInt8) (body : Bytes) (now : Instant) :
    SessionTask :=
  match RelaySubCell.encode ⟨cmd, body⟩ with
  | .error _ => t
  | .ok payload =>
    let reply := t.state.injectExitResponse A inCircId payload now
    { t with state := reply.2 }.executeActions (actionsOf reply.1)

def holdRole (inCircId : UInt32) : SessionTask :=
  { t with rvCircuits := t.rvCircuits.insert inCircId }

def handleRendezvous (inCircId : UInt32) (cmd : UInt8) (body : Bytes) (now : Instant) :
    SessionTask :=
  match t.rendezvous with
  | none => t
  | some router =>
    let circ : CircuitRef := ⟨t.rvHandle, inCircId⟩
    if cmd = cmdEstablishIntro then
      let p := router.establishIntro S circ body now
      let t := { t with rendezvous := some p.2 }
      match p.1 with
      | .ok _ => (t.holdRole inCircId).sendRendezvousSub A inCircId cmdEstablishIntroOk [] now
      | .error _ => t
    else if cmd = cmdEstablishRendezvous then
      let p := router.establishRendezvous circ body now
      let t := { t with rendezvous := some p.2 }
      match p.1 with
      | .ok _ => (t.holdRole inCircId).sendRendezvousSub A inCircId cmdRendezvousOk [] now
      | .error _ => t
    else if cmd = cmdIntroduce then
      if body.length < 32 then t
      else { t with rendezvous := some (router.introduce (vec 32 body) (body.drop 32) now).2 }
    else if cmd = cmdRendezvous then
      let p := router.rendezvous circ body now
      let t := { t with rendezvous := some p.2 }
      match p.1 with
      | .ok _ => t.holdRole inCircId
      | .error _ => t
    else t

def relayBetweenPartners (inCircId : UInt32) (sub : RelaySubCell) : SessionTask :=
  { t with
    rendezvous := t.rendezvous.map fun router =>
      (router.relayToPartner ⟨t.rvHandle, inCircId⟩ sub.command sub.body).2 }

/-- The return path of a stream follows its `BEGIN` and its `END`. -/
def trackStream (inCircId : UInt32) (sub : RelaySubCell) : SessionTask :=
  if sub.command = cmdBegin then
    match BeginBody.decode sub.body with
    | .ok b => { t with streamToCirc := t.streamToCirc.insert b.streamId inCircId }
    | .error _ => t
  else if sub.command = cmdEnd then
    match EndBody.decode sub.body with
    | .ok b => { t with streamToCirc := t.streamToCirc.erase b.streamId }
    | .error _ => t
  else t

def exitPayload (inCircId : UInt32) (payload : Bytes) (o : Outcome) : SessionTask :=
  let p := t.executor.handleExitPayload o.net payload
  let t := { t with
    executor := p.2
    openers :=
      if t.executor.dispatcher.upstreams.length < p.2.dispatcher.upstreams.length then
        t.openers ++ [⟨inCircId, t.lives inCircId⟩]
      else t.openers }
  match p.1 with
  | .ok () => t
  | .error _ => t.reapCircuit A inCircId o.now

def relayPayloadAtExit (inCircId : UInt32) (payload : Bytes) (o : Outcome) : SessionTask :=
  match RelaySubCell.decode payload with
  | .error _ => t.exitPayload A inCircId payload o
  | .ok sub =>
    if t.rendezvous.isSome && isRendezvousCmd sub.command then
      t.handleRendezvous A S inCircId sub.command sub.body o.now
    else if inCircId ∈ t.rvCircuits then t.relayBetweenPartners inCircId sub
    else (t.trackStream inCircId sub).exitPayload A inCircId payload o

def execute (o : Outcome) : BridgeAction → SessionTask
  | .performHandshake inCircId _ =>
    let t := { t with executor := t.executor.performHandshake inCircId o.handshake }
    match o.handshake with
    | some (keys, hsMsg2) => t.record (t.state.recordCreateComplete inCircId keys hsMsg2 o.now)
    | none => t.reapCircuit A inCircId o.now
  | .sendToPrev _ cell =>
    if o.written then { t with written := t.written ++ [cell] } else t.finish (.error .io)
  | .openNextHop inCircId outCircId _ _ hsMsg1 =>
    let p := t.executor.openNextHop outCircId hsMsg1 o.answer
    let t := { t with executor := p.2 }
    match p.1 with
    | some hsMsg2 => t.record (t.state.recordExtendComplete A inCircId hsMsg2 o.now)
    | none => t.reapCircuit A inCircId o.now
  | .sendToNext outCircId cell =>
    let p := t.executor.sendToNext outCircId cell o.sent
    let t := { t with executor := p.2 }
    if p.1 then t else t.reapCircuitByOutId A outCircId o.now
  | .forwardExtendFinishToNext outCircId hsMsg3 =>
    let p := t.executor.forwardExtendFinish outCircId hsMsg3 o.sent
    let t := { t with executor := p.2 }
    if p.1 then t else t.reapCircuitByOutId A outCircId o.now
  | .verifyExtendFinish inCircId _ =>
    let p := t.executor.verifyExtendFinish inCircId o.validToken
    let t := { t with executor := p.2 }
    if p.1 then
      let reply := t.state.recordTokenVerified inCircId
      t.record (reply.1.map fun _ => [], reply.2)
    else t.reapCircuit A inCircId o.now
  | .destroyPrevLink inCircId =>
    { t with executor := t.executor.forgetPendingResponder inCircId }
  | .destroyNextLink outCircId => { t with executor := t.executor.destroyNextLink outCircId o.sent }
  | .relayPayloadAtExit inCircId payload => t.relayPayloadAtExit A S inCircId payload o

/-- One payload of the loop in `handle_exit_event`; an error leaves the loop. -/
def injectNext (inCircId : UInt32) (origin : ℕ) (now : Instant) : List Bytes → SessionTask
  | [] => t
  | payload :: payloads =>
    match t.state.injectExitResponse A inCircId payload now with
    | (.ok actions, bc) =>
      let t := { t with
        state := bc
        injected := t.injected ++ [Injection.mk inCircId origin payload]
        agenda := .inject inCircId origin now payloads :: t.agenda }
      t.executeActions actions
    | (.error _, bc) => { t with state := bc }

def perform (o : Outcome) : Task → SessionTask
  | .act a => t.execute A S o a
  | .inject inCircId origin now payloads => t.injectNext A inCircId origin now payloads
  | .sweep => { t with rendezvous := t.rendezvous.map fun router => (router.tick o.now).2 }

/-- The id stands for one circuit more if it had no entry and now has one. -/
def countLife (id : UInt32) (bc : BridgeCircuitState) : UInt32 → ℕ :=
  if t.state.circuits.lookup id = none ∧ (bc.circuits.lookup id).isSome then
    Function.update t.lives id (t.lives id + 1)
  else t.lives

def handleCell (cell : Cell) (now : Instant) : SessionTask :=
  match t.state.processInboundFromPrev A cell now with
  | (.ok actions, bc) =>
    { t with state := bc, lives := t.countLife cell.circId bc }.executeActions actions
  | (.error _, bc) =>
    let p := bc.reapCircuit cell.circId now
    { t with state := p.2, lives := t.countLife cell.circId p.2 }.executeActions p.1

def handleExitEvent (now : Instant) : SessionTask :=
  match t.executor.dispatcher.events with
  | [] => t
  | (origin, event) :: events =>
    let t := { t with
      executor :=
        { t.executor with dispatcher := { t.executor.dispatcher with events := events } } }
    match t.streamToCirc.lookup event.streamId with
    | none => t
    | some inCircId =>
      match encodeExitEventChunked event with
      | .error e => t.finish (.error (.nextHop (.exitEventEncode event.streamId e)))
      | .ok payloads => { t with agenda := [.inject inCircId origin now payloads] }

def handleNextHopCell (now : Instant) : SessionTask :=
  match t.executor.inbound with
  | [] => t
  | (_, cell) :: inbound =>
    let t := { t with executor := { t.executor with inbound := inbound } }
    match t.state.processInboundFromNext A cell now with
    | (.ok actions, bc) => { t with state := bc }.executeActions actions
    | (.error _, bc) => { t with state := bc }.reapCircuitByOutId A cell.circId now

def deliverRendezvous (now : Instant) : SessionTask :=
  match t.rendezvous with
  | none => t
  | some router =>
    match router.receive t.rvHandle with
    | (none, _) => t
    | (some d, router) =>
      { t with rendezvous := some router }.sendRendezvousSub A d.circId d.cmd d.body now

def handleTick (order : List UInt32) (now : Instant) : SessionTask :=
  let p := t.state.tick order now
  { t with state := p.2, agenda := [.sweep] }.executeActions p.1

end SessionTask

inductive Arm
  | cell (buf : Bytes) (now : Instant)
  | eof
  | readFailed
  | readTimeout
  | exitEvent (now : Instant)
  | nextHopCell (now : Instant)
  | delivery (now : Instant)
  | tick (order : List UInt32) (now : Instant)

/-- An arm is taken, the arm that was taken goes on, or something around the session moves. -/
inductive SessionEvent
  | arm (a : Arm)
  | next (o : Outcome)
  | exitPump (e : PumpEvent)
  | arrive (link : ℕ) (cell : Cell)
  | linkClosed (link : ℕ)
  | other (c : RouterCall)

namespace SessionTask

variable (A : Aead) (S : Ed25519) (t : SessionTask)

def takeArm : Arm → SessionTask
  | .cell buf now =>
    match Cell.decode buf with
    | .ok cell => t.handleCell A cell now
    | .error _ => t.finish (.error .io)
  | .eof => t.finish (.ok ())
  | .readFailed => t.finish (.error .io)
  | .readTimeout => t.finish (.error .readTimeout)
  | .exitEvent now => t.handleExitEvent now
  | .nextHopCell now => t.handleNextHopCell A now
  | .delivery now => t.deliverRendezvous A now
  | .tick order now => t.handleTick order now

def next (o : Outcome) : SessionTask :=
  match t.agenda with
  | [] => t
  | task :: agenda => { t with agenda := agenda }.perform A S o task

def around : SessionEvent → SessionTask
  | .exitPump e =>
    { t with executor := { t.executor with dispatcher := t.executor.dispatcher.pump e } }
  | .arrive link cell => { t with executor := t.executor.arrive link cell }
  | .linkClosed link => { t with executor := t.executor.linkClosed link }
  | .other c =>
    if c.session = some t.rvHandle then t
    else { t with rendezvous := t.rendezvous.map fun router => router.step S c }
  | .arm _ => t
  | .next _ => t

def step (e : SessionEvent) : SessionTask :=
  if t.result.isSome then t
  else match e with
    | .arm a => if t.agenda = [] then t.takeArm A a else t
    | .next o => t.next A S o
    | e => t.around S e

end SessionTask

/-- When an event of the loop comes. The ends of the read are no events. -/
def Arm.time : Arm → Option Instant
  | .cell _ now | .exitEvent now | .nextHopCell now | .delivery now | .tick _ now => some now
  | .eof | .readFailed | .readTimeout => none

def Arm.isCell : Arm → Bool
  | .cell _ _ => true
  | _ => false

/-- The loop with its clock: the read has its deadline from when the turn `began`. -/
structure TimedTask where
  task : SessionTask
  began : Instant
  lastCell : Instant
  handled : List Instant

namespace TimedTask

variable (A : Aead) (S : Ed25519) (cellReadTimeout : Option ℕ)

def waits (s : TimedTask) : Bool := s.task.result.isNone && s.task.agenda.isEmpty

/-- A turn ends with the event or the deadline of its read, whichever comes first. -/
def turn (s : TimedTask) (e : Arm × List Outcome) : TimedTask :=
  match e.1.time with
  | none => s
  | some now =>
    if !s.waits then s
    else if cellReadTimeout.any (s.began + · < now) then
      { s with task := s.task.takeArm A .readTimeout }
    else
      { task := e.2.foldl (fun t o => t.step A S (.next o)) (s.task.takeArm A e.1)
        began := now
        lastCell := if e.1.isCell then now else s.lastCell
        handled := s.handled ++ [now] }

end TimedTask

end Mirage.Bridge
