import Mirage.Circuit.Rendezvous

/-!
# Routing between sessions

`crates/bridge/src/rendezvous_router.rs`: the rendezvous tables of the bridge and the delivery
channel of every session, which is the queue of its deliveries and whether somebody still receives.
A `rendezvous` changes the tables before it looks for the channel.
-/

namespace Mirage.Bridge

open Circuits Words Maps

def deliveryQueue : ℕ := 64

structure Delivery where
  circId : UInt32
  cmd : UInt8
  body : Bytes

inductive RouteError
  | noSuchSession
  | backlogged
  | rendezvous (e : RendezvousError)
  deriving DecidableEq

structure Mailbox where
  queue : List Delivery
  receiving : Bool

def Mailbox.new : Mailbox := ⟨[], true⟩

def Mailbox.trySend (m : Mailbox) (d : Delivery) : Except RouteError Mailbox :=
  if !m.receiving then .error .noSuchSession
  else if deliveryQueue ≤ m.queue.length then .error .backlogged
  else .ok { m with queue := m.queue ++ [d] }

structure RendezvousRouter where
  state : RendezvousState
  sessions : AList fun _ : UInt64 => Mailbox
  nextSession : UInt64

namespace RendezvousRouter

def new : RendezvousRouter := ⟨.new, ∅, 0⟩

variable (S : Ed25519) (r : RendezvousRouter)

def registerSession : UInt64 × RendezvousRouter :=
  (r.nextSession,
    { r with
      sessions := r.sessions.insert r.nextSession .new
      nextSession := r.nextSession + 1 })

/-- Forgets the roles of the circuits, and returns the partners that are left alone. -/
def forgetCircuits (handle : UInt64) :
    List UInt32 → RendezvousState → List CircuitRef × RendezvousState
  | [], rv => ([], rv)
  | c :: cs, rv =>
    let p := rv.forget ⟨handle, c⟩
    let q := forgetCircuits handle cs p.2
    (p.1.toList ++ q.1, q.2)

def forgetSession (handle : UInt64) (circIds : List UInt32) : List CircuitRef × RendezvousRouter :=
  let p := forgetCircuits handle circIds r.state
  (p.1, { r with state := p.2, sessions := r.sessions.erase handle })

def establishIntro (circ : CircuitRef) (body : Bytes) (now : Instant) :
    Except RouteError RendezvousAction × RendezvousRouter :=
  let p := r.state.establishIntro S circ body now
  (p.1.mapError .rendezvous, { r with state := p.2 })

def establishRendezvous (circ : CircuitRef) (cookie : Bytes) (now : Instant) :
    Except RouteError RendezvousAction × RendezvousRouter :=
  let p := r.state.establishRendezvous circ cookie now
  (p.1.mapError .rendezvous, { r with state := p.2 })

def deliver (circ : CircuitRef) (cmd : UInt8) (body : Bytes) :
    Except RouteError CircuitRef × RendezvousRouter :=
  match r.sessions.lookup circ.session with
  | none => (.error .noSuchSession, r)
  | some m =>
    match m.trySend ⟨circ.circId, cmd, body⟩ with
    | .error e => (.error e, r)
    | .ok m => (.ok circ, { r with sessions := r.sessions.insert circ.session m })

def introduce (introAuthPk : Bytes32) (body : Bytes) (now : Instant) :
    Except RouteError CircuitRef × RendezvousRouter :=
  match r.state.introduce introAuthPk body now with
  | .error e => (.error (.rendezvous e), r)
  | .ok (.forwardIntroduce toCirc body) => r.deliver toCirc cmdIntroduce body
  | .ok _ => (.error .noSuchSession, r)

def rendezvous (serviceCirc : CircuitRef) (body : Bytes) (now : Instant) :
    Except RouteError CircuitRef × RendezvousRouter :=
  match r.state.rendezvous serviceCirc body now with
  | (.error e, rv) => (.error (.rendezvous e), { r with state := rv })
  | (.ok (.join clientCirc _ pk), rv) =>
    { r with state := rv }.deliver clientCirc cmdRendezvous pk.toList
  | (.ok _, rv) => (.error .noSuchSession, { r with state := rv })

def relayToPartner (source : CircuitRef) (cmd : UInt8) (body : Bytes) :
    Except RouteError CircuitRef × RendezvousRouter :=
  match r.state.partner source with
  | none => (.error .noSuchSession, r)
  | some partner => r.deliver partner cmd body

def tick (now : Instant) : List RendezvousAction × RendezvousRouter :=
  let p := r.state.tick now
  (p.1, { r with state := p.2 })

def receive (handle : UInt64) : Option Delivery × RendezvousRouter :=
  match r.sessions.lookup handle with
  | some ⟨d :: queue, receiving⟩ =>
    (some d, { r with sessions := r.sessions.insert handle ⟨queue, receiving⟩ })
  | _ => (none, r)

end RendezvousRouter

inductive RouterCall
  | registerSession
  | forgetSession (handle : UInt64) (circIds : List UInt32)
  | establishIntro (circ : CircuitRef) (body : Bytes) (now : Instant)
  | establishRendezvous (circ : CircuitRef) (cookie : Bytes) (now : Instant)
  | introduce (introAuthPk : Bytes32) (body : Bytes) (now : Instant)
  | rendezvous (serviceCirc : CircuitRef) (body : Bytes) (now : Instant)
  | relayToPartner (source : CircuitRef) (cmd : UInt8) (body : Bytes)
  | tick (now : Instant)
  | receive (handle : UInt64)

def RouterCall.session : RouterCall → Option UInt64
  | .forgetSession handle _ => some handle
  | .establishIntro circ _ _ => some circ.session
  | .establishRendezvous circ _ _ => some circ.session
  | .rendezvous circ _ _ => some circ.session
  | .relayToPartner circ _ _ => some circ.session
  | .receive handle => some handle
  | _ => none

def RendezvousRouter.step (S : Ed25519) (r : RendezvousRouter) : RouterCall → RendezvousRouter
  | .registerSession => r.registerSession.2
  | .forgetSession handle circIds => (r.forgetSession handle circIds).2
  | .establishIntro circ body now => (r.establishIntro S circ body now).2
  | .establishRendezvous circ cookie now => (r.establishRendezvous circ cookie now).2
  | .introduce pk body now => (r.introduce pk body now).2
  | .rendezvous circ body now => (r.rendezvous circ body now).2
  | .relayToPartner source cmd body => (r.relayToPartner source cmd body).2
  | .tick now => (r.tick now).2
  | .receive handle => (r.receive handle).2

end Mirage.Bridge
