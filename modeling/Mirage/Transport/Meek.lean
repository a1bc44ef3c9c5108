import Mathlib.Logic.Function.Basic
import Mirage.Lib.Words

/-!
# The drivers of meek

`crates/transport-meek/src/lib.rs`: a `MeekClientStream` and a `MeekServerStream` over one TCP
connection that does not fail, between `meek_client_driver` and `serve_connection_against_session`.
What is on the connection is part of where the drivers are (`Turn`). Of the headers only the length
of the body is kept.
-/

namespace Mirage.Transport

open Words

def meekAuthFrameLen : ℕ := 72

def meekMaxRequestBody : ℕ := 65536

def meekMaxSessionBuffer : ℕ := 1024 * 1024

structure MeekStream where
  inboundRx : List Bytes
  inboundBuf : Bytes
  outbound : List Bytes
  flushes : ℕ
  written : Bytes
  delivered : Bytes

inductive Wake
  | flush
  | data
  | timer
  deriving DecidableEq

namespace MeekStream

def new : MeekStream := ⟨[], [], [], 0, [], []⟩

variable (m : MeekStream)

def pollWrite (buf : Bytes) : MeekStream :=
  { m with outbound := m.outbound ++ [buf], written := m.written ++ buf }

def pollFlush : MeekStream := { m with flushes := m.flushes + 1 }

/-- The first part is the length of the chunk that has left the channel. -/
def pollRead (remaining : ℕ) : ℕ × MeekStream :=
  if m.inboundBuf ≠ [] then
    (0, { m with
      inboundBuf := m.inboundBuf.drop remaining
      delivered := m.delivered ++ m.inboundBuf.take remaining })
  else match m.inboundRx with
    | [] => (0, m)
    | chunk :: chunks =>
      (chunk.length, { m with
        inboundRx := chunks
        inboundBuf := chunk.drop remaining
        delivered := m.delivered ++ chunk.take remaining })

def woken : Wake → Bool
  | .flush => 0 < m.flushes
  | .data => m.outbound ≠ []
  | .timer => true

def queued : Bytes := m.outbound.flatten

/-- However the wait has ended, everything that is queued is collected. -/
def collectOutbound (w : Wake) : MeekStream :=
  { m with outbound := [], flushes := if w = .flush then m.flushes - 1 else m.flushes }

def push (body : Bytes) : MeekStream :=
  if body = [] then m else { m with inboundRx := m.inboundRx ++ [body] }

end MeekStream

inductive Turn
  /-- The client waits for the first flush, and the bridge for the first POST. -/
  | starting (frame : Vector UInt8 meekAuthFrameLen)
  | idle
  | posted (first : Bool) (body : Bytes)
  /-- The bridge waits in `collect_outbound`. -/
  | serving
  | answered (body : Bytes)
  | over
  deriving DecidableEq

inductive Side
  | client
  | bridge
  deriving DecidableEq

def Side.other : Side → Side
  | .client => .bridge
  | .bridge => .client

structure Meek where
  stream : Side → MeekStream
  inboundBuffered : ℕ
  turn : Turn
  rounds : ℕ

inductive MeekEvent
  | write (s : Side) (buf : Bytes)
  | flush (s : Side)
  | read (s : Side) (remaining : ℕ)
  | post (w : Wake)
  | serve
  | respond (w : Wake)
  | receive

namespace Meek

def start (frame : Vector UInt8 meekAuthFrameLen) : Meek := ⟨fun _ => .new, 0, .starting frame, 0⟩

variable (t : Meek)

def held : Side → Bool
  | .client => true
  | .bridge => match t.turn with
    | .starting _ => false
    | .posted first _ => !first
    | _ => true

def set (s : Side) (m : MeekStream) : Meek := { t with stream := Function.update t.stream s m }

def read (s : Side) (remaining : ℕ) : Meek :=
  let p := (t.stream s).pollRead remaining
  match s with
  | .client => t.set .client p.2
  | .bridge => { t.set .bridge p.2 with inboundBuffered := t.inboundBuffered - p.1 }

def posts (w : Wake) : Bool :=
  match t.turn with
  | .starting _ => w = .flush && (t.stream .client).woken w
  | .idle => w ≠ .data && (t.stream .client).woken w
  | _ => false

/-- What goes before the queued bytes in a POST. -/
def pendingPrefix : Bytes :=
  match t.turn with
  | .starting frame => frame.toList
  | _ => []

def post (w : Wake) : Meek :=
  if t.posts w then
    { t.set .client ((t.stream .client).collectOutbound w) with
      turn := .posted (!t.held .bridge) (t.pendingPrefix ++ (t.stream .client).queued) }
  else t

def payload (first : Bool) (body : Bytes) : Bytes :=
  if first then body.drop meekAuthFrameLen else body

def serve : Meek :=
  match t.turn with
  | .posted first body =>
    if meekMaxRequestBody < body.length then { t with turn := .over }
    else if first && body.length < meekAuthFrameLen then { t with turn := .over }
    else if payload first body ≠ [] ∧
        meekMaxSessionBuffer < t.inboundBuffered + (payload first body).length then
      { t with turn := .over }
    else
      { t.set .bridge ((t.stream .bridge).push (payload first body)) with
        inboundBuffered := t.inboundBuffered + (payload first body).length
        turn := .serving }
  | _ => t

def responds (w : Wake) : Bool := t.turn = .serving && (t.stream .bridge).woken w

def respond (w : Wake) : Meek :=
  if t.responds w then
    { t.set .bridge ((t.stream .bridge).collectOutbound w) with
      turn := .answered (t.stream .bridge).queued }
  else t

/-- `read_http_response`, and what the driver does with the body. -/
def receive : Meek :=
  match t.turn with
  | .answered body =>
    if meekMaxRequestBody < body.length then { t with turn := .over }
    else
      { t.set .client ((t.stream .client).push body) with
        turn := .idle
        rounds := t.rounds + 1 }
  | _ => t

def step : MeekEvent → Meek
  | .write s buf => if t.held s then t.set s ((t.stream s).pollWrite buf) else t
  | .flush s => if t.held s then t.set s (t.stream s).pollFlush else t
  | .read s remaining => if t.held s then t.read s remaining else t
  | .post w => t.post w
  | .serve => t.serve
  | .respond w => t.respond w
  | .receive => t.receive

end Meek

/-! ## The sessions of many connections -/

/-- Where a connection is with the body of a POST, of which only the length is kept. -/
inductive Posting
  | idle
  /-- The body has passed the check against the cap. -/
  | checked (len : ℕ)
  /-- It has been added to `inbound_buffered`. -/
  | added (len : ℕ)
  | closed
  deriving DecidableEq

/-- `inbound` is what the channel holds, `received` a chunk taken from it and not yet subtracted. -/
structure SessionEntry (n : ℕ) where
  inboundBuffered : ℕ
  inbound : List ℕ
  conn : Fin n → Posting
  received : Option ℕ
  reading : Bool

inductive EntryStep (n : ℕ)
  | load (i : Fin n) (len : ℕ)
  | fetchAdd (i : Fin n)
  | send (i : Fin n)
  | recv
  | fetchUpdate
  | dropReader

namespace SessionEntry

variable {n : ℕ}

def new : SessionEntry n := ⟨0, [], fun _ => .idle, none, true⟩

def set (s : SessionEntry n) (i : Fin n) (p : Posting) : SessionEntry n :=
  { s with conn := Function.update s.conn i p }

/-- `saturating_add` and the comparison. -/
def overCap (s : SessionEntry n) (len : ℕ) : Bool :=
  meekMaxSessionBuffer < min (s.inboundBuffered + len) (2 ^ 64 - 1)

def step (s : SessionEntry n) : EntryStep n → SessionEntry n
  | .load i len =>
    if s.conn i = .idle ∧ 0 < len ∧ len ≤ meekMaxRequestBody then
      s.set i (if s.overCap len then .closed else .checked len)
    else s
  | .fetchAdd i => match s.conn i with
    | .checked len =>
      { s.set i (.added len) with inboundBuffered := (s.inboundBuffered + len) % 2 ^ 64 }
    | _ => s
  | .send i => match s.conn i with
    | .added len =>
      if s.reading then { s.set i .idle with inbound := s.inbound ++ [len] } else s.set i .closed
    | _ => s
  | .recv => match s.received, s.inbound with
    | none, len :: rest => { s with inbound := rest, received := some len }
    | _, _ => s
  | .fetchUpdate => match s.received with
    | some len => { s with inboundBuffered := s.inboundBuffered - len, received := none }
    | none => s
  | .dropReader => if s.received = none then { s with inbound := [], reading := false } else s

end SessionEntry

end Mirage.Transport
