import Mirage.Mux.State

/-!
# The connection driver

`crates/mux/src/conn.rs`: the state that the reader, the writer and the stream handles of a
`MuxConnection` share, and their critical sections as steps. A `StreamShared` is known by its
reference, the place its `Arc` was made at. Wakers and the teardown of the connection are left out.
-/

namespace Mirage.Mux

open Words

structure OutBuf where
  buf : Bytes := []
  ending : Bool := false
  endedSent : Bool := false
  closed : Bool := false

structure InBuf where
  chunks : List Bytes := []
  cursor : ℕ := 0
  buffered : ℕ := 0
  unacked : UInt32 := 0
  eof : Bool := false
  reset : Option UInt8 := none

structure StreamShared where
  id : UInt32
  window : UInt32
  out : OutBuf := {}
  inb : InBuf := {}

/-- Who holds a `StreamShared` besides the routing map. -/
inductive Holder
  | opening
  | incoming (target : MuxTarget)
  | stream
  | gone
  deriving DecidableEq

/-- A `StreamShared`, its holder, and whether an `EndLocal` was ever queued for it. -/
structure Cell where
  shared : StreamShared
  holder : Holder
  endQueued : Bool := false

/-- What `ConnInner` holds. References from `count` on are not made yet. -/
structure Conn where
  state : MuxState
  cell : ℕ → Cell
  count : ℕ
  streams : UInt32 → Option ℕ
  openWaiters : UInt32 → Option ℕ

inductive MuxConnError
  | closed
  | rejected (code : UInt8)
  | streamLimit
  | state (e : MuxStateError)

def mapOpenErr : MuxStateError → MuxConnError
  | .streamLimit _ => .streamLimit
  | other => .state other

inductive IoError
  | connectionReset
  | brokenPipe

inductive Poll (α : Type)
  | ready (a : α)
  | pending

namespace InBuf

/-- The copy loop of `poll_read`: the chunks and the cursor left, and the bytes copied. -/
def read (n : ℕ) : List Bytes → ℕ → List Bytes × ℕ × Bytes
  | [], cursor => ([], cursor, [])
  | front :: rest, cursor =>
    if n = 0 then (front :: rest, cursor, [])
    else
      let take := min (front.length - cursor) n
      let copied := (front.drop cursor).take take
      if front.length ≤ cursor + take then
        let r := read (n - take) rest 0
        (r.1, r.2.1, copied ++ r.2.2)
      else (front :: rest, cursor + take, copied)

def consume (chunks : List Bytes) (cursor k : ℕ) (unacked : UInt32) (inb : InBuf) : InBuf :=
  { inb with
    chunks := chunks, cursor := cursor, buffered := inb.buffered - k, unacked := unacked }

def acked (inb : InBuf) (copied : ℕ) : UInt32 := satAdd inb.unacked (UInt32.ofNat copied)

/-- The credit a read of `copied` bytes gives back, once it comes to half a window. -/
def grant (inb : InBuf) (window : UInt32) (copied : ℕ) : Option UInt32 :=
  if copied ≠ 0 ∧ window / 2 ≤ inb.acked copied then some (inb.acked copied) else none

end InBuf

namespace Conn

def new (role : StreamRole) (policy : MuxPolicy) : Conn where
  state := .new role policy
  cell _ := ⟨⟨0, policy.initialWindow, {}, {}⟩, .gone, false⟩
  count := 0
  streams _ := none
  openWaiters _ := none

variable (c : Conn)

def idOf (r : ℕ) : UInt32 := (c.cell r).shared.id

def modify (r : ℕ) (f : Cell → Cell) : Conn :=
  { c with cell := Function.update c.cell r (f (c.cell r)) }

def modifyOut (r : ℕ) (f : OutBuf → OutBuf) : Conn :=
  c.modify r fun k => { k with shared := { k.shared with out := f k.shared.out } }

def modifyIn (r : ℕ) (f : InBuf → InBuf) : Conn :=
  c.modify r fun k => { k with shared := { k.shared with inb := f k.shared.inb } }

def release (r : ℕ) (holder : Holder) : Conn := c.modify r fun k => { k with holder := holder }

def setState (m : MuxState) : Conn := { c with state := m }

def setRoute (id : UInt32) (r : Option ℕ) : Conn :=
  { c with streams := Function.update c.streams id r }

def setWaiter (id : UInt32) (r : Option ℕ) : Conn :=
  { c with openWaiters := Function.update c.openWaiters id r }

def share (id : UInt32) (holder : Holder) : Conn :=
  { c with
    cell := Function.update c.cell c.count
      ⟨⟨id, c.state.policy.initialWindow, {}, {}⟩, holder, false⟩
    count := c.count + 1
    streams := Function.update c.streams id (some c.count) }

/-- `open` up to its wait; the reference is the one its future holds. -/
def «open» (target : MuxTarget) : Except MuxConnError ℕ × Conn :=
  match c.state.openLocal target with
  | (.error e, m) => (.error (mapOpenErr e), c.setState m)
  | (.ok id, m) => (.ok c.count, ((c.setState m).share id .opening).setWaiter id (some c.count))

def accept (r : ℕ) : Conn :=
  (c.setState (c.state.accept (c.idOf r)).2).release r .stream

def reject (r : ℕ) (code : UInt8) : Conn :=
  let id := c.idOf r
  ((c.setState (c.state.reset id code).2).setRoute id none).release r .gone

def dropIncoming (r : ℕ) : Conn :=
  let id := c.idOf r
  let p := c.state.reject id
  let m := match p.1 with
    | .ok _ => p.2
    | .error _ => (p.2.reset id 0x01).2
  ((c.setState m).setRoute id none).release r .gone

def pollRead (r : ℕ) (n : ℕ) : Poll (Except IoError Bytes) × Conn :=
  let sh := (c.cell r).shared
  let (chunks, cursor, copied) := InBuf.read n sh.inb.chunks sh.inb.cursor
  let k := copied.length
  if k = 0 then
    let c := c.modifyIn r fun inb => { inb with chunks := chunks, cursor := cursor }
    if sh.inb.reset.isSome then (.ready (.error .connectionReset), c)
    else if sh.inb.eof then (.ready (.ok []), c)
    else (.pending, c)
  else
    match sh.inb.grant sh.window k with
    | some g => (.ready (.ok copied), (c.modifyIn r (InBuf.consume chunks cursor k 0)).setState
        (c.state.grantCredit sh.id g).2)
    | none => (.ready (.ok copied), c.modifyIn r (InBuf.consume chunks cursor k (sh.inb.acked k)))

def pollWrite (r : ℕ) (buf : Bytes) : Poll (Except IoError ℕ) × Conn :=
  let sh := (c.cell r).shared
  let cap := sh.window.toNat
  if sh.out.closed then (.ready (.error .brokenPipe), c)
  else if cap ≤ sh.out.buf.length then (.pending, c)
  else
    let n := min buf.length (cap - sh.out.buf.length)
    (.ready (.ok n), c.modifyOut r fun ob => { ob with buf := ob.buf ++ buf.take n })

def pollShutdown (r : ℕ) : Poll (Except IoError Unit) × Conn :=
  let ob := (c.cell r).shared.out
  let c := c.modifyOut r fun ob => { ob with ending := true }
  if ob.closed || (ob.buf.isEmpty && ob.endedSent) then (.ready (.ok ()), c) else (.pending, c)

def dropStream (r : ℕ) : Conn :=
  let id := c.idOf r
  let c' := (c.setRoute id none).release r .gone
  match c.streams id with
  | none => c'
  | some _ => if (c.state.streamState id).isSome then c'.setState (c.state.reset id 0x00).2 else c'

def faultStream (id : UInt32) (code : UInt8) : Conn :=
  match c.streams id with
  | none => c
  | some r =>
    ((c.setRoute id none).modifyIn r fun inb => { inb with reset := some (inb.reset.getD code) })
      |>.modifyOut r fun ob => { ob with closed := true }

def handleEvent (acceptor : Bool) : MuxEvent → Conn
  | .incoming id target =>
    -- without an acceptor the `IncomingStream` is dropped where it was made
    let c' := c.share id (.incoming target)
    if acceptor then c' else c'.dropIncoming c.count
  | .established id =>
    match c.openWaiters id with
    | none => c
    | some r => (c.setWaiter id none).release r .stream
  | .data id body =>
    match c.streams id with
    | none => c
    | some r => c.modifyIn r fun inb =>
      { inb with buffered := inb.buffered + body.length, chunks := inb.chunks ++ [body] }
  | .windowUpdate _ _ => c
  | .peerEndLocal id =>
    let c' := match c.streams id with
      | none => c
      | some r => c.modifyIn r fun inb => { inb with eof := true }
    if c.state.streamState id = none then c'.setRoute id none else c'
  | .reset id code =>
    let c' := match c.openWaiters id with
      | none => c
      | some r => (c.setWaiter id none).release r .gone
    c'.faultStream id code

def handleFrame (frame : MuxFrame) (acceptor : Bool) : Conn :=
  let p := c.state.recv frame
  let c := c.setState p.2
  match p.1 with
  | .error _ => if c.state.streamState frame.streamId = none
    then c.faultStream frame.streamId 0xff else c
  | .ok ev => c.handleEvent acceptor ev

/-- One turn of the reader's inner loop, `acc` being what it has read. -/
def readFrame (acc : Bytes) (acceptor : Bool) : Conn :=
  match MuxFrame.decodeOne acc with
  | .ok (frame, _) => c.handleFrame frame acceptor
  | .error _ => c

/-- The flush loop on the staged bytes of a stream; each turn but the last sends at least one. -/
def flush : ℕ → MuxState → UInt32 → Bytes → MuxState × Bytes
  | 0, m, _, buf => (m, buf)
  | fuel + 1, m, id, buf =>
    if buf.isEmpty then (m, buf)
    else match m.sendData id buf with
      | (.ok n, m) => if n = 0 then (m, buf) else flush fuel m id (buf.drop n)
      | (.error _, m) => (m, buf)

def finish (r : ℕ) : Conn :=
  let q := c.state.endLocal (c.idOf r)
  (c.setState q.2).modify r fun k =>
    { k with
      shared := { k.shared with out := { k.shared.out with endedSent := true } }
      endQueued := k.endQueued || q.1.isOk }

def serve (r : ℕ) : Conn :=
  let ob := (c.cell r).shared.out
  let p := flush ob.buf.length c.state (c.idOf r) ob.buf
  let c := (c.setState p.1).modifyOut r fun ob => { ob with buf := p.2 }
  if ob.ending && p.2.isEmpty && !ob.endedSent then c.finish r else c

def prune : Conn :=
  { c with
    streams := fun id => if (c.state.streamState id).isSome then c.streams id else none }

/-- A drain pass that visits the streams of the routing map in the given order of their ids. -/
def drainPass (order : List UInt32) : Bytes × Conn :=
  let c := ((order.filterMap c.streams).foldl serve c).prune
  let p := c.state.pendingOutbound
  (p.1.flatMap MuxFrame.encode, c.setState p.2)

end Conn

inductive ConnStep
  | open (target : MuxTarget)
  | accept (r : ℕ)
  | reject (r : ℕ) (code : UInt8)
  | dropIncoming (r : ℕ)
  | pollRead (r : ℕ) (n : ℕ)
  | pollWrite (r : ℕ) (buf : Bytes)
  | pollShutdown (r : ℕ)
  | dropStream (r : ℕ)
  | readFrame (acc : Bytes) (acceptor : Bool)
  | drainPass (order : List UInt32)

namespace Conn

def Undecided (c : Conn) (r : ℕ) : Prop := ∃ t, (c.cell r).holder = .incoming t

instance (c : Conn) (r : ℕ) : Decidable (c.Undecided r) :=
  match h : (c.cell r).holder with
  | .incoming t => isTrue ⟨t, h⟩
  | .opening | .stream | .gone => isFalse fun ⟨_, ht⟩ => by simp [h] at ht

def step (c : Conn) : ConnStep → Conn
  | .open target => (c.open target).2
  | .accept r => if c.Undecided r then c.accept r else c
  | .reject r code => if c.Undecided r then c.reject r code else c
  | .dropIncoming r => if c.Undecided r then c.dropIncoming r else c
  | .pollRead r n => if (c.cell r).holder = .stream then (c.pollRead r n).2 else c
  | .pollWrite r buf => if (c.cell r).holder = .stream then (c.pollWrite r buf).2 else c
  | .pollShutdown r => if (c.cell r).holder = .stream then (c.pollShutdown r).2 else c
  | .dropStream r => if (c.cell r).holder = .stream then c.dropStream r else c
  | .readFrame acc acceptor => c.readFrame acc acceptor
  | .drainPass order => (c.drainPass order).2

end Conn

end Mirage.Mux
