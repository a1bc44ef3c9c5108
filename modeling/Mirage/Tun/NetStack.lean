import Mathlib.Data.Finset.Erase
import Mathlib.Data.Finset.Insert
import Mathlib.Data.Option.Defs
import Mirage.Lib.Maps
import Mirage.Bridge.Destinations

/-!
# The gateway

`NetStack` of `crates/tun/src/netstack.rs`, with the channels that it shares with the callers and
the flows that they hold. The parts of one turn of `run` are steps of their own. Where `smoltcp`
decides, what it decides is part of the event. Commands and waiting writes carry the number of their
flow, which the source does not keep, and `log` is what has been done to the connections.
-/

namespace Mirage.Tun

open Words Bridge

/-!
## Flow identities

`crates/tun/src/flow.rs`: what the gateway reads off a raw IP packet. The views of a packet are
those of the wire parsers of `smoltcp`, which are parameters.
-/

/-- An address and a port. A `V6` address made from a packet has no flow and no scope. -/
structure SocketAddr where
  ip : IpAddr
  port : UInt16
  deriving DecidableEq

inductive Protocol
  | tcp
  | udp
  deriving DecidableEq

structure FlowKey where
  src : SocketAddr
  dst : SocketAddr
  protocol : Protocol
  deriving DecidableEq

structure ParsedPacket where
  key : FlowKey
  tcpSyn : Bool
  tcpRst : Bool
  tcpFin : Bool

inductive IpProtocol
  | tcp
  | udp
  | other (number : UInt8)

structure Ipv4View where
  srcAddr : Vector UInt8 4
  dstAddr : Vector UInt8 4
  fragOffset : UInt16
  nextHeader : IpProtocol
  payload : Bytes

structure Ipv6View where
  srcAddr : Vector UInt16 8
  dstAddr : Vector UInt16 8
  nextHeader : IpProtocol
  payload : Bytes

structure TcpView where
  srcPort : UInt16
  dstPort : UInt16
  syn : Bool
  ack : Bool
  rst : Bool
  fin : Bool

structure UdpView where
  srcPort : UInt16
  dstPort : UInt16

/-- The `new_checked` constructors; `none` if the bytes are malformed. -/
structure Parsers where
  ipv4 : Bytes → Option Ipv4View
  ipv6 : Bytes → Option Ipv6View
  tcp : Bytes → Option TcpView
  udp : Bytes → Option UdpView

variable (P : Parsers)

def parseL4 (proto : IpProtocol) (l4 : Bytes) (srcIp dstIp : IpAddr) : Option ParsedPacket :=
  match proto with
  | .tcp => do
    let seg ← P.tcp l4
    return {
      key := ⟨⟨srcIp, seg.srcPort⟩, ⟨dstIp, seg.dstPort⟩, .tcp⟩
      tcpSyn := seg.syn && !seg.ack
      tcpRst := seg.rst
      tcpFin := seg.fin }
  | .udp => do
    let dg ← P.udp l4
    return {
      key := ⟨⟨srcIp, dg.srcPort⟩, ⟨dstIp, dg.dstPort⟩, .udp⟩
      tcpSyn := false
      tcpRst := false
      tcpFin := false }
  | .other _ => none

def parsePacket (ip : Bytes) : Option ParsedPacket := do
  let first ← ip.head?
  if first >>> 4 = 4 then
    let pkt ← P.ipv4 ip
    -- a fragment that is not the first has no header of its own
    if pkt.fragOffset ≠ 0 then none
    else parseL4 P pkt.nextHeader pkt.payload (.v4 pkt.srcAddr) (.v4 pkt.dstAddr)
  else if first >>> 4 = 6 then
    let pkt ← P.ipv6 ip
    parseL4 P pkt.nextHeader pkt.payload (.v6 pkt.srcAddr) (.v6 pkt.dstAddr)
  else none

inductive TcpState
  | closed
  | listen
  | synReceived
  | established
  | finWait1
  | finWait2
  | closeWait
  | closing
  | lastAck
  | timeWait
  deriving DecidableEq

/-!
## Sockets

The sockets of `smoltcp` as far as the gateway uses them. A TCP socket listens until a handshake
gives it a connection; a synchronized socket keeps its connection until it is closed, and a closed
one stays closed. What `Interface::poll` makes of the sockets is not determined, but it goes by
these rules (`Evolves`). The calls of a socket are parameters, under their documentation (`Lawful`).
-/

structure Connection where
  src : SocketAddr
  dst : SocketAddr
  deriving DecidableEq

/-- `rx` has been received and not been read, `tx` has been written and not been acknowledged. -/
structure TcpSocket where
  state : TcpState
  listenEndpoint : SocketAddr
  tuple : Option Connection
  rx : Bytes
  tx : Bytes
  txCapacity : ℕ

namespace TcpSocket

def listening (endpoint : SocketAddr) (buffer : ℕ) : TcpSocket :=
  ⟨.listen, endpoint, none, [], [], buffer⟩

variable (s : TcpSocket)

def Synchronized : Prop :=
  s.state ≠ .closed ∧ s.state ≠ .listen ∧ s.state ≠ .synReceived
deriving Decidable

/-- What can become of a socket when the interface is polled. Nothing is received before the
handshake is over. -/
structure Evolves (s s' : TcpSocket) : Prop where
  closed : s.state = .closed → s'.state = .closed
  connection : s.Synchronized → s'.state = .closed ∨ s'.Synchronized ∧ s'.tuple = s.tuple
  received : s'.rx ≠ [] → s'.state = .closed ∨ s'.Synchronized

instance (s s' : TcpSocket) : Decidable (s.Evolves s') :=
  decidable_of_iff ((s.state = .closed → s'.state = .closed) ∧
    (s.Synchronized → s'.state = .closed ∨ s'.Synchronized ∧ s'.tuple = s.tuple) ∧
    (s'.rx ≠ [] → s'.state = .closed ∨ s'.Synchronized))
    ⟨fun h => ⟨h.1, h.2.1, h.2.2⟩, fun h => ⟨h.1, h.2, h.3⟩⟩

end TcpSocket

/-- What the gateway calls of `smoltcp`: the parsers, and the methods of a `tcp::Socket`. -/
structure Smoltcp extends Parsers where
  maySend : TcpSocket → Bool
  mayRecv : TcpSocket → Bool
  canSend : TcpSocket → Bool
  canRecv : TcpSocket → Bool
  /-- Also how many bytes went into the buffer. -/
  sendSlice : TcpSocket → Bytes → ℕ × TcpSocket
  recvSlice : TcpSocket → ℕ → Bytes × TcpSocket
  close : TcpSocket → TcpSocket
  abort : TcpSocket → TcpSocket

/-- What the documentation of the methods says about the connection. Only a synchronized socket
sends; one that may still receive is synchronized or has unread bytes; reading and writing change
the buffers alone; `close` ends the sending half, and `abort` the connection. -/
structure Smoltcp.Lawful (T : Smoltcp) : Prop where
  maySend : ∀ s, T.maySend s = true → s.Synchronized
  mayRecv : ∀ s, T.mayRecv s = true → s.Synchronized ∨ s.rx ≠ []
  canSend : ∀ s, T.canSend s = true → T.maySend s = true
  sendSlice : ∀ s data, (T.sendSlice s data).2.state = s.state ∧
    (T.sendSlice s data).2.tuple = s.tuple ∧ (T.sendSlice s data).2.rx = s.rx
  recvSlice : ∀ s room, (T.recvSlice s room).2.state = s.state ∧
    (T.recvSlice s room).2.tuple = s.tuple ∧ ((T.recvSlice s room).2.rx ≠ [] → s.rx ≠ [])
  close : ∀ s, (T.close s).tuple = s.tuple ∧ (T.close s).rx = s.rx ∧
    (s.state = .closed → (T.close s).state = .closed) ∧ (s.Synchronized → (T.close s).Synchronized)
  abort : ∀ s, (T.abort s).state = .closed

structure UdpSocket where
  endpoint : SocketAddr
  rx : List (SocketAddr × Bytes)
  tx : List (SocketAddr × Bytes)

inductive Socket
  | tcp (s : TcpSocket)
  | udp (s : UdpSocket)

def Socket.Evolves : Socket → Socket → Prop
  | .tcp s, .tcp s' => s.Evolves s'
  | .udp s, .udp s' => s'.endpoint = s.endpoint
  | _, _ => False

instance : ∀ s s' : Socket, Decidable (s.Evolves s')
  | .tcp s, .tcp s' => inferInstanceAs (Decidable (s.Evolves s'))
  | .udp s, .udp s' => inferInstanceAs (Decidable (s'.endpoint = s.endpoint))
  | .tcp _, .udp _ => isFalse id
  | .udp _, .tcp _ => isFalse id

abbrev SocketSet := AList fun _ : ℕ => Socket

def SocketSet.Evolves (sockets sockets' : SocketSet) : Prop :=
  ∀ handle, Option.Rel Socket.Evolves (sockets.lookup handle) (sockets'.lookup handle)

instance : ∀ a b : Option Socket, Decidable (Option.Rel Socket.Evolves a b)
  | none, none => isTrue .none
  | some s, some s' => decidable_of_iff (s.Evolves s') ⟨.some, fun | .some h => h⟩
  | none, some _ => isFalse nofun
  | some _, none => isFalse nofun

lemma SocketSet.evolves_iff {sockets sockets' : SocketSet} : sockets.Evolves sockets' ↔
    ∀ handle ∈ sockets.keys ++ sockets'.keys,
      Option.Rel Socket.Evolves (sockets.lookup handle) (sockets'.lookup handle) := by
  refine ⟨fun h handle _ => h handle, fun h handle => ?_⟩
  by_cases hm : handle ∈ sockets.keys ++ sockets'.keys
  · exact h handle hm
  · rw [List.mem_append, not_or] at hm
    rw [AList.lookup_eq_none.2 hm.1, AList.lookup_eq_none.2 hm.2]
    exact .none

instance (sockets sockets' : SocketSet) : Decidable (sockets.Evolves sockets') :=
  decidable_of_iff _ SocketSet.evolves_iff.symm

structure NetStackConfig where
  socketBuffer : ℕ
  readChannelDepth : ℕ
  writeChannelDepth : ℕ
  maxFlows : ℕ
  pendingWriteCap : ℕ
  /-- In microseconds. -/
  flowTimeout : ℕ

def NetStackConfig.default : NetStackConfig where
  socketBuffer := 64 * 1024
  readChannelDepth := 16
  writeChannelDepth := 64
  maxFlows := 2048
  pendingWriteCap := 4 * 1024 * 1024
  flowTimeout := 30 * 1000000

structure TcpFlow where
  target : SocketAddr
  handle : ℕ
  reader : ℕ
  leftover : Bytes
  pos : ℕ
  readClosed : Bool

structure UdpFlow where
  target : SocketAddr
  src : SocketAddr
  rx : ℕ

inductive Flow
  | tcp (flow : TcpFlow)
  | udp (flow : UdpFlow)

inductive StackCmd
  | data (handle : ℕ) (data : Bytes) (flow : ℕ)
  | shutdown (handle : ℕ) (flow : ℕ)
  | udpData (dst src : SocketAddr) (data : Bytes)

structure ReadChannel where
  queue : List Bytes
  senderOpen : Bool
  receiverOpen : Bool

namespace ReadChannel

def new : ReadChannel := ⟨[], true, true⟩

def hasRoom (depth : ℕ) (c : ReadChannel) : Bool := c.receiverOpen && c.queue.length < depth

def send (item : Bytes) (c : ReadChannel) : ReadChannel := { c with queue := c.queue ++ [item] }

end ReadChannel

structure PendingWrite where
  data : Bytes
  flow : ℕ

/-- `shutdownBy` are the flows that have asked for a shutdown; the source keeps whether there is
one. -/
structure FlowSlot where
  key : FlowKey
  readTx : ℕ
  pendingFlow : Option TcpFlow
  pendingWrite : List PendingWrite
  pendingWriteBytes : ℕ
  emitted : Bool
  shutdownBy : List ℕ
  readEofSent : Bool

structure UdpFlowSlot where
  readTx : ℕ
  lastActivity : ℕ

inductive Record
  | emitted (flow : ℕ) (conn : Option Connection)
  | sent (flow : ℕ) (conn : Option Connection) (data : Bytes)
  | closed (flow : ℕ) (conn : Option Connection)
  deriving DecidableEq

structure NetStack where
  rx : List Bytes
  sockets : SocketSet
  flows : AList fun _ : ℕ => FlowSlot
  activeFlows : Finset FlowKey
  udpSockets : AList fun _ : SocketAddr => ℕ
  udpFlows : AList fun _ : FlowKey => UdpFlowSlot
  pendingWriteBytes : ℕ
  lastUdpReap : ℕ
  flowTx : List Flow
  flowRxOpen : Bool
  cmdTx : List StackCmd
  udpCmdTx : List StackCmd
  readers : ℕ → ReadChannel
  nextReader : ℕ
  heldTcp : AList fun _ : ℕ => TcpFlow
  heldUdp : AList fun _ : ℕ => UdpFlow
  log : List Record

namespace NetStack

def new : NetStack where
  rx := []
  sockets := ∅
  flows := ∅
  activeFlows := ∅
  udpSockets := ∅
  udpFlows := ∅
  pendingWriteBytes := 0
  lastUdpReap := 0
  flowTx := []
  flowRxOpen := true
  cmdTx := []
  udpCmdTx := []
  readers := fun _ => .new
  nextReader := 0
  heldTcp := ∅
  heldUdp := ∅
  log := []

variable (cfg : NetStackConfig)

variable (n : NetStack)

def setReader (number : ℕ) (c : ReadChannel) : NetStack :=
  { n with readers := Function.update n.readers number c }

def flowTxHasRoom (flowRxOpen : Bool) (flowTx : List Flow) : Bool :=
  flowRxOpen && flowTx.length < max cfg.writeChannelDepth 8

def openListener (key : FlowKey) (handle : ℕ) : NetStack :=
  -- `listen` fails on port 0
  if key.dst.port = 0 then n
  else
    { n with
      sockets := n.sockets.insert handle (.tcp (.listening key.dst cfg.socketBuffer))
      flows := n.flows.insert handle
        { key
          readTx := n.nextReader
          pendingFlow := some ⟨key.dst, handle, n.nextReader, [], 0, false⟩
          pendingWrite := []
          pendingWriteBytes := 0
          emitted := false
          shutdownBy := []
          readEofSent := false }
      activeFlows := insert key n.activeFlows
      nextReader := n.nextReader + 1 }

def emitUdpFlow (key : FlowKey) (handle : ℕ) (created : Bool) (now : ℕ) : NetStack :=
  if flowTxHasRoom cfg n.flowRxOpen n.flowTx then
    { n with
      flowTx := n.flowTx ++ [.udp ⟨key.dst, key.src, n.nextReader⟩]
      udpFlows := n.udpFlows.insert key ⟨n.nextReader, now⟩
      nextReader := n.nextReader + 1 }
  else if created then
    { n with sockets := n.sockets.erase handle, udpSockets := n.udpSockets.erase key.dst }
  else n

def openUdpFlow (key : FlowKey) (handle now : ℕ) : NetStack :=
  match n.udpSockets.lookup key.dst with
  | some handle => n.emitUdpFlow cfg key handle false now
  | none =>
    -- `bind` fails on port 0
    if key.dst.port = 0 then n
    else
      emitUdpFlow cfg
        { n with
          sockets := n.sockets.insert handle (.udp ⟨key.dst, [], []⟩)
          udpSockets := n.udpSockets.insert key.dst handle }
        key handle true now

/-- A new socket, if the packet makes for one, gets the handle `handle`. -/
def ingestPacket (pkt : Bytes) (handle now : ℕ) : NetStack :=
  let n := match parsePacket P pkt with
    | none => n
    | some p =>
      match p.key.protocol with
      | .tcp =>
        if p.tcpSyn ∧ p.key ∉ n.activeFlows ∧ Maps.size n.flows < cfg.maxFlows then
          n.openListener cfg p.key handle
        else n
      | .udp =>
        if n.udpFlows.lookup p.key = none ∧ Maps.size n.udpFlows < cfg.maxFlows then
          n.openUdpFlow cfg p.key handle now
        else n
  { n with rx := n.rx ++ [pkt] }

/-- `fits` is whether the buffer of the UDP socket takes the datagram. -/
def applyCmd (fits : Bool) (now : ℕ) : StackCmd → NetStack
  | .data handle data flow =>
    match n.flows.lookup handle with
    | none => n
    | some slot =>
      { n with
        pendingWriteBytes := n.pendingWriteBytes + data.length
        flows := n.flows.insert handle
          { slot with
            pendingWriteBytes := slot.pendingWriteBytes + data.length
            pendingWrite := slot.pendingWrite ++ [⟨data, flow⟩] } }
  | .shutdown handle flow =>
    match n.flows.lookup handle with
    | none => n
    | some slot =>
      { n with flows := n.flows.insert handle { slot with shutdownBy := flow :: slot.shutdownBy } }
  | .udpData dst src data =>
    match n.udpSockets.lookup dst with
    | none => n
    | some handle =>
      let n := match n.sockets.lookup handle with
        | some (.udp s) =>
          if fits then
            { n with
              sockets := n.sockets.insert handle (.udp { s with tx := s.tx ++ [(src, data)] }) }
          else n
        | _ => n
      match n.udpFlows.lookup ⟨src, dst, .udp⟩ with
      | none => n
      | some slot =>
        { n with udpFlows := n.udpFlows.insert ⟨src, dst, .udp⟩ { slot with lastActivity := now } }

/-- The branch of `run` that takes a command, unless too many bytes wait. -/
def takeCmd (now : ℕ) : NetStack :=
  match n.cmdTx with
  | [] => n
  | cmd :: cmds =>
    if n.pendingWriteBytes < cfg.pendingWriteCap then
      applyCmd { n with cmdTx := cmds } false now cmd
    else n

def takeUdpCmd (fits : Bool) (now : ℕ) : NetStack :=
  match n.udpCmdTx with
  | [] => n
  | cmd :: cmds => applyCmd { n with udpCmdTx := cmds } fits now cmd

end NetStack

/-- What serving a socket works on: the slot and the socket, the channel of the slot, and the
channel of flows. -/
structure Visit where
  slot : FlowSlot
  socket : TcpSocket
  channel : ReadChannel
  flowTx : List Flow
  flowRxOpen : Bool
  log : List Record

namespace Visit

variable (T : Smoltcp) (cfg : NetStackConfig)

def emit (v : Visit) : Visit :=
  match v.slot.pendingFlow with
  | none => v
  | some flow =>
    if (T.maySend v.socket || T.mayRecv v.socket) && !v.slot.emitted then
      if NetStack.flowTxHasRoom cfg v.flowRxOpen v.flowTx then
        { v with
          flowTx := v.flowTx ++ [.tcp flow]
          slot := { v.slot with pendingFlow := none, emitted := true }
          log := v.log ++ [.emitted flow.reader v.socket.tuple] }
      else if v.flowRxOpen then v
      else
        -- nobody takes flows, and the flow is dropped
        { v with
          slot := { v.slot with pendingFlow := none, emitted := true }
          socket := T.abort v.socket
          channel := { v.channel with receiverOpen := false } }
    else v

def drainReceived : ℕ → Visit → Visit
  | 0, v => v
  | fuel + 1, v =>
    if T.canRecv v.socket && v.channel.hasRoom cfg.readChannelDepth then
      let (chunk, socket) := T.recvSlice v.socket (8 * 1024)
      drainReceived fuel { v with socket := socket, channel := v.channel.send chunk }
    else v

def signalEof (v : Visit) : Visit :=
  if !T.mayRecv v.socket && T.maySend v.socket && !T.canRecv v.socket && v.slot.emitted &&
      !v.slot.readEofSent && v.channel.hasRoom cfg.readChannelDepth then
    { v with channel := v.channel.send [], slot := { v.slot with readEofSent := true } }
  else v

def sendFront (v : Visit) (front : PendingWrite) (rest : List PendingWrite) : ℕ × Visit :=
  let (n, socket) := T.sendSlice v.socket front.data
  (n, { v with
    socket := socket
    slot := { v.slot with
      pendingWrite := if front.data.length ≤ n then rest
        else { front with data := front.data.drop n } :: rest
      pendingWriteBytes := v.slot.pendingWriteBytes - n }
    log := v.log ++ [.sent front.flow v.socket.tuple (front.data.take n)] })

/-- Bytes that wait go into the socket. Also how many have gone. -/
def pumpWrites : ℕ → Visit → ℕ × Visit
  | 0, v => (0, v)
  | fuel + 1, v =>
    if T.canSend v.socket then
      match v.slot.pendingWrite with
      | [] => (0, v)
      | front :: rest =>
        let (n, sent) := v.sendFront T front rest
        if n = 0 then (0, v)
        else
          let (drained, v) := pumpWrites fuel sent
          (n + drained, v)
    else (0, v)

def halfClose (v : Visit) : Visit :=
  if v.slot.shutdownBy ≠ [] ∧ v.slot.pendingWrite = [] then
    { v with
      socket := T.close v.socket
      log := if (T.close v.socket).state = v.socket.state then v.log
        else v.log ++ v.slot.shutdownBy.map (.closed · v.socket.tuple) }
  else v

def abandon (v : Visit) : Visit :=
  if v.slot.emitted && !v.channel.receiverOpen then { v with socket := T.abort v.socket } else v

/-- The socket is closed, and its bytes have been read or nobody will read them. -/
def reaps (v : Visit) : Bool :=
  v.socket.state = .closed && (!T.canRecv v.socket || !v.channel.receiverOpen)

end Visit

namespace NetStack

variable (T : Smoltcp) (cfg : NetStackConfig)

/-- All of `service_socket` but the reap. Also how many bytes have gone into the socket. -/
def serve (v : Visit) : ℕ × Visit :=
  let v := v.emit T cfg
  let v := (v.drainReceived T cfg v.socket.rx.length).signalEof T cfg
  let (drained, v) := v.pumpWrites T (v.slot.pendingWrite.length + 1)
  (drained, (v.halfClose T).abandon T)

variable (n : NetStack)

def visit (slot : FlowSlot) (socket : TcpSocket) : Visit :=
  ⟨slot, socket, n.readers slot.readTx, n.flowTx, n.flowRxOpen, n.log⟩

def settle (handle drained : ℕ) (v : Visit) : NetStack :=
  if v.reaps T then
    { n with
      sockets := n.sockets.erase handle
      flows := n.flows.erase handle
      activeFlows := n.activeFlows.erase v.slot.key
      pendingWriteBytes := n.pendingWriteBytes - drained - v.slot.pendingWriteBytes
      readers := Function.update n.readers v.slot.readTx { v.channel with senderOpen := false }
      flowTx := v.flowTx
      log := v.log }
  else
    { n with
      sockets := n.sockets.insert handle (.tcp v.socket)
      flows := n.flows.insert handle v.slot
      pendingWriteBytes := n.pendingWriteBytes - drained
      readers := Function.update n.readers v.slot.readTx v.channel
      flowTx := v.flowTx
      log := v.log }

def serviceSocket (handle : ℕ) : NetStack :=
  match n.flows.lookup handle, n.sockets.lookup handle with
  | some slot, some (.tcp socket) =>
    let (drained, v) := serve T cfg (n.visit slot socket)
    n.settle T handle drained v
  | _, _ => n

def routeDatagram (dst : SocketAddr) (now : ℕ) (n : NetStack) (dg : SocketAddr × Bytes) :
    NetStack :=
  match n.udpFlows.lookup ⟨dg.1, dst, .udp⟩ with
  | none => n
  | some slot =>
    let n := { n with
      udpFlows := n.udpFlows.insert ⟨dg.1, dst, .udp⟩ { slot with lastActivity := now } }
    if (n.readers slot.readTx).hasRoom cfg.readChannelDepth then
      n.setReader slot.readTx ((n.readers slot.readTx).send dg.2)
    else n

def serviceUdpSocket (now : ℕ) (n : NetStack) (entry : Sigma fun _ : SocketAddr => ℕ) : NetStack :=
  match n.sockets.lookup entry.2 with
  | some (.udp s) =>
    s.rx.foldl (routeDatagram cfg entry.1 now)
      { n with sockets := n.sockets.insert entry.2 (.udp { s with rx := [] }) }
  | _ => n

def serviceUdp (now : ℕ) : NetStack :=
  n.udpSockets.entries.foldl (serviceUdpSocket cfg now) n

def removeUdpSocket (dst : SocketAddr) : NetStack :=
  match n.udpSockets.lookup dst with
  | none => n
  | some handle =>
    { n with udpSockets := n.udpSockets.erase dst, sockets := n.sockets.erase handle }

def reapIdleUdp (now : ℕ) : NetStack :=
  if now - n.lastUdpReap < 1000000 then n
  else
    let live := Maps.retain (fun slot => (n.readers slot.readTx).receiverOpen &&
      now - slot.lastActivity ≤ cfg.flowTimeout) n.udpFlows
    let dead := n.udpSockets.keys.filter fun dst => !live.keys.any (·.dst = dst)
    dead.foldl removeUdpSocket { n with lastUdpReap := now, udpFlows := live }

def pollWrite (flow : TcpFlow) (data : Bytes) : NetStack :=
  if n.cmdTx.length < cfg.writeChannelDepth then
    { n with cmdTx := n.cmdTx ++ [.data flow.handle data flow.reader] }
  else n

def pollShutdown (flow : TcpFlow) : NetStack :=
  if n.cmdTx.length < cfg.writeChannelDepth then
    { n with cmdTx := n.cmdTx ++ [.shutdown flow.handle flow.reader] }
  else n

def sendDatagram (flow : UdpFlow) (data : Bytes) : NetStack :=
  if n.udpCmdTx.length < cfg.writeChannelDepth then
    { n with udpCmdTx := n.udpCmdTx ++ [.udpData flow.target flow.src data] }
  else n

/-- A read of at most `room` bytes: an empty answer is the end, `none` that it is pending. -/
def pollRead (flow : TcpFlow) (c : ReadChannel) (room : ℕ) : Option Bytes × TcpFlow × ReadChannel :=
  if flow.pos < flow.leftover.length then
    let n := min (flow.leftover.length - flow.pos) room
    (some ((flow.leftover.drop flow.pos).take n), { flow with pos := flow.pos + n }, c)
  else if flow.readClosed then (some [], flow, c)
  else
    match c.queue with
    | [] => if c.senderOpen then (none, flow, c) else (some [], { flow with readClosed := true }, c)
    | [] :: queue => (some [], { flow with readClosed := true }, { c with queue })
    | chunk :: queue =>
      let n := min chunk.length room
      (some (chunk.take n),
        if n < chunk.length then { flow with leftover := chunk, pos := n } else flow,
        { c with queue })

def readFlow (flow : TcpFlow) (room : ℕ) : NetStack :=
  let (_, flow, c) := pollRead flow (n.readers flow.reader) room
  { n.setReader flow.reader c with heldTcp := n.heldTcp.insert flow.reader flow }

def acceptFlow : NetStack :=
  match n.flowTx with
  | [] => n
  | .tcp flow :: flows => { n with flowTx := flows, heldTcp := n.heldTcp.insert flow.reader flow }
  | .udp flow :: flows => { n with flowTx := flows, heldUdp := n.heldUdp.insert flow.rx flow }

def dropReceiver (number : ℕ) : NetStack :=
  n.setReader number { n.readers number with receiverOpen := false }

def Flow.number : Flow → ℕ
  | .tcp flow => flow.reader
  | .udp flow => flow.rx

def dropFlows : NetStack :=
  n.flowTx.foldl (fun n flow => n.dropReceiver (Flow.number flow))
    { n with flowRxOpen := false, flowTx := [] }

inductive Event
  | packet (pkt : Bytes) (handle now : ℕ)
  | cmd (now : ℕ)
  | udpCmd (fits : Bool) (now : ℕ)
  | poll (sockets : SocketSet)
  | service (handle : ℕ)
  | serviceUdp (now : ℕ)
  | reapIdleUdp (now : ℕ)
  | accept
  | dropFlows
  | write (flow : ℕ) (data : Bytes)
  | shutdown (flow : ℕ)
  | read (flow room : ℕ)
  | drop (flow : ℕ)
  | sendDatagram (flow : ℕ) (data : Bytes)
  | recvDatagram (flow : ℕ)
  | dropUdp (flow : ℕ)

def step : Event → NetStack
  | .packet pkt handle now => n.ingestPacket T.toParsers cfg pkt handle now
  | .cmd now => n.takeCmd cfg now
  | .udpCmd fits now => n.takeUdpCmd fits now
  | .poll sockets => { n with sockets, rx := [] }
  | .service handle => n.serviceSocket T cfg handle
  | .serviceUdp now => n.serviceUdp cfg now
  | .reapIdleUdp now => n.reapIdleUdp cfg now
  | .accept => n.acceptFlow
  | .dropFlows => n.dropFlows
  | .write flow data => (n.heldTcp.lookup flow).elim n (n.pollWrite cfg · data)
  | .shutdown flow => (n.heldTcp.lookup flow).elim n (n.pollShutdown cfg ·)
  | .read flow room => (n.heldTcp.lookup flow).elim n (n.readFlow · room)
  | .drop flow =>
    if flow ∈ n.heldTcp then { n.dropReceiver flow with heldTcp := n.heldTcp.erase flow } else n
  | .sendDatagram flow data => (n.heldUdp.lookup flow).elim n (n.sendDatagram cfg · data)
  | .recvDatagram flow =>
    if flow ∈ n.heldUdp then
      n.setReader flow { n.readers flow with queue := (n.readers flow).queue.tail }
    else n
  | .dropUdp flow =>
    if flow ∈ n.heldUdp then { n.dropReceiver flow with heldUdp := n.heldUdp.erase flow } else n

/-- A new socket gets a handle that no socket has, and a poll makes of the sockets what it may. -/
def Documented : Event → Prop
  | .packet _ handle _ => handle ∉ n.sockets
  | .poll sockets => n.sockets.Evolves sockets
  | _ => True

instance (n : NetStack) : DecidablePred n.Documented := fun _ => by
  unfold Documented
  split <;> infer_instance

end NetStack

end Mirage.Tun
