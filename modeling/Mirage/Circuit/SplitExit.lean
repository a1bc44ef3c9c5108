import Mirage.Lib.Maps
import Mirage.Mux.Frame

/-!
# Split exit

`crates/circuit/src/split_exit.rs`: the resolver takes the name of a destination and hands its
address to the forwarder, which connects. The two are joined by a channel each way. Times are in
seconds; a host name is its bytes. History: `lives` counts the streams an id has stood for, `handed`
is the address handed off for the last of them.
-/

namespace Mirage.SplitExit

open Words Maps Mux

abbrev Instant := ℕ

inductive IpAddr
  | v4 (octets : Vector UInt8 4)
  | v6 (octets : Vector UInt8 16)
  deriving DecidableEq

structure SocketAddr where
  ip : IpAddr
  port : UInt16
  deriving DecidableEq

inductive HandoffStatus
  | ok
  | policyDenied
  | connectRefused
  | connectTimeout
  | rateLimited
  | internal
  deriving DecidableEq

def HandoffStatus.isOk (status : HandoffStatus) : Bool := status = .ok

inductive ResolveTarget
  | ipv4 (addr : Vector UInt8 4) (port : UInt16)
  | ipv6 (addr : Vector UInt8 16) (port : UInt16)
  | domain (domain : Bytes) (port : UInt16)

structure ResolveBody where
  streamId : UInt32
  target : ResolveTarget

structure HandoffBody where
  streamId : UInt32
  addr : SocketAddr
  deriving DecidableEq

structure HandoffResultBody where
  streamId : UInt32
  status : HandoffStatus

inductive ResolverStreamState
  | resolving
  | handing
  | open
  | closed
  deriving DecidableEq, Repr

inductive ForwarderStreamState
  | connecting
  | open
  | closed
  deriving DecidableEq, Repr

inductive SplitExitError
  | wire (msg : String)
  | hostLength (len : ℕ)
  | hostNotLdh
  | hostEncoding
  | zeroPort
  | domainNotAllowedInHandoff
  | zeroStreamId
  | streamExists (streamId : UInt32)
  | unknownStream (streamId : UInt32)
  | badState (streamId : UInt32) (state : ResolverStreamState)
  | badForwarderState (streamId : UInt32) (state : ForwarderStreamState)
  | resolverPendingCap (cap : UInt32)
  | forwarderPendingCap (cap : UInt32)
  | resolverStreamCap (cap : UInt32)
  | forwarderStreamCap (cap : UInt32)
  deriving DecidableEq

def ipv4MappedIpv6 : SplitExitError := .wire "IPv4-mapped IPv6 must use IPv4 atyp"

/-- The target, which waits for the port, and what follows it. -/
def ResolveTarget.decode (atyp : UInt8) (buf : Bytes) :
    Except SplitExitError ((UInt16 → ResolveTarget) × Bytes) :=
  match atyp with
  | 0x01 =>
    if buf.length < 6 then .error (.wire "RESOLVE ipv4 truncated")
    else .ok (.ipv4 (vec 4 buf), buf.drop 4)
  | 0x04 =>
    if buf.length < 18 then .error (.wire "RESOLVE ipv6 truncated")
    else if isIpv4Mapped (vec 16 buf) then .error ipv4MappedIpv6
    else .ok (.ipv6 (vec 16 buf), buf.drop 16)
  | 0x03 => match buf with
    | [] => .error (.wire "RESOLVE domain truncated at len")
    | len :: buf =>
      let domain := buf.take len.toNat
      if len = 0 ∨ 253 < len then .error (.hostLength len.toNat)
      else if buf.length < len.toNat + 2 then .error (.wire "RESOLVE domain truncated")
      else if !isUtf8 domain then .error .hostEncoding
      else if !isLdhHostname domain then .error .hostNotLdh
      else .ok (.domain domain, buf.drop len.toNat)
  | _ => .error (.wire "unknown RESOLVE atyp")

def ResolveBody.decode : Bytes → Except SplitExitError ResolveBody
  | i₀ :: i₁ :: i₂ :: i₃ :: atyp :: buf =>
    let streamId := UInt32.ofNat (beNat [i₀, i₁, i₂, i₃])
    if streamId = 0 then .error .zeroStreamId
    else match ResolveTarget.decode atyp buf with
      | .error e => .error e
      | .ok (target, port) =>
        if port.length ≠ 2 then .error (.wire "RESOLVE trailing bytes")
        else if UInt16.ofNat (beNat port) = 0 then .error .zeroPort
        else .ok ⟨streamId, target (UInt16.ofNat (beNat port))⟩
  | _ => .error (.wire "RESOLVE body too short")

def HandoffBody.encode (h : HandoffBody) : Except SplitExitError Bytes :=
  let out (atyp : UInt8) (octets : Bytes) :=
    beBytes 4 h.streamId.toNat ++ atyp :: (octets ++ beBytes 2 h.addr.port.toNat)
  if h.streamId = 0 then .error .zeroStreamId
  else if h.addr.port = 0 then .error .zeroPort
  else match h.addr.ip with
    | .v4 octets => .ok (out 0x01 octets.toList)
    | .v6 octets =>
      if isIpv4Mapped octets then .error ipv4MappedIpv6 else .ok (out 0x04 octets.toList)

def HandoffBody.decode : Bytes → Except SplitExitError HandoffBody
  | i₀ :: i₁ :: i₂ :: i₃ :: atyp :: buf =>
    let streamId := UInt32.ofNat (beNat [i₀, i₁, i₂, i₃])
    let body (ip : IpAddr) (port : UInt16) : Except SplitExitError HandoffBody :=
      if port = 0 then .error .zeroPort else .ok ⟨streamId, ip, port⟩
    if streamId = 0 then .error .zeroStreamId
    else match atyp with
      | 0x01 =>
        if buf.length ≠ 6 then .error (.wire "HANDOFF ipv4 wrong length")
        else body (.v4 (vec 4 buf)) (UInt16.ofNat (beNat (buf.drop 4)))
      | 0x04 =>
        if buf.length ≠ 18 then .error (.wire "HANDOFF ipv6 wrong length")
        else if isIpv4Mapped (vec 16 buf) then .error ipv4MappedIpv6
        else body (.v6 (vec 16 buf)) (UInt16.ofNat (beNat (buf.drop 16)))
      | 0x03 => .error .domainNotAllowedInHandoff
      | _ => .error (.wire "unknown HANDOFF atyp")
  | _ => .error (.wire "HANDOFF body too short")

def saturatingPred (count : UInt32) : UInt32 := if count = 0 then 0 else count - 1

structure ResolverPolicy where
  maxPending : UInt32
  maxStreams : UInt32
  resolveTimeout : ℕ
  handoffTimeout : ℕ

def ResolverPolicy.default : ResolverPolicy := ⟨32, 4096, 10, 15⟩

inductive ResolverDecision
  | needDns (streamId : UInt32) (host : Bytes) (port : UInt16)
  | emitHandoff (body : HandoffBody)

structure ResolverEntry where
  state : ResolverStreamState
  port : UInt16
  stateEntered : Instant

def ResolverEntry.pending (e : ResolverEntry) : Bool := e.state = .resolving || e.state = .handing

structure ResolverState where
  policy : ResolverPolicy
  streams : AList fun _ : UInt32 => ResolverEntry
  pendingCount : UInt32

namespace ResolverState

def new (policy : ResolverPolicy) : ResolverState := ⟨policy, ∅, 0⟩

variable (r : ResolverState)

def streamState (streamId : UInt32) : Option ResolverStreamState :=
  (r.streams.lookup streamId).map (·.state)

def setEntry (streamId : UInt32) (e : ResolverEntry) : ResolverState :=
  { r with streams := r.streams.insert streamId e }

def addPending (streamId : UInt32) (e : ResolverEntry) : ResolverState :=
  { r.setEntry streamId e with pendingCount := r.pendingCount + 1 }

def observeResolve (body : ResolveBody) (now : Instant) :
    Except SplitExitError ResolverDecision × ResolverState :=
  if (r.streams.lookup body.streamId).isSome then (.error (.streamExists body.streamId), r)
  else if r.policy.maxStreams ≤ UInt32.ofNat (size r.streams) then
    (.error (.resolverStreamCap r.policy.maxStreams), r)
  else if r.policy.maxPending ≤ r.pendingCount then
    (.error (.resolverPendingCap r.policy.maxPending), r)
  else match body.target with
    | .domain domain port =>
      (.ok (.needDns body.streamId domain port), r.addPending body.streamId ⟨.resolving, port, now⟩)
    | .ipv4 addr port =>
      (.ok (.emitHandoff ⟨body.streamId, .v4 addr, port⟩),
        r.addPending body.streamId ⟨.handing, port, now⟩)
    | .ipv6 addr port =>
      (.ok (.emitHandoff ⟨body.streamId, .v6 addr, port⟩),
        r.addPending body.streamId ⟨.handing, port, now⟩)

def recordResolution (streamId : UInt32) (ip : IpAddr) (now : Instant) :
    Except SplitExitError HandoffBody × ResolverState :=
  match r.streams.lookup streamId with
  | none => (.error (.unknownStream streamId), r)
  | some entry =>
    if entry.state ≠ .resolving then (.error (.badState streamId entry.state), r)
    else
      (.ok ⟨streamId, ip, entry.port⟩,
        r.setEntry streamId { entry with state := .handing, stateEntered := now })

def closeStream (streamId : UInt32) : Except SplitExitError Unit × ResolverState :=
  match r.streams.lookup streamId with
  | none => (.error (.unknownStream streamId), r)
  | some entry =>
    (.ok (),
      { r with
        streams := r.streams.erase streamId
        pendingCount := if entry.pending then saturatingPred r.pendingCount else r.pendingCount })

def recordResolutionFailure (streamId : UInt32) : Except SplitExitError Unit × ResolverState :=
  r.closeStream streamId

def observeHandoffResult (body : HandoffResultBody) :
    Except SplitExitError HandoffStatus × ResolverState :=
  match r.streams.lookup body.streamId with
  | none => (.error (.unknownStream body.streamId), r)
  | some entry =>
    if entry.state ≠ .handing then (.error (.badState body.streamId entry.state), r)
    else if body.status.isOk then
      (.ok body.status,
        { r.setEntry body.streamId { entry with state := .open } with
          pendingCount := saturatingPred r.pendingCount })
    else match r.closeStream body.streamId with
      | (.ok (), r) => (.ok body.status, r)
      | (.error e, r) => (.error e, r)

def timedOut (now : Instant) (entry : ResolverEntry) : Bool :=
  match entry.state with
  | .resolving => r.policy.resolveTimeout ≤ now - entry.stateEntered
  | .handing => r.policy.handoffTimeout ≤ now - entry.stateEntered
  | .open => false
  | .closed => false

def sweepTimeouts (order : List UInt32) (now : Instant) : List UInt32 × ResolverState :=
  let victims := order.filter fun id => (r.streams.lookup id).any (r.timedOut now)
  (victims, victims.foldl (fun r id => (r.closeStream id).2) r)

end ResolverState

/-- A call of the resolver; a `RESOLVE` is given as its bytes. -/
inductive ResolverCall
  | observeResolve (buf : Bytes) (now : Instant)
  | recordResolution (streamId : UInt32) (ip : IpAddr) (now : Instant)
  | closeStream (streamId : UInt32)
  | recordResolutionFailure (streamId : UInt32)
  | observeHandoffResult (body : HandoffResultBody)
  | sweepTimeouts (order : List UInt32) (now : Instant)

def ResolverState.call (r : ResolverState) : ResolverCall → Option HandoffBody × ResolverState
  | .observeResolve buf now => match ResolveBody.decode buf with
    | .error _ => (none, r)
    | .ok body => match r.observeResolve body now with
      | (.ok (.emitHandoff h), r) => (some h, r)
      | (_, r) => (none, r)
  | .recordResolution id ip now =>
    ((r.recordResolution id ip now).1.toOption, (r.recordResolution id ip now).2)
  | .closeStream id => (none, (r.closeStream id).2)
  | .recordResolutionFailure id => (none, (r.recordResolutionFailure id).2)
  | .observeHandoffResult body => (none, (r.observeHandoffResult body).2)
  | .sweepTimeouts order now => (none, (r.sweepTimeouts order now).2)

structure ForwarderPolicy where
  maxPending : UInt32
  maxStreams : UInt32
  connectTimeout : ℕ

def ForwarderPolicy.default : ForwarderPolicy := ⟨32, 4096, 10⟩

structure ForwarderEntry where
  state : ForwarderStreamState
  dest : SocketAddr
  stateEntered : Instant

structure ForwarderState where
  policy : ForwarderPolicy
  streams : AList fun _ : UInt32 => ForwarderEntry
  pendingCount : UInt32

namespace ForwarderState

def new (policy : ForwarderPolicy) : ForwarderState := ⟨policy, ∅, 0⟩

variable (f : ForwarderState)

def streamDest (streamId : UInt32) : Option SocketAddr := (f.streams.lookup streamId).map (·.dest)

def observeHandoff (body : HandoffBody) (now : Instant) :
    Except SplitExitError Unit × ForwarderState :=
  if (f.streams.lookup body.streamId).isSome then (.error (.streamExists body.streamId), f)
  else if f.policy.maxStreams ≤ UInt32.ofNat (size f.streams) then
    (.error (.forwarderStreamCap f.policy.maxStreams), f)
  else if f.policy.maxPending ≤ f.pendingCount then
    (.error (.forwarderPendingCap f.policy.maxPending), f)
  else
    (.ok (),
      { f with
        streams := f.streams.insert body.streamId ⟨.connecting, body.addr, now⟩
        pendingCount := f.pendingCount + 1 })

def closeStream (streamId : UInt32) : Except SplitExitError Unit × ForwarderState :=
  match f.streams.lookup streamId with
  | none => (.error (.unknownStream streamId), f)
  | some entry =>
    (.ok (),
      { f with
        streams := f.streams.erase streamId
        pendingCount :=
          if entry.state = .connecting then saturatingPred f.pendingCount else f.pendingCount })

def recordConnectResult (streamId : UInt32) (status : HandoffStatus) :
    Except SplitExitError HandoffResultBody × ForwarderState :=
  match f.streams.lookup streamId with
  | none => (.error (.unknownStream streamId), f)
  | some entry =>
    if entry.state ≠ .connecting then (.error (.badForwarderState streamId entry.state), f)
    else if status.isOk then
      (.ok ⟨streamId, status⟩,
        { f with
          streams := f.streams.insert streamId { entry with state := .open }
          pendingCount := saturatingPred f.pendingCount })
    else match f.closeStream streamId with
      | (.ok (), f) => (.ok ⟨streamId, status⟩, f)
      | (.error e, f) => (.error e, f)

def timedOut (now : Instant) (entry : ForwarderEntry) : Bool :=
  entry.state = .connecting && f.policy.connectTimeout ≤ now - entry.stateEntered

def sweepTimeouts (order : List UInt32) (now : Instant) : List UInt32 × ForwarderState :=
  let victims := order.filter fun id => (f.streams.lookup id).any (f.timedOut now)
  (victims, victims.foldl (fun f id => (f.closeStream id).2) f)

end ForwarderState

structure Dial where
  streamId : UInt32
  addr : SocketAddr
  life : ℕ
  deriving DecidableEq

inductive Message
  | handoff (body : HandoffBody) (life : ℕ)
  | close (streamId : UInt32)

/-- What the forwarder sends, with the attempt that it reports. -/
structure Answer where
  body : HandoffResultBody
  dial : Dial

structure Pair where
  resolver : ResolverState
  forwarder : ForwarderState
  toForwarder : List Message
  toResolver : List Answer
  dials : List Dial
  lives : UInt32 → ℕ
  handed : UInt32 → Option SocketAddr

/-- What can happen; `tell` says that the forwarder is told of the closing. -/
inductive PairEvent
  | resolve (body : ResolveBody) (now : Instant)
  | resolved (streamId : UInt32) (ip : IpAddr) (now : Instant)
  | resolutionFailed (streamId : UInt32) (tell : Bool)
  | closeAtResolver (streamId : UInt32) (tell : Bool)
  | sweepResolver (order : List UInt32) (now : Instant) (tell : Bool)
  | forward (now : Instant)
  | connected (k : ℕ) (status : HandoffStatus)
  | closeAtForwarder (streamId : UInt32)
  | sweepForwarder (order : List UInt32) (now : Instant)
  | result

namespace Pair

def new (policy : ResolverPolicy) (policy' : ForwarderPolicy) : Pair :=
  ⟨.new policy, .new policy', [], [], [], fun _ => 0, fun _ => none⟩

variable (s : Pair)

def begin (streamId : UInt32) : Pair :=
  { s with
    lives := Function.update s.lives streamId (s.lives streamId + 1)
    handed := Function.update s.handed streamId none }

def handOff (body : HandoffBody) : Pair :=
  { s with
    toForwarder := s.toForwarder ++ [.handoff body (s.lives body.streamId)]
    handed := Function.update s.handed body.streamId (some body.addr) }

def tellClosed (tell : Bool) (ids : List UInt32) : Pair :=
  if tell then { s with toForwarder := s.toForwarder ++ ids.map .close } else s

def closedAtResolver (streamId : UInt32) (tell : Bool)
    (reply : Except SplitExitError Unit × ResolverState) : Pair :=
  match reply with
  | (.ok (), r) => { s with resolver := r }.tellClosed tell [streamId]
  | (.error _, _) => s

def resolve (body : ResolveBody) (now : Instant) : Pair :=
  match s.resolver.observeResolve body now with
  | (.ok (.needDns _ _ _), r) => { s with resolver := r }.begin body.streamId
  | (.ok (.emitHandoff handoff), r) =>
    ({ s with resolver := r }.begin body.streamId).handOff handoff
  | (.error _, _) => s

def resolved (streamId : UInt32) (ip : IpAddr) (now : Instant) : Pair :=
  match s.resolver.recordResolution streamId ip now with
  | (.ok handoff, r) => { s with resolver := r }.handOff handoff
  | (.error _, _) => s

def forward (now : Instant) : Pair :=
  match s.toForwarder with
  | [] => s
  | .handoff body life :: rest =>
    let s := { s with toForwarder := rest }
    match s.forwarder.observeHandoff body now with
    | (.ok (), f) =>
      { s with forwarder := f, dials := s.dials ++ [⟨body.streamId, body.addr, life⟩] }
    | (.error _, _) => s
  | .close streamId :: rest =>
    { s with toForwarder := rest, forwarder := (s.forwarder.closeStream streamId).2 }

def connected (k : ℕ) (status : HandoffStatus) : Pair :=
  match s.dials[k]? with
  | none => s
  | some dial =>
    let s := { s with dials := s.dials.eraseIdx k }
    match s.forwarder.recordConnectResult dial.streamId status with
    | (.ok body, f) => { s with forwarder := f, toResolver := s.toResolver ++ [⟨body, dial⟩] }
    | (.error _, _) => s

def result : Pair :=
  match s.toResolver with
  | [] => s
  | answer :: rest =>
    { s with resolver := (s.resolver.observeHandoffResult answer.body).2, toResolver := rest }

def step : PairEvent → Pair
  | .resolve body now => s.resolve body now
  | .resolved streamId ip now => s.resolved streamId ip now
  | .resolutionFailed streamId tell =>
    s.closedAtResolver streamId tell (s.resolver.recordResolutionFailure streamId)
  | .closeAtResolver streamId tell =>
    s.closedAtResolver streamId tell (s.resolver.closeStream streamId)
  | .sweepResolver order now tell =>
    let p := s.resolver.sweepTimeouts order now
    { s with resolver := p.2 }.tellClosed tell p.1
  | .forward now => s.forward now
  | .connected k status => s.connected k status
  | .closeAtForwarder streamId => { s with forwarder := (s.forwarder.closeStream streamId).2 }
  | .sweepForwarder order now => { s with forwarder := (s.forwarder.sweepTimeouts order now).2 }
  | .result => s.result

end Pair

end Mirage.SplitExit
