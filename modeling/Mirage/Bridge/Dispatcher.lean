import Mirage.Bridge.Destinations
import Mirage.Circuit.Extend
import Mirage.Lib.Maps

/-!
# The exit's streams

`crates/bridge/src/stream_dispatcher.rs`: the `TcpStreamDispatcher` and the two pumps of each
upstream connection. Connections are numbered as they are made, and the map has the number of the
write channel under an id. `read`, `written` and the origin of an event are history.
-/

namespace Mirage.Bridge

open Circuits Words Maps

inductive StreamError
  | notASubCell (e : ExtendError)
  | body (msg : String)
  | io
  | unknownStream (id : StreamId)
  | unsupportedCommand (cmd : UInt8)
  | reverseChannelClosed
  | forbiddenDestination (host : Bytes) (addr : Option IpAddr)
  | streamCapacity (max : ℕ)
  | resolution (msg : String)
  | duplicateStream (id : StreamId)

def StreamError.ofBody : StreamBodyError → StreamError
  | .body msg => .body msg

inductive StreamEvent
  | data (streamId : StreamId) (bytes : Bytes)
  | ended (streamId : StreamId)

def StreamEvent.streamId : StreamEvent → StreamId
  | .data id _ => id
  | .ended id => id

structure TcpStreamDispatcherConfig where
  allowPrivateDestinations : Bool
  allowLoopbackDestinations : Bool
  maxStreams : ℕ
  hostAllowlist : Option (List Bytes)

def TcpStreamDispatcherConfig.default : TcpStreamDispatcherConfig := ⟨false, false, 256, none⟩

/-- What the network says to one `BEGIN`: the addresses of the name, and those that answer. -/
structure Network where
  lookupHost : Option (List IpAddr)
  reachable : List IpAddr

/-- The host policy, and the first address that can be connected to. -/
def connectUpstream (config : TcpStreamDispatcherConfig) (net : Network) (host : Bytes) :
    Except StreamError IpAddr :=
  if config.hostAllowlist.any fun hosts => !hosts.contains host then
    .error (.forbiddenDestination host none)
  else match net.lookupHost with
    | none => .error (.resolution "could not resolve")
    | some [] => .error (.resolution "no addresses")
    | some resolved =>
      match resolved.find? fun ip => ipForbiddenAsDestination ip config.allowPrivateDestinations
          config.allowLoopbackDestinations with
      | some ip => .error (.forbiddenDestination host (some ip))
      | none =>
        match resolved.find? fun ip => net.reachable.contains ip with
        | some ip => .ok ip
        | none => .error .io

inductive ReadPump
  | running
  /-- The end is reported and the map's entry is still to be removed. -/
  | closing
  | done
  deriving DecidableEq

structure Upstream where
  streamId : StreamId
  addr : IpAddr
  pump : ReadPump
  writable : Bool
  read : List Bytes
  written : List Bytes
  deriving DecidableEq

structure TcpStreamDispatcher where
  streams : AList fun _ : StreamId => ℕ
  upstreams : List Upstream
  events : List (ℕ × StreamEvent)
  listening : Bool
  config : TcpStreamDispatcherConfig

namespace TcpStreamDispatcher

def withConfig (config : TcpStreamDispatcherConfig) : TcpStreamDispatcher :=
  ⟨∅, [], [], true, config⟩

variable (d : TcpStreamDispatcher)

def setUpstream (u : ℕ) (f : Upstream → Upstream) : TcpStreamDispatcher :=
  { d with upstreams := d.upstreams.modify u f }

def openUpstream (id : StreamId) (addr : IpAddr) : TcpStreamDispatcher :=
  { d with
    streams := d.streams.insert id d.upstreams.length
    upstreams := d.upstreams ++ [⟨id, addr, .running, true, [], []⟩] }

def dispatchBegin (net : Network) (b : BeginBody) : Except StreamError Unit × TcpStreamDispatcher :=
  if (d.streams.lookup b.streamId).isSome then (.error (.duplicateStream b.streamId), d)
  else if d.config.maxStreams ≤ size d.streams then
    (.error (.streamCapacity d.config.maxStreams), d)
  else match connectUpstream d.config net b.host with
    | .error e => (.error e, d)
    | .ok addr => (.ok (), d.openUpstream b.streamId addr)

def dispatchData (b : DataBody) : Except StreamError Unit × TcpStreamDispatcher :=
  match d.streams.lookup b.streamId with
  | none => (.error (.unknownStream b.streamId), d)
  | some u =>
    if d.upstreams[u]?.any (·.writable) then
      (.ok (), d.setUpstream u fun up => { up with written := up.written ++ [b.bytes] })
    else (.error .reverseChannelClosed, d)

def dispatchEnd (b : EndBody) : TcpStreamDispatcher :=
  { d with streams := d.streams.erase b.streamId }

def dispatch (net : Network) (payload : Bytes) : Except StreamError Unit × TcpStreamDispatcher :=
  match RelaySubCell.decode payload with
  | .error e => (.error (.notASubCell e), d)
  | .ok sub =>
    if sub.command = cmdBegin then
      match BeginBody.decode sub.body with
      | .error e => (.error (.ofBody e), d)
      | .ok b => d.dispatchBegin net b
    else if sub.command = cmdData then
      match DataBody.decode sub.body with
      | .error e => (.error (.ofBody e), d)
      | .ok b => d.dispatchData b
    else if sub.command = cmdEnd then
      match EndBody.decode sub.body with
      | .error e => (.error (.ofBody e), d)
      | .ok b => (.ok (), d.dispatchEnd b)
    else (.error (.unsupportedCommand sub.command), d)

end TcpStreamDispatcher

def readBufferLen : ℕ := 4096

inductive PumpEvent
  | read (u : ℕ) (bytes : Bytes)
  | eof (u : ℕ)
  | remove (u : ℕ)
  | writeFailed (u : ℕ)

namespace TcpStreamDispatcher

variable (d : TcpStreamDispatcher)

def emit (u : ℕ) (e : StreamEvent) : TcpStreamDispatcher :=
  { d with events := if d.listening then d.events ++ [(u, e)] else d.events }

def pumpAt (u : ℕ) (pump : ReadPump) : Option Upstream :=
  d.upstreams[u]?.filter fun up => up.pump = pump

def pumpRead (u : ℕ) (bytes : Bytes) : TcpStreamDispatcher :=
  match d.pumpAt u .running with
  | none => d
  | some up =>
    if bytes = [] ∨ readBufferLen < bytes.length then d
    else if d.listening then
      (d.setUpstream u fun up => { up with read := up.read ++ [bytes] }).emit u
        (.data up.streamId bytes)
    -- Nobody takes the bytes: the pump ends and leaves the map as it is.
    else d.setUpstream u fun up => { up with pump := .done }

def pumpEof (u : ℕ) : TcpStreamDispatcher :=
  match d.pumpAt u .running with
  | none => d
  | some up =>
    (d.setUpstream u fun up => { up with pump := .closing }).emit u (.ended up.streamId)

def pumpRemove (u : ℕ) : TcpStreamDispatcher :=
  match d.pumpAt u .closing with
  | none => d
  | some up =>
    { d.setUpstream u fun up => { up with pump := .done } with
      streams := d.streams.erase up.streamId }

def pump : PumpEvent → TcpStreamDispatcher
  | .read u bytes => d.pumpRead u bytes
  | .eof u => d.pumpEof u
  | .remove u => d.pumpRemove u
  | .writeFailed u => d.setUpstream u fun up => { up with writable := false }

end TcpStreamDispatcher

inductive DispatcherEvent
  | dispatch (net : Network) (payload : Bytes)
  | pump (e : PumpEvent)
  | take
  | stopListening

namespace TcpStreamDispatcher

def step (d : TcpStreamDispatcher) : DispatcherEvent → TcpStreamDispatcher
  | .dispatch net payload => (d.dispatch net payload).2
  | .pump e => d.pump e
  | .take => { d with events := d.events.tail }
  | .stopListening => { d with listening := false }

end TcpStreamDispatcher

end Mirage.Bridge
