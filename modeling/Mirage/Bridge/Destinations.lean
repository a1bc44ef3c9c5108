import Mirage.Session.Frames

/-!
# Destinations an exit refuses

`crates/bridge/src/stream_dispatcher.rs`: which addresses a `BEGIN` may not lead to. Of
`crates/socks5/src/server.rs`, `AllowlistPolicy` and `connect_target`: what the resolver and the
network answer are arguments, and `connectTarget` also returns what it dialled, in order.
-/

namespace Mirage.Bridge

/-- `V6` as its eight segments. -/
inductive IpAddr
  | v4 (octets : Vector UInt8 4)
  | v6 (segments : Vector UInt16 8)
  deriving DecidableEq

namespace Ipv4

variable (o : Vector UInt8 4)

def isLoopback : Bool := o[0] = 127

def isPrivate : Bool :=
  o[0] = 10 || (o[0] = 172 && o[1] ≥ 16 && o[1] ≤ 31) || (o[0] = 192 && o[1] = 168)

def isLinkLocal : Bool := o[0] = 169 && o[1] = 254

def isMulticast : Bool := o[0] ≥ 224 && o[0] ≤ 239

def isBroadcast : Bool := o = #v[255, 255, 255, 255]

def isUnspecified : Bool := o = #v[0, 0, 0, 0]

def isDocumentation : Bool :=
  (o[0] = 192 && o[1] = 0 && o[2] = 2) || (o[0] = 198 && o[1] = 51 && o[2] = 100) ||
    (o[0] = 203 && o[1] = 0 && o[2] = 113)

end Ipv4

namespace Ipv6

variable (s : Vector UInt16 8)

def isLoopback : Bool := s = #v[0, 0, 0, 0, 0, 0, 0, 1]

def isUnspecified : Bool := s = #v[0, 0, 0, 0, 0, 0, 0, 0]

def isMulticast : Bool := s[0] &&& 0xff00 = 0xff00

end Ipv6

def ipIsLoopbackDest : IpAddr → Bool
  | .v4 o => Ipv4.isLoopback o
  | .v6 s => Ipv6.isLoopback s

def ipIsPrivateNetworkDest : IpAddr → Bool
  | .v4 o => Ipv4.isPrivate o || (o[0] = 100 && o[1] &&& 0xc0 = 0x40)
  | .v6 s => s[0] &&& 0xfe00 = 0xfc00

def ipIsAlwaysForbiddenDest : IpAddr → Bool
  | .v4 o =>
    Ipv4.isLinkLocal o || Ipv4.isMulticast o || Ipv4.isBroadcast o || Ipv4.isUnspecified o ||
      Ipv4.isDocumentation o ||
      (o[0] = 192 && o[1] = 0 && (o[2] = 0 || o[2] = 2)) ||
      (o[0] = 198 && (o[1] = 18 || o[1] = 19)) || (o[0] = 198 && o[1] = 51 && o[2] = 100) ||
      (o[0] = 203 && o[1] = 0 && o[2] = 113)
  | .v6 s =>
    Ipv6.isMulticast s || Ipv6.isUnspecified s ||
      s[0] &&& 0xffc0 = 0xfe80 ||
      -- IPv4-mapped
      (s[0] = 0 && s[1] = 0 && s[2] = 0 && s[3] = 0 && s[4] = 0 && s[5] = 0xffff) ||
      -- 6to4, Teredo, NAT64, IPv4-compatible
      s[0] = 0x2002 || (s[0] = 0x2001 && s[1] = 0) || (s[0] = 0x0064 && s[1] = 0xff9b) ||
      (s[0] = 0 && s[1] = 0 && s[2] = 0 && s[3] = 0 && s[4] = 0 && s[5] = 0 &&
        !(s[6] = 0 && (s[7] = 0 || s[7] = 1)))

def ipForbiddenAsDestination (ip : IpAddr) (allowPrivate allowLoopback : Bool) : Bool :=
  if ipIsAlwaysForbiddenDest ip then true
  else if ipIsLoopbackDest ip && !allowLoopback then true
  else if ipIsPrivateNetworkDest ip && !allowPrivate then true
  else false

end Mirage.Bridge

namespace Mirage.Socks5

open Words Bridge

structure SocketAddr where
  ip : IpAddr
  port : UInt16
  deriving DecidableEq

inductive ConnectTarget
  | ipv4 (octets : Vector UInt8 4) (port : UInt16)
  | ipv6 (segments : Vector UInt16 8) (port : UInt16)
  | domain (name : Bytes) (port : UInt16)

def ConnectTarget.port : ConnectTarget → UInt16
  | .ipv4 _ p => p
  | .ipv6 _ p => p
  | .domain _ p => p

structure AllowlistPolicy where
  denyLoopback : Bool
  denyPrivateNetworks : Bool
  allowedPorts : Option (List UInt16)

def toIpv4Mapped (s : Vector UInt16 8) : Option (Vector UInt8 4) :=
  if s[0] = 0 ∧ s[1] = 0 ∧ s[2] = 0 ∧ s[3] = 0 ∧ s[4] = 0 ∧ s[5] = 0xffff then
    some #v[(s[6] >>> 8).toUInt8, s[6].toUInt8, (s[7] >>> 8).toUInt8, s[7].toUInt8]
  else none

def canonicaliseIp : IpAddr → IpAddr
  | .v4 o => .v4 o
  | .v6 s =>
    match toIpv4Mapped s with
    | some o => .v4 o
    | none => .v6 s

def isPrivate : IpAddr → Bool
  | .v4 o =>
    Ipv4.isPrivate o || Ipv4.isLinkLocal o || Ipv4.isBroadcast o || Ipv4.isMulticast o ||
      Ipv4.isUnspecified o || (o[0] = 100 && o[1] &&& 0xc0 = 0x40)
  | .v6 s =>
    let v4CompatiblePrefix :=
      s[0] = 0 && s[1] = 0 && s[2] = 0 && s[3] = 0 && s[4] = 0 && s[5] = 0
    Ipv6.isLoopback s || Ipv6.isMulticast s || Ipv6.isUnspecified s ||
      s[0] &&& 0xfe00 = 0xfc00 || s[0] &&& 0xffc0 = 0xfe80 || v4CompatiblePrefix

namespace AllowlistPolicy

def safeDefaults : AllowlistPolicy := ⟨true, true, none⟩

variable (policy : AllowlistPolicy)

def check (addr : SocketAddr) : Except String Unit :=
  let ip := canonicaliseIp addr.ip
  if policy.denyLoopback && ipIsLoopbackDest ip then .error "loopback"
  else if policy.denyPrivateNetworks && isPrivate ip then .error "private-network"
  else if policy.allowedPorts.any fun ports => !ports.contains addr.port then
    .error "port-not-allowed"
  else .ok ()

def checkAllFrom (any : Bool) : List SocketAddr → Except String Unit
  | [] => if any then .ok () else .error "empty-resolution"
  | a :: addrs =>
    match policy.check a with
    | .error reason => .error reason
    | .ok () => checkAllFrom true addrs

def checkAll (addrs : List SocketAddr) : Except String Unit := policy.checkAllFrom false addrs

end AllowlistPolicy

def repGeneralFailure : UInt8 := 0x01

def repNotAllowed : UInt8 := 0x02

def repNetUnreachable : UInt8 := 0x03

def repHostUnreachable : UInt8 := 0x04

def repConnRefused : UInt8 := 0x05

inductive ErrorKind
  | connectionRefused
  | networkUnreachable
  | hostUnreachable
  | timedOut
  | other

def ErrorKind.reply : ErrorKind → UInt8
  | .connectionRefused => repConnRefused
  | .networkUnreachable => repNetUnreachable
  | .hostUnreachable => repHostUnreachable
  | .timedOut => repHostUnreachable
  | .other => repGeneralFailure

def toAsciiLowercase (b : UInt8) : UInt8 := if 65 ≤ b ∧ b ≤ 90 then b + 32 else b

def isMagicName (name : Bytes) : Bool :=
  name.take 1 = ascii "_" && (name.map toAsciiLowercase).take 8 = ascii "_mirage_"

/-- `lookup` is what the resolver says to a name, `none` if it fails or takes too long. -/
def resolve (lookup : Option (List IpAddr)) :
    ConnectTarget → Except UInt8 (List SocketAddr)
  | .ipv4 a p => .ok [⟨.v4 a, p⟩]
  | .ipv6 a p => .ok [⟨.v6 a, p⟩]
  | .domain name p =>
    if isMagicName name then .error repHostUnreachable
    else match lookup with
      | none => .error repHostUnreachable
      | some ips => .ok (ips.map fun ip => ⟨ip, p⟩)

/-- The loop over the allowed addresses; `outcomes` are the answers to the attempts in turn. -/
def dialEach (outcomes : ℕ → Option ErrorKind) (lastKind : ErrorKind) :
    List SocketAddr → List SocketAddr × Except UInt8 SocketAddr
  | [] => ([], .error lastKind.reply)
  | dest :: rest =>
    match outcomes 0 with
    | none => ([dest], .ok dest)
    | some kind =>
      let (dialled, result) := dialEach (fun i => outcomes (i + 1)) kind rest
      (dest :: dialled, result)

def connectTarget (lookup : Option (List IpAddr)) (outcomes : ℕ → Option ErrorKind)
    (target : ConnectTarget) (policy : AllowlistPolicy) :
    List SocketAddr × Except UInt8 SocketAddr :=
  match resolve lookup target with
  | .error rep => ([], .error rep)
  | .ok resolved =>
    if resolved.isEmpty then ([], .error repHostUnreachable)
    else
      let allowed := resolved.filter fun addr => (policy.check addr).isOk
      if allowed.isEmpty then ([], .error repNotAllowed)
      else dialEach outcomes .other allowed

end Mirage.Socks5
