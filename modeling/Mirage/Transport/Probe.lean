import Mirage.Lib.Maps
import Mirage.Lib.Runs
import Mirage.Session.Frames

/-!
# Reality probes

`crates/transport-reality/src/probe.rs` and `replay.rs`: the probe that a client hides in the
session id of its ClientHello, the bridge's check of it, and the set of accepted probes. BLAKE3 and
X25519 are parameters. `ProbeLog` is a run of checks on one set.
-/

namespace Mirage.Transport

open Words Maps

structure RealitySuite where
  blake3Keyed : Bytes32 → Bytes → Bytes32
  diffieHellman : Bytes32 → Bytes32 → Bytes32

inductive RealityError
  | sessionIdLen
  | timestampStale
  | tagMismatch
  | replay
  | replaySetFull
  | zeroPoint

structure ReplayProbeSet where
  entries : AList fun _ : Vector UInt8 12 × UInt32 => ℕ
  maxEntries : ℕ
  recentlyFull : Bool

namespace ReplayProbeSet

def new (maxEntries : ℕ) : ReplayProbeSet := ⟨∅, maxEntries, false⟩

variable (set : ReplayProbeSet)

def evictExpired (nowUnix : ℕ) : ReplayProbeSet :=
  { set with entries := retain (fun deadline => nowUnix ≤ deadline) set.entries }

def insert (key : Vector UInt8 12 × UInt32) (retentionDeadline : ℕ) : ReplayProbeSet :=
  { set with entries := set.entries.insert key retentionDeadline, recentlyFull := false }

def checkAndInsert (nonce : Vector UInt8 12) (timestamp : UInt32)
    (retentionDeadline nowUnix : ℕ) : Bool × ReplayProbeSet :=
  if (nonce, timestamp) ∈ set.entries then (false, { set with recentlyFull := false })
  else if set.maxEntries ≤ size set.entries then
    let set := set.evictExpired nowUnix
    if set.maxEntries ≤ size set.entries then (false, { set with recentlyFull := true })
    else (true, set.insert (nonce, timestamp) retentionDeadline)
  else (true, set.insert (nonce, timestamp) retentionDeadline)

end ReplayProbeSet

def sessionIdLen : ℕ := 32

def nonceLen : ℕ := 12

def timestampWindowSeconds : ℕ := 60

def authKeyLabel : Bytes := ascii "mirage-reality-auth-key-v1"

def probeEpochLabel : Bytes := ascii "mirage-reality-probe-epoch-v1"

def probeTsMaskLabel : Bytes := ascii "mirage-reality-probe-ts-mask-v1"

def probeEpochSeconds : ℕ := 86400

def probeRootDisabled : Bytes32 := Vector.replicate 32 0

structure Probe where
  nonce : Vector UInt8 12
  timestamp : UInt32
  tag : Vector UInt8 16

def Probe.decode (bytes : Bytes) : Except RealityError Probe :=
  if bytes.length ≠ sessionIdLen then .error .sessionIdLen
  else .ok ⟨vec 12 bytes, UInt32.ofNat (beNat ((bytes.drop nonceLen).take 4)),
    vec 16 (bytes.drop (nonceLen + 4))⟩

section

variable (S : RealitySuite)

def probeEpoch (unixSecs : ℕ) : ℕ := unixSecs / probeEpochSeconds

/-- There is no secret, and no binding to the epoch, if the root is disabled. -/
def deriveEpochProbeSecret (probeRoot : Bytes32) (epoch : ℕ) : Option Bytes32 :=
  if probeRoot = probeRootDisabled then none
  else some (S.blake3Keyed probeRoot (probeEpochLabel ++ beBytes 8 epoch))

def probeTsMask (shared : Bytes32) (nonce : Vector UInt8 12) : UInt32 :=
  let d := S.blake3Keyed shared (probeTsMaskLabel ++ nonce.toList)
  UInt32.ofNat (beNat (d.toList.take 4))

def deriveAuthKey (shared : Bytes32) (epochSecret : Option Bytes32) : Bytes32 :=
  S.blake3Keyed shared (authKeyLabel ++
    match epochSecret with
    | some es => es.toList
    | none => [])

def computeTag (authKey : Bytes32) (nonce : Vector UInt8 12) (timestamp : UInt32)
    (chRandom ephPk : Bytes32) : Vector UInt8 16 :=
  vec 16 (S.blake3Keyed authKey (nonce.toList ++ beBytes 4 timestamp.toNat ++ chRandom.toList ++
    ephPk.toList)).toList

structure BridgeProbeInputs where
  clientEphPk : Bytes32
  chRandom : Bytes32
  nowUnix : UInt32
  wireProbe : Bytes32
  probeRoot : Bytes32
  acceptLegacy : Bool
  deriving DecidableEq

def verifyProbe (bridgeStaticSk : Bytes32) (inputs : BridgeProbeInputs)
    (set : ReplayProbeSet) : Except RealityError Unit × ReplayProbeSet :=
  match Probe.decode inputs.wireProbe.toList with
  | .error e => (.error e, set)
  | .ok probe =>
    let shared := S.diffieHellman bridgeStaticSk inputs.clientEphPk
    let realTs := probe.timestamp ^^^ probeTsMask S shared probe.nonce
    let now := inputs.nowUnix.toNat
    let ts := realTs.toNat
    let skew := max now ts - min now ts
    let epochSecret := deriveEpochProbeSecret S inputs.probeRoot (probeEpoch ts)
    let tagUnder (secret : Option Bytes32) :=
      computeTag S (deriveAuthKey S shared secret) probe.nonce realTs inputs.chRandom
        inputs.clientEphPk
    let boundOk : Bool := probe.tag = tagUnder epochSecret
    let legacyOk : Bool := probe.tag = tagUnder none
    let tagOk :=
      if epochSecret.isSome then boundOk || inputs.acceptLegacy && legacyOk else legacyOk
    if shared = Vector.replicate 32 0 then (.error .zeroPoint, set)
    else if timestampWindowSeconds < skew then (.error .timestampStale, set)
    else if !tagOk then (.error .tagMismatch, set)
    else
      let retention := min (ts + timestampWindowSeconds * 2) (2 ^ 64 - 1)
      match set.checkAndInsert probe.nonce realTs retention now with
      | (true, set) => (.ok (), set)
      | (false, set) => (.error (if set.recentlyFull then .replaySetFull else .replay), set)

end

/-- `accepted` are the checks that succeeded, the last one first; `clock` is the last time. -/
structure ProbeLog where
  set : ReplayProbeSet
  accepted : List BridgeProbeInputs
  clock : UInt32

namespace ProbeLog

def new (maxEntries : ℕ) : ProbeLog := ⟨.new maxEntries, [], 0⟩

def step (S : RealitySuite) (sk : Bytes32) (b : ProbeLog) (inputs : BridgeProbeInputs) : ProbeLog :=
  match verifyProbe S sk inputs b.set with
  | (.ok (), set) => ⟨set, inputs :: b.accepted, inputs.nowUnix⟩
  | (.error _, set) => ⟨set, b.accepted, inputs.nowUnix⟩

end ProbeLog

/-!
## The Reality bridge and its cover

`reality_accept` of `crates/transport-reality/src/carrier.rs`, up to what it does with a probe that
it accepts. A client is what arrives of it and when. The cover is reached after a time, if at all;
`copy_bidirectional` passes on what comes from either side until the cap. The parser of a
ClientHello is a parameter. Times are in nanoseconds.
-/

def recordHeaderLen : ℕ := 5

def maxClientHelloSize : ℕ := 16384

/-- The chunks with their times of arrival, in order, and when the client half-closes. -/
structure ClientStream where
  chunks : List (ℕ × Bytes)
  closed : Option ℕ

namespace ClientStream

variable (c : ClientStream)

def sentBy (t : ℕ) : Bytes := (c.chunks.takeWhile fun chunk => chunk.1 ≤ t).flatMap Prod.snd

def endedBy (t : ℕ) : Bool := c.closed.any (· ≤ t) && c.chunks.all fun chunk => chunk.1 ≤ t

end ClientStream

def claimed (bytes : Bytes) : ℕ := beNat ((bytes.drop 3).take 2)

/-- On what has arrived: `none` while it waits, then what was read, and the record or error. -/
def readOneTlsRecord (maxSize : ℕ) (bytes : Bytes) (ended : Bool) :
    Option (ℕ × Except Bytes Bytes) :=
  if bytes.length < recordHeaderLen then
    if ended then some (bytes.length, .error []) else none
  else if maxSize < recordHeaderLen + claimed bytes then
    some (recordHeaderLen, .error (bytes.take recordHeaderLen))
  else if bytes.length < recordHeaderLen + claimed bytes then
    if ended then some (bytes.length, .error (bytes.take recordHeaderLen)) else none
  else some (recordHeaderLen + claimed bytes, .ok (bytes.take (recordHeaderLen + claimed bytes)))

structure ParsedClientHello where
  random : Bytes32
  sessionId : Bytes32
  x25519KeyShare : Bytes32

structure BridgeCarrierInputs where
  bridgeStaticSk : Bytes32
  nowUnix : UInt32
  probeRoot : Bytes32
  acceptLegacy : Bool
  clientHelloReadTimeout : ℕ
  coverDurationCap : ℕ

/-- How long it takes to reach the cover, and what it answers, with the end or without. -/
structure Cover where
  connect : Option ℕ
  answer : Bytes → Bool → Bytes

/-- With `coverServed` goes the time of the cut, and what the cover and the client have got by
then. -/
inductive AcceptOutcome
  | timeout
  | authenticated
  | unreachable
  | coverServed (cut : ℕ) (toCover : Bytes) (ended : Bool) (toClient : Bytes)
  deriving DecidableEq

section

variable (S : RealitySuite) (parse : Bytes → Except RealityError ParsedClientHello)
  (inputs : BridgeCarrierInputs) (jitter : ℕ → ℕ) (cover : Cover)

/-- `jitter` is `mul_f64` with the drawn factor; the first `read` bytes have been read. -/
def forwardToCover (c : ClientStream) (start read : ℕ) (buffered : Bytes) : AcceptOutcome :=
  match cover.connect with
  | none => .unreachable
  | some delay =>
    let durationCap :=
      if inputs.coverDurationCap = 0 then inputs.coverDurationCap
      else jitter inputs.coverDurationCap
    let cut := start + delay + durationCap
    let toCover := buffered ++ (c.sentBy cut).drop read
    .coverServed cut toCover (c.endedBy cut) (cover.answer toCover (c.endedBy cut))

/-- When the record has been read, or cannot be, if that is before the deadline. -/
def decidedAt (c : ClientStream) : Option ℕ :=
  (List.range (inputs.clientHelloReadTimeout + 1)).find? fun t =>
    (readOneTlsRecord (maxClientHelloSize + recordHeaderLen) (c.sentBy t) (c.endedBy t)).isSome

def realityAccept (c : ClientStream) (set : ReplayProbeSet) : AcceptOutcome × ReplayProbeSet :=
  match decidedAt inputs c with
  | none => (.timeout, set)
  | some t =>
    match readOneTlsRecord (maxClientHelloSize + recordHeaderLen) (c.sentBy t) (c.endedBy t) with
    | none => (.timeout, set)
    | some (read, .error consumed) =>
      (forwardToCover inputs jitter cover c t read consumed, set)
    | some (read, .ok chBytes) =>
      match parse chBytes with
      | .error _ => (forwardToCover inputs jitter cover c t read chBytes, set)
      | .ok parsed =>
        match verifyProbe S inputs.bridgeStaticSk ⟨parsed.x25519KeyShare, parsed.random,
          inputs.nowUnix, parsed.sessionId, inputs.probeRoot, inputs.acceptLegacy⟩ set with
        | (.ok (), set) => (.authenticated, set)
        | (.error _, set) => (forwardToCover inputs jitter cover c t read chBytes, set)

end

end Mirage.Transport
