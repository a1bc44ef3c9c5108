import Mirage.Discovery.ReplaySet
import Mirage.Discovery.Token

/-!
# The responder of the handshake

`HandshakeResponder` and `TokenVerifier` of `crates/session/src/handshake.rs`, with the messages of
`wire.rs`. `snow` is a parameter (`Noise`), what an encapsulation of ML-KEM yields an argument, and
the faults of the replay log come with the last message.
-/

namespace Mirage.Session

open Words
open Onion (Ed25519)
open Discovery

inductive HandshakeError
  | wire (msg : String)
  | versionMismatch (peer min max : ℕ)
  | noise
  | mlKem
  | state (msg : String)
  | tokenVerification (msg : String)
  deriving DecidableEq

/-- `snow`'s handshake; `position` is how many messages a state has read and written. -/
structure Noise where
  State : Type
  TransportState : Type
  position : State → ℕ
  readMessage : State → Bytes → Option (Bytes × State)
  writeMessage : State → Bytes → Option (Bytes × State)
  getHandshakeHash : State → Bytes
  intoTransportMode : State → Option TransportState

/-- A responder of the pattern `XX` reads and writes in turn, three messages in all. The first has a
key and the payload in the clear, the third another key and the payload, each with a tag. -/
structure Noise.Lawful (N : Noise) : Prop where
  read : ∀ {s msg payload s'}, N.readMessage s msg = some (payload, s') →
    (N.position s = 0 ∨ N.position s = 2) ∧ N.position s' = N.position s + 1
  write : ∀ {s payload msg s'}, N.writeMessage s payload = some (msg, s') →
    N.position s = 1 ∧ N.position s' = 2
  first : ∀ {s msg payload s'}, N.position s = 0 → N.readMessage s msg = some (payload, s') →
    msg.length = payload.length + 32
  third : ∀ {s msg payload s'}, N.position s = 2 → N.readMessage s msg = some (payload, s') →
    msg.length = payload.length + 64
  hash : ∀ s, (N.getHandshakeHash s).length = 32
  transport : ∀ s, N.position s = 3 → (N.intoTransportMode s).isSome

def handshakeMagic : Bytes := ascii "MI"

def wireVersion : ℕ := 1

def msgType1 : UInt8 := 0x01

def msgType2 : UInt8 := 0x02

def msgType3 : UInt8 := 0x03

def msgType3Fs : UInt8 := 0x04

def mlkemEkLen : ℕ := 1184

def mlkemCtLen : ℕ := 1088

def noiseMsg1Len : ℕ := 32 + mlkemEkLen

def noiseMsg2Len : ℕ := 32 + 48 + mlkemCtLen + 16

def noiseMsg3LenNoToken : ℕ := 64

def noiseMsg3LenWithToken : ℕ := 200

def noiseMsg3LenWithFsToken : ℕ := 312

def tokenPayloadLen : ℕ := 136

def fsTokenPayloadLen : ℕ := 248

def decodeMessage1 (buf : Bytes) : Except HandshakeError (ℕ × Bytes) :=
  if buf.length ≠ 2 + 1 + 2 + noiseMsg1Len then .error (.wire "message 1: wrong length")
  else if buf.take 2 ≠ handshakeMagic then .error (.wire "message 1: bad magic")
  else if buf.getD 2 0 ≠ msgType1 then .error (.wire "message 1: wrong msg_type")
  else .ok (beNat ((buf.drop 3).take 2), buf.drop 5)

def encodeMessage2 (version : ℕ) (noiseMsg2 : Bytes) : Bytes :=
  handshakeMagic ++ [msgType2] ++ beBytes 2 version ++ noiseMsg2

/-- The Noise message. The form with a forward-secure token has a type of its own. -/
def decodeMessage3 (buf : Bytes) : Except HandshakeError Bytes :=
  if buf.length ≠ 2 + 1 + noiseMsg3LenNoToken ∧ buf.length ≠ 2 + 1 + noiseMsg3LenWithToken ∧
      buf.length ≠ 2 + 1 + noiseMsg3LenWithFsToken then .error (.wire "message 3: wrong length")
  else if buf.take 2 ≠ handshakeMagic then .error (.wire "message 3: bad magic")
  else if buf.getD 2 0 ≠
      (if buf.length = 2 + 1 + noiseMsg3LenWithFsToken then msgType3Fs else msgType3) then
    .error (.wire "message 3: wrong msg_type")
  else .ok (buf.drop 3)

inductive AcceptedTokenKind
  | bootstrap
  | refresh
  deriving DecidableEq

def tokenGraceSeconds : UInt64 := 60

structure TokenVerifier where
  replaySet : ReplaySet
  nowUnix : UInt64
  graceSeconds : UInt64
  lastAcceptedTokenId : Option Bytes32
  lastAcceptedKind : Option AcceptedTokenKind
  acceptRefreshSignedBy : Option Bytes32
  acceptPrevOperatorPk : Option Bytes32

namespace TokenVerifier

def new (replaySet : ReplaySet) (nowUnix : UInt64) : TokenVerifier :=
  ⟨replaySet, nowUnix, tokenGraceSeconds, none, none, none, none⟩

end TokenVerifier

def verifyRefreshPath (E : Ed25519) (token : CapabilityToken) (refreshPk : Bytes32) :
    Except HandshakeError AcceptedTokenKind :=
  match checkSignature E refreshPk token.refreshSigned token.signature
      (HandshakeError.tokenVerification "refresh issuer pk invalid")
      (.tokenVerification "signature verification failed") with
  | .error e => .error e
  | .ok () => .ok .refresh

inductive ResponderState
  | awaitMessage1
  | awaitMessage3
  | complete
  deriving DecidableEq

structure SessionKeys (N : Noise) where
  sessionBinding : Bytes32
  transport : N.TransportState
  mlkemSs : Bytes32

structure HandshakeResponder (N : Noise) where
  noise : N.State
  peerMlkemEk : Option Bytes
  mlkemCtBytes : Option Bytes
  mlkemSs : Option Bytes32
  wireVersion : ℕ
  state : ResponderState
  localEd25519Pk : Bytes32
  operatorPk : Bytes32
  requireToken : Bool

def deriveSessionBinding (blake3 : Bytes → Bytes32) (version : ℕ) (noiseH : Bytes)
    (mlkemEk mlkemCt : Bytes) (mlkemSs : Bytes32) : Bytes32 :=
  blake3 (ascii "mirage-session-binding-v1" ++ beBytes 2 version ++ noiseH ++ mlkemEk ++ mlkemCt ++
    mlkemSs.toList)

namespace HandshakeResponder

variable {N : Noise}

def new (noise : N.State) (localEd25519Pk operatorPk : Bytes32) : HandshakeResponder N :=
  ⟨noise, none, none, none, Session.wireVersion, .awaitMessage1, localEd25519Pk, operatorPk, true⟩

variable (E : Ed25519) (blake3 : Bytes → Bytes32) (r : HandshakeResponder N)

def readMessage1 (wire : Bytes) : Except HandshakeError Unit × HandshakeResponder N :=
  if r.state ≠ .awaitMessage1 then (.error (.state "read_message_1: wrong state"), r)
  else match decodeMessage1 wire with
    | .error e => (.error e, r)
    | .ok (version, noiseMsg1) =>
      if version ≠ r.wireVersion then
        (.error (.versionMismatch version Session.wireVersion Session.wireVersion), r)
      else match N.readMessage r.noise noiseMsg1 with
        | none => (.error .noise, r)
        | some (payload, noise) =>
          let r := { r with noise }
          if payload.length ≠ mlkemEkLen then
            (.error (.wire "message 1: unexpected mlkem_ek length"), r)
          else (.ok (), { r with peerMlkemEk := some payload, state := .awaitMessage3 })

/-- `encapsulated` are the ciphertext and the secret for the key of the peer, if it is a key. -/
def writeMessage2 (encapsulated : Option (Bytes × Bytes32)) :
    Except HandshakeError Bytes × HandshakeResponder N :=
  if r.state ≠ .awaitMessage3 then (.error (.state "write_message_2: wrong state"), r)
  else match r.peerMlkemEk, encapsulated with
    | none, _ => (.error (.state "peer mlkem_ek missing at msg 2"), r)
    | some _, none => (.error .mlKem, r)
    | some _, some (ct, ss) =>
      let r := { r with mlkemCtBytes := some ct, mlkemSs := some ss }
      match N.writeMessage r.noise ct with
      | none => (.error .noise, r)
      | some (noiseMsg2, noise) =>
        let r := { r with noise }
        if noiseMsg2.length ≠ noiseMsg2Len then
          (.error (.state "noise msg 2: unexpected length"), r)
        else (.ok (encodeMessage2 r.wireVersion noiseMsg2), r)

/-- The checks that both kinds of tokens go through after their signatures. -/
def acceptToken (v : TokenVerifier) (os : Faults) (tokenId bridgeEd25519Pk : Bytes32)
    (expiresAt : UInt64) (kind : AcceptedTokenKind) : Except HandshakeError Unit × TokenVerifier :=
  if bridgeEd25519Pk ≠ r.localEd25519Pk then
    (.error (.tokenVerification "token not for this bridge"), v)
  else if isPast expiresAt v.nowUnix v.graceSeconds then
    (.error (.tokenVerification "token expired"), v)
  else
    let retention := satAdd64 expiresAt v.graceSeconds
    let (ok, replaySet) := v.replaySet.checkAndInsert tokenId retention v.nowUnix os
    if !ok then
      (.error (.tokenVerification "token replayed or capacity"), { v with replaySet })
    else (.ok (), { v with
      replaySet, lastAcceptedTokenId := some tokenId, lastAcceptedKind := some kind })

def verifyLegacy (v : TokenVerifier) (os : Faults) (payload : Bytes) :
    Except HandshakeError Unit × TokenVerifier :=
  if payload.length ≠ tokenPayloadLen then
    (.error (.tokenVerification "payload length mismatch"), v)
  else match CapabilityToken.decode payload with
    | .error _ => (.error (.tokenVerification "token decode failed"), v)
    | .ok token =>
      let okOperator := (token.verifySignature E r.operatorPk).isOk
      let okPrev := (v.acceptPrevOperatorPk.map fun pk => (token.verifySignature E pk).isOk).getD
        false
      let refreshKind := v.acceptRefreshSignedBy.bind fun pk =>
        (verifyRefreshPath E token pk).toOption
      if okOperator || okPrev then
        r.acceptToken v os token.tokenId token.bridgeEd25519Pk token.expiresAt .bootstrap
      else match refreshKind with
        | some kind => r.acceptToken v os token.tokenId token.bridgeEd25519Pk token.expiresAt kind
        | none => (.error (.tokenVerification "signature verification failed"), v)

def verifyFs (v : TokenVerifier) (os : Faults) (payload : Bytes) :
    Except HandshakeError Unit × TokenVerifier :=
  if payload.length ≠ fsTokenPayloadLen then
    (.error (.tokenVerification "fs payload length mismatch"), v)
  else match FsCapabilityToken.decode payload with
    | .error _ => (.error (.tokenVerification "fs token decode failed"), v)
    | .ok token =>
      let okRoot := (token.verifyChain E r.operatorPk v.nowUnix v.graceSeconds).isOk
      let okPrev := (v.acceptPrevOperatorPk.map fun pk =>
        (token.verifyChain E pk v.nowUnix v.graceSeconds).isOk).getD false
      if !(okRoot || okPrev) then
        (.error (.tokenVerification "fs chain verification failed"), v)
      else r.acceptToken v os token.tokenId token.bridgeEd25519Pk token.expiresAt .bootstrap

/-- The last part of `read_message_3`, after the token. -/
def finish : Except HandshakeError (SessionKeys N) :=
  let noiseH := N.getHandshakeHash r.noise
  if noiseH.length ≠ 32 then .error (.wire "noise transcript hash unexpected length")
  else match r.peerMlkemEk, r.mlkemCtBytes, r.mlkemSs with
    | none, _, _ => .error (.state "peer_mlkem_ek missing at msg 3")
    | some _, none, _ => .error (.state "mlkem_ct missing at msg 3")
    | some _, some _, none => .error (.state "mlkem_ss missing at msg 3")
    | some ek, some ct, some ss =>
      match N.intoTransportMode r.noise with
      | none => .error .noise
      | some transport =>
        .ok ⟨deriveSessionBinding blake3 r.wireVersion noiseH ek ct ss, transport, ss⟩

def readMessage3 (wire : Bytes) (v : TokenVerifier) (os : Faults) :
    Except HandshakeError (SessionKeys N) × TokenVerifier :=
  if r.state ≠ .awaitMessage3 then (.error (.state "read_message_3: wrong state"), v)
  else match decodeMessage3 wire with
    | .error e => (.error e, v)
    | .ok noiseMsg3 =>
      let isLegacy : Bool := noiseMsg3.length = noiseMsg3LenWithToken
      let isFs : Bool := noiseMsg3.length = noiseMsg3LenWithFsToken
      if r.requireToken && !(isLegacy || isFs) then
        (.error (.tokenVerification "token required but not presented"), v)
      else if !r.requireToken && (isLegacy || isFs) then
        (.error (.wire "test-only responder received token-bearing msg 3"), v)
      else match N.readMessage r.noise noiseMsg3 with
        | none => (.error .noise, v)
        | some (payload, noise) =>
          let r := { r with noise }
          let (verified, v) := if isLegacy then r.verifyLegacy E v os payload
            else if isFs then r.verifyFs E v os payload
            else (.ok (), v)
          match verified with
          | .error e => (.error e, v)
          | .ok () => (r.finish blake3, v)

end HandshakeResponder

inductive ResponderCall
  | readMessage1 (wire : Bytes)
  | writeMessage2 (encapsulated : Option (Bytes × Bytes32))

def HandshakeResponder.step {N : Noise} (r : HandshakeResponder N) :
    ResponderCall → HandshakeResponder N
  | .readMessage1 wire => (r.readMessage1 wire).2
  | .writeMessage2 encapsulated => (r.writeMessage2 encapsulated).2

end Mirage.Session
