import Mirage.Lib.Runs
import Mirage.Transport.Shadowsocks

/-!
# The single-port dispatcher

`ProtocolMux::accept` of `crates/transport-mux/src/mux.rs`, with the checks of
`crates/transport-obfs/src/lib.rs` and `crates/transport-vless/src/lib.rs` that it makes. A
connection is the client's first flight and what the peeks, which leave the bytes where they are,
see of it in turn. Durations are in milliseconds.
-/

namespace Mirage.Transport

open Words

inductive ProtocolKind
  | tls
  | http
  | opaqueUnknown
  deriving DecidableEq

structure MuxConfig where
  bridgeStaticPk : Bytes32
  obfsSecret : Option Bytes32
  ssPsk : Option Bytes32
  relaySsPsk : Option Bytes32
  obfsEnabled : Bool
  vlessUuid : Option (Vector UInt8 16)

inductive MuxResult
  | tls
  | http
  | authenticatedObfsTcp (tag nonce : Bytes32)
  | authenticatedShadowsocks (seed : Bytes)
  | authenticatedVless
  | unknown
  | error
  deriving DecidableEq

/-- What became of a connection, and how many of its bytes were consumed. -/
structure MuxAnswer where
  result : MuxResult
  consumed : ℕ
  deriving DecidableEq

structure MuxSuite extends SsSuite where
  obfsAuthTag : Bytes32 → Option Bytes32 → Bytes32 → Bytes32
  deriveVlessMagic : Vector UInt8 16 → Vector UInt8 4 × UInt16

def ss2022MinPeek : ℕ := 34

def wuShortPeekBudget : ℕ := 400

def wuShortPeekPoll : ℕ := 5

def httpPrefixes : List Bytes := ["GET ", "POST", "HEAD", "PUT ", "CONN", "DELE", "OPTI"].map ascii

def detectKind (bytes : Bytes) : ProtocolKind :=
  if 2 ≤ bytes.length ∧ bytes.getD 0 0 = 0x16 ∧ bytes.getD 1 0 = 0x03 then .tls
  else if httpPrefixes.any fun p => p.length ≤ bytes.length && bytes.take p.length = p then .http
  else .opaqueUnknown

def detectWuPreamble (buf : Bytes) : Option ℕ :=
  match buf with
  | [] => none
  | lenByte :: rest =>
    match preambleBodyLen lenByte with
    | none => none
    | some l =>
      if buf.length < 1 + l then none
      else if (rest.take l).any fun b => !isAlphabet b then none
      else some (1 + l)

variable (S : MuxSuite) (config : MuxConfig)

def obfsAuthVerify (nonce presentedTag : Bytes32) : Bool :=
  S.obfsAuthTag config.bridgeStaticPk config.obfsSecret nonce = presentedTag

def obfsNonce (buf : Bytes) : Bytes32 := vec 32 buf

def obfsTag (buf : Bytes) : Bytes32 := vec 32 (buf.drop 32)

/-- The tag and the nonce of a knock that verifies and is new. -/
def tryObfs (buf : Bytes) (now : ℕ) (seen : SeenNonceSet) :
    Option (Bytes32 × Bytes32) × SeenNonceSet :=
  if config.obfsEnabled && 64 ≤ buf.length && obfsAuthVerify S config (obfsNonce buf) (obfsTag buf)
  then
    match seen.checkAndInsert (obfsNonce buf) now with
    | (true, seen) => (some (obfsTag buf, obfsNonce buf), seen)
    | (false, seen) => (none, seen)
  else (none, seen)

def ssPsks : List Bytes32 := [config.ssPsk, config.relaySsPsk].filterMap id

def ssWinner (opening : Bytes) (nowSecs now : ℕ) (seen : SeenNonceSet) :
    List Bytes32 → Option Bytes32 × SeenNonceSet
  | [] => (none, seen)
  | psk :: psks =>
    match ss2022PeekVerifyFresh S.toSsSuite psk opening nowSecs with
    | .fresh =>
      match seen.checkAndInsert (saltKey opening) now with
      | (true, seen) => (some psk, seen)
      | (false, seen) => (none, seen)
    | .reject => ssWinner opening nowSecs now seen psks
    | .needMoreBytes => (none, seen)

def vlessClientFrameLen : ℕ := 26

def vlessFrameAuthorized (uuid : Vector UInt8 16) (frame : Bytes) : Bool :=
  if frame.length < vlessClientFrameLen then false
  else
    let magic := S.deriveVlessMagic uuid
    let credOk := uuid = vec 16 (frame.drop 1) && magic.1 = vec 4 (frame.drop 22) &&
      magic.2 = UInt16.ofNat (beNat ((frame.drop 19).take 2))
    let structuralOk := frame.getD 0 0 = 0x00 && frame.getD 17 0 = 0x00 && frame.getD 18 0 = 0x01 &&
      frame.getD 21 0 = 0x01
    credOk && structuralOk

def tryVless (buf : Bytes) : Bool :=
  match config.vlessUuid with
  | none => false
  | some uuid =>
    if vlessClientFrameLen ≤ buf.length then
      if buf.getD 0 0 = 0x00 && buf.getD 17 0 = 0x00 && buf.getD 18 0 = 0x01 then
        vlessFrameAuthorized S uuid buf
      else false
    else false

inductive PeekAnswer
  | seen (arrived : ℕ)
  | failed
  | timedOut

structure Connection where
  flight : Bytes
  peek : ℕ → PeekAnswer
  /-- How long the wait for the rest has lasted when it is tested for the `i`th time. -/
  elapsed : ℕ → ℕ
  nowSecs : ℕ
  now : ℕ
  /-- The clocks when the server's handshake reads them. -/
  authSecs : ℕ
  authNow : ℕ

/-- The replay set that the listener passes, and the process-wide one of the handshake. -/
structure MuxState where
  seenSalts : SeenNonceSet
  served : SeenNonceSet

def peekBuf (flight : Bytes) (arrived size : ℕ) : Bytes := (flight.take arrived).take size

/-- The wait for the rest of a flight; the `i`th poll is the peek number `i + 2`. -/
def awaitRest (c : Connection) (budget need : ℕ) : ℕ → ℕ → ℕ → Option ℕ
  | 0, _, n => some n
  | fuel + 1, i, n =>
    if n < need ∧ c.elapsed i < budget then
      match c.peek (i + 2) with
      | .seen arrived =>
        let more := (peekBuf c.flight arrived 256).length
        awaitRest c budget need fuel (i + 1) (if n < more then more else n)
      | .failed => none
      | .timedOut => some n
    else some n

def serveSs (c : Connection) (off : ℕ) (psk : Bytes32) (st : MuxState) : MuxAnswer × MuxState :=
  let opening := c.flight.drop off
  match ss2022ServerAuth S.toSsSuite psk opening c.authSecs c.authNow st.served with
  | (.ok seed, served) =>
    (⟨.authenticatedShadowsocks seed,
      off + openingLen ((headerLen S.toSsSuite psk opening).getD 0)⟩, { st with served })
  | (.error _, served) => (⟨.error, 0⟩, { st with served })

def trySsThenVless (c : Connection) (buf : Bytes) (wuOff : Option ℕ) (st : MuxState) :
    MuxAnswer × MuxState :=
  -- behind a preamble the salt is at its end
  let off := wuOff.getD 0
  let (winner, seenSalts) :=
    if off + ss2022MinPeek ≤ buf.length then
      ssWinner S (buf.drop off) c.nowSecs c.now st.seenSalts (ssPsks config)
    else (none, st.seenSalts)
  let st := { st with seenSalts }
  match winner with
  | some psk => serveSs S c off psk st
  | none =>
    if wuOff = none ∧ tryVless S config buf then (⟨.authenticatedVless, vlessClientFrameLen⟩, st)
    else (⟨.unknown, 0⟩, st)

def attempts (c : Connection) (buf : Bytes) (st : MuxState) : MuxAnswer × MuxState :=
  match detectWuPreamble buf with
  | some off => trySsThenVless S config c buf (some off) st
  | none =>
    match tryObfs S config buf c.now st.seenSalts with
    | (some (tag, nonce), seenSalts) =>
      (⟨.authenticatedObfsTcp tag nonce, 64⟩, { st with seenSalts })
    | (none, seenSalts) => trySsThenVless S config c buf none { st with seenSalts }

def accept (deadline : ℕ) (c : Connection) (st : MuxState) : MuxAnswer × MuxState :=
  match c.peek 0 with
  | .failed => (⟨.error, 0⟩, st)
  | .timedOut => (⟨.unknown, 0⟩, st)
  | .seen arrived =>
    let head := peekBuf c.flight arrived 8
    if head.length < 1 then (⟨.unknown, 0⟩, st)
    else match detectKind head with
      | .tls => (⟨.tls, 0⟩, st)
      | .http => (⟨.http, 0⟩, st)
      | .opaqueUnknown =>
        match c.peek 1 with
        | .failed => (⟨.error, 0⟩, st)
        | .timedOut => (⟨.unknown, 0⟩, st)
        | .seen arrived =>
          let buf := peekBuf c.flight arrived 256
          match detectWuPreamble buf with
          | none => attempts S config c buf st
          | some off =>
            let budget := min deadline wuShortPeekBudget
            match awaitRest c budget (off + ss2022MinPeek) (budget / wuShortPeekPoll + 1) 0
              buf.length with
            | none => (⟨.error, 0⟩, st)
            | some n => attempts S config c (c.flight.take n) st

end Mirage.Transport
