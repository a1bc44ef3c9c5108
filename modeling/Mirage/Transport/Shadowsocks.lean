import Mirage.Session.Frames
import Mirage.Lib.Maps

/-!
# The SS-2022 opening

`crates/common/src/wu_preamble.rs`, and of `crates/transport-shadowsocks/src/lib.rs` the check on
peeked bytes and the server's side of the handshake. BLAKE3 and ChaCha20-Poly1305 are parameters. Of
the server's answer only its key matters to what follows.
-/

namespace Mirage.Transport

open Words Maps

/-!
## Seen nonces

`SeenNonceSet` of `crates/common/src/replay_nonce.rs`. Instants and lifetimes are in nanoseconds. A
poisoned lock, with which every check fails, is left out.
-/

structure SeenNonceSet where
  map : AList fun _ : Bytes32 => ℕ
  order : List Bytes32
  ttl : ℕ
  capacity : ℕ

namespace SeenNonceSet

def defaultSeenNonceCapacity : ℕ := 65536

def withCapacity (ttl capacity : ℕ) : SeenNonceSet := ⟨∅, [], ttl, max capacity 1⟩

def new (ttl : ℕ) : SeenNonceSet := withCapacity ttl defaultSeenNonceCapacity

/-- The loop that drops the oldest key, skipping those that are no longer in the map. -/
def popFront (map : AList fun _ : Bytes32 => ℕ) :
    List Bytes32 → (AList fun _ : Bytes32 => ℕ) × List Bytes32
  | [] => (map, [])
  | victim :: order => if victim ∈ map then (map.erase victim, order) else popFront map order

def checkAndInsert (s : SeenNonceSet) (nonce : Bytes32) (now : ℕ) : Bool × SeenNonceSet :=
  match s.map.lookup nonce with
  | some seenAt =>
    if now - seenAt ≤ s.ttl then (false, s)
    else (true, { s with map := s.map.insert nonce now })
  | none =>
    let (map, order) :=
      if s.capacity ≤ size s.map then popFront s.map s.order else (s.map, s.order)
    (true, { s with map := map.insert nonce now, order := order ++ [nonce] })

def reap (s : SeenNonceSet) (now : ℕ) : ℕ × SeenNonceSet :=
  let map := retain (now - · ≤ s.ttl) s.map
  (size s.map - size map, { s with map, order := s.order.filter (· ∈ map) })

end SeenNonceSet

inductive SeenCall
  | checkAndInsert (nonce : Bytes32) (now : ℕ)
  | reap (now : ℕ)

def SeenCall.now : SeenCall → ℕ
  | .checkAndInsert _ now => now
  | .reap now => now

namespace SeenNonceSet

def call (s : SeenNonceSet) : SeenCall → SeenNonceSet
  | .checkAndInsert nonce now => (s.checkAndInsert nonce now).2
  | .reap now => (s.reap now).2

/-- The calls for nonces other than `x` that are answered with true. -/
def admitted (x : Bytes32) : SeenNonceSet → List SeenCall → ℕ
  | _, [] => 0
  | s, c :: cs =>
    let rest := (s.call c).admitted x cs
    match c with
    | .checkAndInsert nonce now =>
      if nonce ≠ x ∧ (s.checkAndInsert nonce now).1 then rest + 1 else rest
    | .reap _ => rest

end SeenNonceSet

def alphabet : Bytes := ascii "ABCDEFGHIJKLMNOPQRSTUVWXYZabcdefghijklmnopqrstuvwxyz0123456789-_"

def minPre : ℕ := 21

def maxPre : ℕ := minPre + 63

def isAlphabet (b : UInt8) : Bool :=
  (65 ≤ b && b ≤ 90) || (97 ≤ b && b ≤ 122) || (48 ≤ b && b ≤ 57) || b = 45 || b = 95

def preambleBodyLen (lenByte : UInt8) : Option ℕ :=
  match alphabet.idxOf? lenByte with
  | none => none
  | some idx => if maxPre < minPre + idx then none else some (minPre + idx)

structure SsSuite where
  deriveSessionKey : Bytes32 → Vector UInt8 16 → Bytes32
  encrypt : Bytes32 → Bytes → Bytes → Bytes
  decrypt : Bytes32 → Bytes → Bytes → Option Bytes
  /-- The address and the port that stand for a bridge. -/
  deriveMagic : Bytes32 → Vector UInt8 4 × UInt16

def saltLen : ℕ := 16

def tagLen : ℕ := 16

def encLenField : ℕ := 2 + tagLen

def atypIpv4 : UInt8 := 0x01

def headerTypeRequest : UInt8 := 0x00

def timestampToleranceSecs : ℕ := 30

def replayTtlSecs : ℕ := 300

def counterNonce (counter : UInt64) : Bytes := List.replicate 4 0 ++ beBytes 8 counter.toNat

def absDiff (a b : ℕ) : ℕ := max a b - min a b

inductive Ss2022PeekVerdict
  | fresh
  | needMoreBytes
  | reject

variable (S : SsSuite)

def requestSalt (opening : Bytes) : Vector UInt8 16 := vec 16 opening

def saltKey (opening : Bytes) : Bytes32 :=
  vec 32 (opening.take saltLen ++ List.replicate 16 0)

def headerLen (psk : Bytes32) (opening : Bytes) : Option ℕ :=
  match S.decrypt (S.deriveSessionKey psk (requestSalt opening)) (counterNonce 0)
    ((opening.drop saltLen).take encLenField) with
  | none => none
  | some plain => if plain.length = 2 then some (beNat plain) else none

def header (psk : Bytes32) (opening : Bytes) (len : ℕ) : Option Bytes :=
  S.decrypt (S.deriveSessionKey psk (requestSalt opening)) (counterNonce 1)
    ((opening.drop (saltLen + encLenField)).take (len + tagLen))

def openingLen (len : ℕ) : ℕ := saltLen + encLenField + len + tagLen

def ss2022PeekVerifyFresh (psk : Bytes32) (peeked : Bytes) (nowSecs : ℕ) : Ss2022PeekVerdict :=
  if peeked.length < saltLen + encLenField then .needMoreBytes
  else match headerLen S psk peeked with
    | none => .reject
    | some len =>
      if peeked.length < openingLen len then .needMoreBytes
      else match header S psk peeked len with
        | none => .reject
        | some h =>
          if h.length < 1 + 8 ∨ h.getD 0 0 ≠ headerTypeRequest then .reject
          else if timestampToleranceSecs < absDiff nowSecs (beNat ((h.drop 1).take 8)) then .reject
          else .fresh

inductive TransportError
  | wire (msg : String)
  | auth (msg : String)
  | io

/-- What `do_server_auth` asks of the header, in its order. -/
def checkHeader (psk : Bytes32) (h : Bytes) (nowSecs : ℕ) : Except TransportError Unit :=
  if h.length < 1 + 8 + 1 + 4 + 2 + 2 then .error (.wire "SS-2022: request header too short")
  else if h.getD 0 0 ≠ headerTypeRequest then
    .error (.auth "SS-2022: request header type byte is not 0x00")
  else if timestampToleranceSecs < absDiff nowSecs (beNat ((h.drop 1).take 8)) then
    .error (.auth "SS-2022: request timestamp outside +/-30s window")
  else if h.getD 9 0 ≠ atypIpv4 then
    .error (.auth "SS-2022: unsupported address type (expected IPv4 magic addr)")
  else if vec 4 (h.drop 10) ≠ (S.deriveMagic psk).1 then
    .error (.auth "SS-2022: destination address is not the derived Mirage magic address")
  else if UInt16.ofNat (beNat ((h.drop 14).take 2)) ≠ (S.deriveMagic psk).2 then
    .error (.auth "SS-2022: destination port is not the derived Mirage magic port")
  else .ok ()

/-- On what follows the preamble; reading past the end of the opening fails. -/
def ss2022ServerAuth (psk : Bytes32) (opening : Bytes) (nowSecs now : ℕ)
    (seen : SeenNonceSet) : Except TransportError Bytes × SeenNonceSet :=
  if opening.length < saltLen + encLenField then (.error .io, seen)
  else match headerLen S psk opening with
    | none => (.error (.auth "SS-2022: AEAD open failed on length field"), seen)
    | some len =>
      if opening.length < openingLen len then (.error .io, seen)
      else match header S psk opening len with
        | none => (.error (.auth "SS-2022: AEAD open failed on payload"), seen)
        | some h =>
          match checkHeader S psk h nowSecs with
          | .error e => (.error e, seen)
          | .ok () =>
            match seen.checkAndInsert (saltKey opening) now with
            | (false, seen) =>
              (.error (.auth "SS-2022: request salt replay within window"), seen)
            | (true, seen) =>
              (.ok ((S.deriveSessionKey psk (requestSalt opening)).toList.take 8), seen)

end Mirage.Transport
