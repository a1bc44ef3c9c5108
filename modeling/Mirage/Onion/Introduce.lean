import Mirage.Lib.Maps
import Mirage.Session.Frames

/-!
# Sealed introductions

`crates/onion/src/introduce_sealed.rs`, and of `service.rs` the replay cache and
`accept_sealed_introduce`. The primitives are parameters (`SealSuite`). Instants are in nanoseconds;
the wall clock and the monotonic one advance together (`unixAt`).
-/

namespace Mirage.Onion

open Words Maps

structure SealSuite where
  blake3 : Bytes → Bytes32
  publicKey : Bytes32 → Bytes32
  diffieHellman : Bytes32 → Bytes32 → Bytes32
  encrypt : Bytes32 → Bytes → Bytes → Bytes → Option Bytes
  decrypt : Bytes32 → Bytes → Bytes → Bytes → Option Bytes

def introKeyLabel : Bytes := ascii "mirage-onion-introduce-v2"

def introAad : Bytes := ascii "mirage-onion-introduce-aad-v2"

def nonceLen : ℕ := 12

def tagLen : ℕ := 16

def plaintextLen : ℕ := 32 + 32 + 8 + 32

def sealedIntroduceLen : ℕ := 32 + nonceLen + plaintextLen + tagLen

def introduceValiditySecs : ℕ := 120

inductive SealedIntroduceError
  | badLength (len : ℕ)
  | notForUs
  | wrongService
  | sealFailed

structure Introduction where
  rendezvousBridgePk : Bytes32
  rendezvousCookie : Bytes32
  issuedAt : UInt64
  serviceEd25519Pk : Bytes32

namespace Introduction

def encode (i : Introduction) : Bytes :=
  i.rendezvousBridgePk.toList ++ i.rendezvousCookie.toList ++ beBytes 8 i.issuedAt.toNat ++
    i.serviceEd25519Pk.toList

def decode (b : Bytes) : Option Introduction :=
  if b.length ≠ plaintextLen then none
  else some
    ⟨vec 32 b, vec 32 (b.drop 32), UInt64.ofNat (beNat ((b.drop 64).take 8)), vec 32 (b.drop 72)⟩

def isFresh (i : Introduction) (nowUnix : ℕ) : Bool :=
  max nowUnix i.issuedAt.toNat - min nowUnix i.issuedAt.toNat ≤ introduceValiditySecs

end Introduction

variable (S : SealSuite)

def keyFrom (shared clientEph serviceX : Bytes32) : Bytes32 :=
  S.blake3 (introKeyLabel ++ shared.toList ++ clientEph.toList ++ serviceX.toList)

def sealIntroduce (intro : Introduction) (serviceX25519Pk clientEphSk : Bytes32)
    (nonce : Vector UInt8 12) : Except SealedIntroduceError Bytes :=
  let ephPk := S.publicKey clientEphSk
  let key := keyFrom S (S.diffieHellman clientEphSk serviceX25519Pk) ephPk serviceX25519Pk
  match S.encrypt key nonce.toList introAad intro.encode with
  | none => .error .sealFailed
  | some ct => .ok (ephPk.toList ++ nonce.toList ++ ct)

def openIntroduce (sealed : Bytes) (serviceX25519Sk serviceEd25519Pk : Bytes32) :
    Except SealedIntroduceError Introduction :=
  if sealed.length ≠ sealedIntroduceLen then .error (.badLength sealed.length)
  else
    let ephPk := vec 32 sealed
    let nonce := (sealed.drop 32).take nonceLen
    let key := keyFrom S (S.diffieHellman serviceX25519Sk ephPk) ephPk (S.publicKey serviceX25519Sk)
    match S.decrypt key nonce introAad (sealed.drop (32 + nonceLen)) with
    | none => .error .notForUs
    | some pt =>
      match Introduction.decode pt with
      | none => .error .notForUs
      | some intro =>
        if intro.serviceEd25519Pk ≠ serviceEd25519Pk then .error .wrongService else .ok intro

def replayKey (sealed : Bytes) : Bytes32 := S.blake3 sealed

inductive IntroduceRefusal
  | badSignature
  | stale
  | replay
  | unknownIntroPoint

structure ServiceState where
  seen : AList fun _ : Bytes32 => ℕ

def replayTtl : ℕ := introduceValiditySecs * 10 ^ 9

namespace ServiceState

def new : ServiceState := ⟨∅⟩

def prune (s : ServiceState) (now : ℕ) : ServiceState :=
  ⟨retain (fun seenAt => now - seenAt < replayTtl) s.seen⟩

def acceptSealedIntroduce (s : ServiceState) (sealed : Bytes)
    (serviceX25519Sk serviceEd25519Pk : Bytes32) (nowUnix now : ℕ) :
    Except IntroduceRefusal Introduction × ServiceState :=
  let key := replayKey S sealed
  let s := s.prune now
  if (s.seen.lookup key).isSome then (.error .replay, s)
  else match openIntroduce S sealed serviceX25519Sk serviceEd25519Pk with
    | .error _ => (.error .badSignature, s)
    | .ok intro =>
      if intro.isFresh nowUnix then (.ok intro, ⟨s.seen.insert key now⟩) else (.error .stale, s)

end ServiceState

/-- The wall clock when the monotonic one shows `now`. -/
def unixAt (offset now : ℕ) : ℕ := (offset + now) / 10 ^ 9

structure IntroduceCall where
  sealed : Bytes
  now : ℕ

structure Service where
  x25519Sk : Bytes32
  ed25519Pk : Bytes32
  offset : ℕ

structure Reception where
  state : ServiceState
  accepted : List (Bytes × ℕ)

namespace Reception

def new : Reception := ⟨.new, []⟩

def step (S : SealSuite) (svc : Service) (r : Reception) (c : IntroduceCall) : Reception :=
  match r.state.acceptSealedIntroduce S c.sealed svc.x25519Sk svc.ed25519Pk
    (unixAt svc.offset c.now) c.now with
  | (.ok _, state) => ⟨state, (c.sealed, c.now) :: r.accepted⟩
  | (.error _, state) => { r with state }

end Reception

end Mirage.Onion
