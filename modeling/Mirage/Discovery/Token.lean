import Mirage.Onion.Descriptor

/-!
# Capability tokens

`token.rs`, `token_fs.rs` and of `refresh.rs` the signed bytes of a refresh token, all of
`crates/discovery/src`: what a client shows at the handshake, as bytes and back, and how it is
signed. Ed25519 is a parameter.
-/

namespace Mirage.Discovery

open Words
open Onion (Ed25519)

inductive TokenError
  | wire (reason : String)
  | ed25519 (reason : String)
  | signature (reason : String)
  | time (reason : String)

/-- `VerifyingKey::from_bytes` and `verify_strict`, with the errors that the caller makes of their
failures. -/
def checkSignature {ε : Type} (E : Ed25519) (pk : Bytes32) (signed : Bytes)
    (sig : Bytes64) (badKey badSignature : ε) : Except ε Unit :=
  if !E.validKey pk then .error badKey
  else if E.verifyStrict pk signed sig then .ok () else .error badSignature

def isPast (until_ nowUnix graceSeconds : UInt64) : Bool := satAdd64 until_ graceSeconds < nowUnix

def tokenLen : ℕ := 32 + 32 + 8 + 64

structure CapabilityToken where
  tokenId : Bytes32
  bridgeEd25519Pk : Bytes32
  expiresAt : UInt64
  signature : Bytes64

def refreshSignDomain : Bytes := ascii "mirage-refresh-v1" ++ [0]

namespace CapabilityToken

variable (E : Ed25519) (token : CapabilityToken)

def encodeSignedPrefix : Bytes :=
  token.tokenId.toList ++ token.bridgeEd25519Pk.toList ++ beBytes 8 token.expiresAt.toNat

def encode : Bytes := token.encodeSignedPrefix ++ token.signature.toList

def decode (buf : Bytes) : Except TokenError CapabilityToken :=
  if buf.length ≠ tokenLen then .error (.wire "token: wrong length")
  else .ok ⟨vec 32 buf, vec 32 (buf.drop 32), UInt64.ofNat (beNat ((buf.drop 64).take 8)),
    vec 64 (buf.drop 72)⟩

def verifySignature (operatorPk : Bytes32) : Except TokenError Unit :=
  checkSignature E operatorPk token.encodeSignedPrefix token.signature
    (.ed25519 "invalid operator pubkey") (.signature "token: verification failed")

def refreshSigned : Bytes := refreshSignDomain ++ token.encodeSignedPrefix

end CapabilityToken

def fsCertDomain : Bytes := ascii "mirage-fs-cert-v1" ++ [0]

def fsTokenDomain : Bytes := ascii "mirage-fs-token-v1" ++ [0]

def fsCertLen : ℕ := 8 + 32 + 8 + 64

def fsTokenLen : ℕ := 32 + 32 + 8 + fsCertLen + 64

structure EpochSubkeyCert where
  epoch : UInt64
  subkeyPk : Bytes32
  certValidUntil : UInt64
  rootSig : Bytes64

namespace EpochSubkeyCert

variable (E : Ed25519) (cert : EpochSubkeyCert)

def signedPrefix : Bytes :=
  fsCertDomain ++ beBytes 8 cert.epoch.toNat ++ cert.subkeyPk.toList ++
    beBytes 8 cert.certValidUntil.toNat

def verifyRootSig (rootPk : Bytes32) : Except TokenError Unit :=
  checkSignature E rootPk cert.signedPrefix cert.rootSig
    (.ed25519 "fs cert: invalid root pubkey") (.signature "fs cert: root signature invalid")

def isRetired (nowUnix graceSeconds : UInt64) : Bool :=
  isPast cert.certValidUntil nowUnix graceSeconds

def encode : Bytes :=
  beBytes 8 cert.epoch.toNat ++ cert.subkeyPk.toList ++ beBytes 8 cert.certValidUntil.toNat ++
    cert.rootSig.toList

def decode (buf : Bytes) : Except TokenError EpochSubkeyCert :=
  if buf.length ≠ fsCertLen then .error (.wire "fs cert: wrong length")
  else .ok ⟨UInt64.ofNat (beNat (buf.take 8)), vec 32 (buf.drop 8),
    UInt64.ofNat (beNat ((buf.drop 40).take 8)), vec 64 (buf.drop 48)⟩

end EpochSubkeyCert

structure FsCapabilityToken where
  tokenId : Bytes32
  bridgeEd25519Pk : Bytes32
  expiresAt : UInt64
  cert : EpochSubkeyCert
  tokenSig : Bytes64

namespace FsCapabilityToken

variable (E : Ed25519) (token : FsCapabilityToken)

/-- The subkey signs the identity of its own certificate too. -/
def signedPrefix : Bytes :=
  fsTokenDomain ++ token.tokenId.toList ++ token.bridgeEd25519Pk.toList ++
    beBytes 8 token.expiresAt.toNat ++ beBytes 8 token.cert.epoch.toNat ++
    token.cert.subkeyPk.toList

def verifyChain (rootPk : Bytes32) (nowUnix graceSeconds : UInt64) : Except TokenError Unit :=
  match token.cert.verifyRootSig E rootPk with
  | .error e => .error e
  | .ok () =>
    match checkSignature E token.cert.subkeyPk token.signedPrefix token.tokenSig
        (TokenError.ed25519 "fs token: invalid subkey pubkey")
        (.signature "fs token: subkey signature invalid") with
    | .error e => .error e
    | .ok () =>
      if token.cert.isRetired nowUnix graceSeconds then .error (.time "fs token: subkey retired")
      else .ok ()

def encode : Bytes :=
  token.tokenId.toList ++ token.bridgeEd25519Pk.toList ++ beBytes 8 token.expiresAt.toNat ++
    token.cert.encode ++ token.tokenSig.toList

def decode (buf : Bytes) : Except TokenError FsCapabilityToken :=
  if buf.length ≠ fsTokenLen then .error (.wire "fs token: wrong length")
  else match EpochSubkeyCert.decode ((buf.drop 72).take fsCertLen) with
    | .error e => .error e
    | .ok cert => .ok ⟨vec 32 buf, vec 32 (buf.drop 32),
        UInt64.ofNat (beNat ((buf.drop 64).take 8)), cert, vec 64 (buf.drop 184)⟩

end FsCapabilityToken

end Mirage.Discovery
