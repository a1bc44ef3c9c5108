import Mirage.Discovery.Wire
import Mirage.Lib.Runs

/-!
# Keys of an epoch and what is sealed under them

`derive.rs`, `ratchet.rs` and `seal.rs` of `crates/discovery/src`, and of `pipeline.rs` how the
publisher seals and where the subscriber looks. BLAKE3 and ChaCha20-Poly1305 are parameters; the
random nonce is `none` if the source of randomness fails.
-/

namespace Mirage.Discovery

open Words

structure RendezvousSuite where
  blake3 : Bytes → Bytes32
  blake3Keyed : Bytes32 → Bytes → Bytes32
  blake3DeriveKey : Bytes → Bytes → Bytes32
  encrypt : Bytes32 → Vector UInt8 12 → Bytes → Bytes → Option Bytes
  decrypt : Bytes32 → Vector UInt8 12 → Bytes → Bytes → Option Bytes

/-- What is encrypted is decrypted with the same key, nonce and data, and a tag longer. -/
structure RendezvousSuite.Lawful (S : RendezvousSuite) : Prop where
  length : ∀ {key nonce aad msg ct}, S.encrypt key nonce aad msg = some ct →
    ct.length = msg.length + 16
  decrypt : ∀ {key nonce aad msg ct}, S.encrypt key nonce aad msg = some ct →
    S.decrypt key nonce aad ct = some msg

def namespaceClientToBridge : Bytes := ascii "mirage-namespace-c2b-v1"

section

variable (S : RendezvousSuite)

variable (sharedSalt : Bytes32) (ns : Bytes)

def rollingPrk (epoch : ℕ) : Bytes32 :=
  S.blake3Keyed sharedSalt (ascii "mirage-rolling-v1" ++ ns ++ beBytes 8 epoch)

def infoHash (epoch : ℕ) : Vector UInt8 20 :=
  vec 20 (S.blake3Keyed (rollingPrk S sharedSalt ns epoch) (ascii "mirage-info-hash-v1")).toList

def cipherKey (epoch : ℕ) : Bytes32 :=
  S.blake3Keyed (rollingPrk S sharedSalt ns epoch) (ascii "mirage-cipher-key-v1")

def fsAnchorCtx : Bytes := ascii "mirage rendezvous fs anchor v1"

def fsStepCtx : Bytes := ascii "mirage-rendezvous-fs-step-v1"

def fsInfoHashCtx : Bytes := ascii "mirage-info-hash-fs-v1"

def fsCipherKeyCtx : Bytes := ascii "mirage-cipher-key-fs-v1"

def maxRatchetSteps : ℕ := 100000

def fsAnchor (anchorEpoch : ℕ) : Bytes32 :=
  S.blake3DeriveKey fsAnchorCtx (sharedSalt.toList ++ ns ++ beBytes 8 anchorEpoch)

def fsStep (chain : Bytes32) : Bytes32 := S.blake3 (fsStepCtx ++ chain.toList)

def advanceChain (chain : Bytes32) : ℕ → Bytes32
  | 0 => chain
  | steps + 1 => advanceChain (fsStep S chain) steps

def fsPrk (anchorEpoch epoch : ℕ) : Option Bytes32 :=
  if epoch < anchorEpoch then none
  else if maxRatchetSteps < epoch - anchorEpoch then none
  else some (advanceChain S (fsAnchor S sharedSalt ns anchorEpoch) (epoch - anchorEpoch))

def infoHashFromPrk (prk : Bytes32) : Vector UInt8 20 :=
  vec 20 (S.blake3Keyed prk fsInfoHashCtx).toList

def cipherKeyFromPrk (prk : Bytes32) : Bytes32 := S.blake3Keyed prk fsCipherKeyCtx

def fsInfoHash (anchorEpoch epoch : ℕ) : Option (Vector UInt8 20) :=
  (fsPrk S sharedSalt ns anchorEpoch epoch).map (infoHashFromPrk S)

def fsCipherKey (anchorEpoch epoch : ℕ) : Option Bytes32 :=
  (fsPrk S sharedSalt ns anchorEpoch epoch).map (cipherKeyFromPrk S)

structure RendezvousRatchet where
  anchorEpoch : ℕ
  epoch : ℕ
  chain : Bytes32

inductive RatchetError
  | backward
  | tooFar

namespace RendezvousRatchet

def seed (sharedSalt : Bytes32) (ns : Bytes) (anchorEpoch : ℕ) : RendezvousRatchet :=
  ⟨anchorEpoch, anchorEpoch, fsAnchor S sharedSalt ns anchorEpoch⟩

variable (r : RendezvousRatchet)

def advanceTo (target : ℕ) : Except RatchetError Unit × RendezvousRatchet :=
  if target < r.epoch then (.error .backward, r)
  else if maxRatchetSteps < target - r.epoch then (.error .tooFar, r)
  else (.ok (), { r with epoch := target, chain := advanceChain S r.chain (target - r.epoch) })

def keyAt (epoch : ℕ) : Option (Vector UInt8 20 × Bytes32) :=
  if epoch < r.epoch then none
  else if maxRatchetSteps < epoch - r.epoch then none
  else
    let chain := advanceChain S r.chain (epoch - r.epoch)
    some (infoHashFromPrk S chain, cipherKeyFromPrk S chain)

end RendezvousRatchet

def sealNonceLen : ℕ := 12

def buildAad (epoch : ℕ) : Bytes := ascii "mirage-seal-v1" ++ ns ++ beBytes 8 epoch

def buildAadFs (anchorEpoch epoch : ℕ) : Bytes :=
  ascii "mirage-seal-fs-v1" ++ ns ++ beBytes 8 anchorEpoch ++ beBytes 8 epoch

def sealWith (key : Bytes32) (aad plaintext : Bytes) (nonce : Option (Vector UInt8 12)) :
    Except DiscoveryError Bytes :=
  match nonce with
  | none => .error (.decrypt "seal nonce rng failed")
  | some nonce =>
    match S.encrypt key nonce aad plaintext with
    | none => .error (.decrypt "chacha20poly1305 encrypt failed")
    | some ct => .ok (nonce.toList ++ ct)

def openWith (key : Except DiscoveryError Bytes32) (aad blob : Bytes) :
    Except DiscoveryError Bytes :=
  if blob.length < sealNonceLen + 16 then .error (.decrypt "sealed blob too short")
  else match key with
    | .error e => .error e
    | .ok key =>
      match S.decrypt key (vec 12 blob) aad (blob.drop sealNonceLen) with
      | none => .error (.decrypt "chacha20poly1305 decrypt failed")
      | some plaintext => .ok plaintext

def sealBlob (epoch : ℕ) (plaintext : Bytes)
    (nonce : Option (Vector UInt8 12)) : Except DiscoveryError Bytes :=
  sealWith S (cipherKey S sharedSalt ns epoch) (buildAad ns epoch) plaintext nonce

def openBlob (epoch : ℕ) (blob : Bytes) : Except DiscoveryError Bytes :=
  openWith S (.ok (cipherKey S sharedSalt ns epoch)) (buildAad ns epoch) blob

def sealFs (anchorEpoch epoch : ℕ) (plaintext : Bytes)
    (nonce : Option (Vector UInt8 12)) : Except DiscoveryError Bytes :=
  match fsCipherKey S sharedSalt ns anchorEpoch epoch with
  | none => .error (.decrypt "fs seal epoch out of ratchet range")
  | some key => sealWith S key (buildAadFs ns anchorEpoch epoch) plaintext nonce

def openFs (anchorEpoch epoch : ℕ) (blob : Bytes) : Except DiscoveryError Bytes :=
  openWith S
    (match fsCipherKey S sharedSalt ns anchorEpoch epoch with
      | none => .error (.decrypt "fs open epoch out of ratchet range")
      | some key => .ok key)
    (buildAadFs ns anchorEpoch epoch) blob

def sealFsWithKey (cipherKey : Bytes32) (ns : Bytes) (anchorEpoch epoch : ℕ)
    (plaintext : Bytes) (nonce : Option (Vector UInt8 12)) : Except DiscoveryError Bytes :=
  sealWith S cipherKey (buildAadFs ns anchorEpoch epoch) plaintext nonce

structure OperatorPublisher where
  sharedSalt : Bytes32
  fsAnchor : Option ℕ
  fsRatchet : Option RendezvousRatchet

namespace OperatorPublisher

def new (sharedSalt : Bytes32) : OperatorPublisher := ⟨sharedSalt, none, none⟩

variable (p : OperatorPublisher)

def withForwardSecretRatchet (anchorEpoch currentEpoch : ℕ) : OperatorPublisher :=
  let ratchet := RendezvousRatchet.seed S p.sharedSalt namespaceClientToBridge anchorEpoch
  ⟨Vector.replicate 32 0, some anchorEpoch, some (ratchet.advanceTo S currentEpoch).2⟩

def advanceFsFloor (epoch : ℕ) : OperatorPublisher :=
  match p.fsRatchet with
  | some r => { p with fsRatchet := some (r.advanceTo S epoch).2 }
  | none => p

def sealAndIh (epoch : ℕ) (plaintext : Bytes) (nonce : Option (Vector UInt8 12)) :
    Except DiscoveryError (Vector UInt8 20 × Bytes) :=
  match p.fsRatchet, p.fsAnchor with
  | some r, some anchor =>
    match r.keyAt S epoch with
    | none => .error (.wire "fs ratchet: epoch below floor")
    | some (ih, key) =>
      match sealFsWithKey S key namespaceClientToBridge anchor epoch plaintext nonce with
      | .error e => .error e
      | .ok ct => .ok (ih, ct)
  | _, some anchor =>
    let ih := (fsInfoHash S p.sharedSalt namespaceClientToBridge anchor epoch).getD
      (infoHash S p.sharedSalt namespaceClientToBridge epoch)
    match sealFs S p.sharedSalt namespaceClientToBridge anchor epoch plaintext nonce with
    | .error e => .error e
    | .ok ct => .ok (ih, ct)
  | _, none =>
    match sealBlob S p.sharedSalt namespaceClientToBridge epoch plaintext nonce with
    | .error e => .error e
    | .ok ct => .ok (infoHash S p.sharedSalt namespaceClientToBridge epoch, ct)

end OperatorPublisher

structure ClientSubscriber where
  sharedSalt : Bytes32
  operatorEd25519Pk : Bytes32
  fsAnchor : Option ℕ

namespace ClientSubscriber

def new (sharedSalt operatorEd25519Pk : Bytes32) : ClientSubscriber :=
  ⟨sharedSalt, operatorEd25519Pk, none⟩

variable (c : ClientSubscriber)

def withForwardSecret (anchorEpoch : ℕ) : ClientSubscriber :=
  { c with fsAnchor := some anchorEpoch }

def infoHashAt (epoch : ℕ) : Vector UInt8 20 :=
  match c.fsAnchor with
  | some anchor =>
    (fsInfoHash S c.sharedSalt namespaceClientToBridge anchor epoch).getD
      (infoHash S c.sharedSalt namespaceClientToBridge epoch)
  | none => infoHash S c.sharedSalt namespaceClientToBridge epoch

def openAt (epoch : ℕ) (blob : Bytes) : Except DiscoveryError Bytes :=
  match c.fsAnchor with
  | some anchor => openFs S c.sharedSalt namespaceClientToBridge anchor epoch blob
  | none => openBlob S c.sharedSalt namespaceClientToBridge epoch blob

end ClientSubscriber

end

end Mirage.Discovery
