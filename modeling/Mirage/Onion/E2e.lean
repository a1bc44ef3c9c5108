import Mirage.Lib.Runs
import Mirage.Onion.Descriptor

/-!
# End-to-end keys at a rendezvous

`crates/onion/src/e2e.rs`: the two sides of the exchange, and runs of any number of services and
clients between which an adversary carries the messages and chooses every argument that comes over
the network. BLAKE3, X25519 and Ed25519 are parameters.
-/

namespace Mirage.Onion

open Words

structure E2eSuite where
  ed : Ed25519
  blake3 : Bytes → Bytes32
  /-- The first 64 bytes of the extended output. -/
  blake3Xof : Bytes → Bytes64
  publicKey : Bytes32 → Bytes32
  diffieHellman : Bytes32 → Bytes32 → Bytes32

def E2eSuite.Commutes (S : E2eSuite) : Prop :=
  ∀ a b, S.diffieHellman a (S.publicKey b) = S.diffieHellman b (S.publicKey a)

def transcriptLabel : Bytes := ascii "mirage-onion-rendezvous-transcript-v1"

def keyLabel : Bytes := ascii "mirage-onion-rendezvous-keys-v1"

def authLabel : Bytes := ascii "mirage-onion-rendezvous-auth-v1"

inductive E2eError
  | notTheService
  | badIdentity
  deriving DecidableEq

structure RendezvousKeys where
  c2s : Bytes32
  s2c : Bytes32
  deriving DecidableEq

structure Meeting where
  clientEphPk : Bytes32
  serviceEphPk : Bytes32
  serviceEd25519Pk : Bytes32
  rendezvousCookie : Bytes32

def Meeting.bytes (m : Meeting) : Bytes :=
  transcriptLabel ++ m.clientEphPk.toList ++ m.serviceEphPk.toList ++ m.serviceEd25519Pk.toList ++
    m.rendezvousCookie.toList

section

variable (S : E2eSuite)

def transcript (m : Meeting) : Bytes32 := S.blake3 m.bytes

def keysFrom (shared transcript : Bytes32) : RendezvousKeys :=
  let out := S.blake3Xof (keyLabel ++ shared.toList ++ transcript.toList)
  ⟨vec 32 out.toList, vec 32 (out.toList.drop 32)⟩

def authMessage (transcript : Bytes32) : Bytes := authLabel ++ transcript.toList

def serviceSide (serviceEphSk clientEphPk serviceIdSk rendezvousCookie : Bytes32) :
    RendezvousKeys × Bytes64 :=
  let shared := S.diffieHellman serviceEphSk clientEphPk
  let t := transcript S
    ⟨clientEphPk, S.publicKey serviceEphSk, S.ed.verifyingKey serviceIdSk, rendezvousCookie⟩
  (keysFrom S shared t, S.ed.sign serviceIdSk (authMessage t))

def clientSide (clientEphSk serviceEphPk serviceEd25519Pk rendezvousCookie : Bytes32)
    (serviceAuth : Bytes64) : Except E2eError RendezvousKeys :=
  if !S.ed.validKey serviceEd25519Pk then .error .badIdentity
  else
    let t := transcript S
      ⟨S.publicKey clientEphSk, serviceEphPk, serviceEd25519Pk, rendezvousCookie⟩
    if !S.ed.verifyStrict serviceEd25519Pk (authMessage t) serviceAuth then .error .notTheService
    else .ok (keysFrom S (S.diffieHellman clientEphSk serviceEphPk) t)

end

structure ServiceRun where
  serviceEphSk : Bytes32
  clientEphPk : Bytes32
  serviceIdSk : Bytes32
  rendezvousCookie : Bytes32

inductive E2eEvent
  | serviceSide (r : ServiceRun)
  | signDescriptor (serviceIdSk : Bytes32) (d : OnionDescriptor)
  | clientSide (clientEphSk serviceEphPk serviceEd25519Pk rendezvousCookie : Bytes32)
    (serviceAuth : Bytes64)

structure E2eNet where
  services : List ServiceRun
  /-- Identities, with what their keys signed. -/
  signed : List (Bytes32 × Bytes)
  /-- What transcripts were taken of, on either side. -/
  meetings : List Meeting

section

variable (S : E2eSuite)

namespace ServiceRun

def meeting (r : ServiceRun) : Meeting :=
  ⟨r.clientEphPk, S.publicKey r.serviceEphSk, S.ed.verifyingKey r.serviceIdSk, r.rendezvousCookie⟩

def keys (r : ServiceRun) : RendezvousKeys :=
  (Onion.serviceSide S r.serviceEphSk r.clientEphPk r.serviceIdSk r.rendezvousCookie).1

end ServiceRun

namespace E2eNet

def new : E2eNet := ⟨[], [], []⟩

def step (net : E2eNet) : E2eEvent → E2eNet
  | .serviceSide r =>
    { services := r :: net.services
      signed := (S.ed.verifyingKey r.serviceIdSk, authMessage (transcript S (r.meeting S))) ::
        net.signed
      meetings := r.meeting S :: net.meetings }
  | .signDescriptor sk d =>
    match d.sign S.ed sk with
    | .error _ => net
    | .ok d' => { net with signed := (S.ed.verifyingKey sk, d'.encodeSignedPrefix) :: net.signed }
  | .clientSide csk spk id cookie _ =>
    -- the transcript is taken once the identity has been read
    if S.ed.validKey id then
      { net with meetings := ⟨S.publicKey csk, spk, id, cookie⟩ :: net.meetings }
    else net

/-- No two transcripts of the run collide. -/
def CollisionFree (net : E2eNet) : Prop :=
  ∀ m ∈ net.meetings, ∀ m' ∈ net.meetings, S.blake3 m.bytes = S.blake3 m'.bytes → m.bytes = m'.bytes
deriving Decidable

/-- A signature that a client accepts from an honest identity is on what its key has signed. -/
def Unforged (honest : Set Bytes32) (net : E2eNet) : E2eEvent → Prop
  | .clientSide csk spk id cookie auth =>
    let msg := authMessage (transcript S ⟨S.publicKey csk, spk, id, cookie⟩)
    id ∈ honest → S.ed.verifyStrict id msg auth = true → (id, msg) ∈ net.signed
  | _ => True

instance (honest : Set Bytes32) [DecidablePred (· ∈ honest)] (net : E2eNet) :
    DecidablePred (net.Unforged S honest) := fun _ => by
  unfold Unforged
  split <;> infer_instance

end E2eNet

end

end Mirage.Onion
