import Mirage.Circuit.Extend
import Mirage.Session.Frames

/-!
# Onion layers and the client's circuit

`crates/circuit/src/onion.rs`, `keys.rs` (the key pair of a hop) and `circuit.rs`. The cipher is a
parameter, `Aead`. The four vectors of a `Circuit`, which are pushed to together, are one list of
hops. Counters are natural numbers with the bound of `u64` at each checked addition.
-/

namespace Mirage.Circuits

open Words

/-- `encrypt key nonce aad msg` and its inverse. -/
structure Aead where
  encrypt : Bytes32 → Bytes → Bytes → Bytes → Option Bytes
  decrypt : Bytes32 → Bytes → Bytes → Bytes → Option Bytes

/-- A text that fits a cell is sealed, the tag takes 16 bytes, and what was sealed opens. -/
structure Aead.Lawful (A : Aead) : Prop where
  encrypt_some : ∀ key nonce aad msg, msg.length ≤ maxCellPayload →
    ∃ ct, A.encrypt key nonce aad msg = some ct ∧ ct.length = msg.length + 16
  decrypt_encrypt : ∀ {key nonce aad msg ct}, A.encrypt key nonce aad msg = some ct →
    A.decrypt key nonce aad ct = some msg

/-- A cipher with a blank tag that hides nothing, to evaluate runs with. -/
def Aead.plain : Aead where
  encrypt _ _ _ msg := some (msg ++ List.replicate 16 0)
  decrypt _ _ _ ct := some (ct.take (ct.length - 16))

lemma Aead.plain_lawful : Aead.plain.Lawful where
  encrypt_some _ _ _ msg _ := ⟨_, rfl, by simp⟩
  decrypt_encrypt h := by
    obtain rfl := Option.some.inj h
    simp [plain]

inductive OnionError
  | authFailed
  | noLayers
  | epochOverflow
  deriving DecidableEq, Repr

structure OnionLayer where
  key : Bytes32
  iv : Vector UInt8 12
  deriving DecidableEq

structure HopKeys where
  forward : OnionLayer
  reverse : OnionLayer
  deriving DecidableEq

def HopKeys.blank : HopKeys :=
  ⟨⟨Vector.replicate 32 0, Vector.replicate 12 0⟩, ⟨Vector.replicate 32 0, Vector.replicate 12 0⟩⟩

def dirClientToHop : UInt8 := 0

def dirHopToClient : UInt8 := 1

def onionMaxEpoch : ℕ := 2 ^ 24 - 1

def onionAadPrefix : Bytes := ascii "mirage-onion-cell-v1"

/-- The iv under direction, the low 24 bits of the epoch, and the counter. -/
def onionNonce (iv : Vector UInt8 12) (direction : UInt8) (epoch seq : ℕ) : Bytes :=
  List.zipWith (· ^^^ ·) iv.toList (direction :: (beBytes 4 epoch).drop 1 ++ beBytes 8 seq)

def onionAad (direction : UInt8) (epoch seq : ℕ) : Bytes :=
  onionAadPrefix ++ direction :: beBytes 4 epoch ++ beBytes 8 seq

section Layers

variable (A : Aead)

def sealLayer (direction : UInt8) (epoch seq : ℕ) (layer : OnionLayer) (payload : Bytes) :
    Except OnionError Bytes :=
  match A.encrypt layer.key (onionNonce layer.iv direction epoch seq) (onionAad direction epoch seq)
    payload with
  | some ct => .ok ct
  | none => .error .authFailed

def openLayer (direction : UInt8) (epoch seq : ℕ) (layer : OnionLayer) (payload : Bytes) :
    Except OnionError Bytes :=
  match A.decrypt layer.key (onionNonce layer.iv direction epoch seq) (onionAad direction epoch seq)
    payload with
  | some pt => .ok pt
  | none => .error .authFailed

def onionSeal (layers : List OnionLayer) (plaintext : Bytes) (direction : UInt8)
    (epoch seq : ℕ) : Except OnionError Bytes :=
  if layers.isEmpty then .error .noLayers
  else if onionMaxEpoch < epoch then .error .epochOverflow
  else layers.foldrM (sealLayer A direction epoch seq) plaintext

def onionOpen (layers : List OnionLayer) (ciphertext : Bytes) (direction : UInt8)
    (epoch seq : ℕ) : Except OnionError Bytes :=
  if layers.isEmpty then .error .noLayers
  else if onionMaxEpoch < epoch then .error .epochOverflow
  else layers.foldlM (fun payload layer => openLayer A direction epoch seq layer payload) ciphertext

end Layers

def maxCircuitHops : ℕ := 3

/-- What an exit may put into one reverse `DATA` sub-cell. -/
def maxReverseRelayDataBytes : ℕ := maxCellPayload - maxCircuitHops * 16 - 3 - 2

inductive CircuitError
  | tooManyHops
  | noHops
  | destroyed
  | onion (e : OnionError)
  | seqExhausted

structure CircuitHop where
  forward : OnionLayer
  reverse : OnionLayer
  c2hSeq : ℕ
  h2cSeq : ℕ

structure Circuit where
  hops : List CircuitHop
  epoch : ℕ
  destroyed : Bool

/-- `checked_add(1)` on the counters one after the other; those before the one that fails have
moved on. -/
def advanceAll (get : CircuitHop → ℕ) (set : CircuitHop → ℕ → CircuitHop) :
    List CircuitHop → Bool × List CircuitHop
  | [] => (true, [])
  | h :: hs =>
    match checkedSucc (get h) with
    | none => (false, h :: hs)
    | some n => ((advanceAll get set hs).1, set h n :: (advanceAll get set hs).2)

namespace Circuit

variable (A : Aead) (c : Circuit)

def extend (keys : HopKeys) : Except CircuitError Unit × Circuit :=
  if c.destroyed then (.error .destroyed, c)
  else if maxCircuitHops ≤ c.hops.length then (.error .tooManyHops, c)
  else (.ok (), { c with hops := c.hops ++ [⟨keys.forward, keys.reverse, 0, 0⟩] })

/-- The layers of the hops around a payload, the last hop's innermost. -/
def sealHops (epoch : ℕ) : List CircuitHop → Bytes → Except OnionError Bytes
  | [], payload => .ok payload
  | h :: hs, payload =>
    match sealHops epoch hs payload with
    | .error e => .error e
    | .ok payload => onionSeal A [h.forward] payload dirClientToHop epoch h.c2hSeq

def openHops (epoch : ℕ) : List CircuitHop → Bytes → Except OnionError Bytes
  | [], payload => .ok payload
  | h :: hs, payload =>
    match onionOpen A [h.reverse] payload dirHopToClient epoch h.h2cSeq with
    | .error e => .error e
    | .ok payload => openHops epoch hs payload

def relaySeal (plaintext : Bytes) : Except CircuitError Bytes × Circuit :=
  if c.destroyed then (.error .destroyed, c)
  else if c.hops.isEmpty then (.error .noHops, c)
  else match sealHops A c.epoch c.hops plaintext with
    | .error e => (.error (.onion e), c)
    | .ok payload =>
      let adv := advanceAll CircuitHop.c2hSeq (fun h n => { h with c2hSeq := n }) c.hops
      (if adv.1 then .ok payload else .error .seqExhausted, { c with hops := adv.2 })

def relayOpen (ciphertext : Bytes) : Except CircuitError Bytes × Circuit :=
  if c.destroyed then (.error .destroyed, c)
  else if c.hops.isEmpty then (.error .noHops, c)
  else match openHops A c.epoch c.hops ciphertext with
    | .error e => (.error (.onion e), c)
    | .ok payload =>
      let adv := advanceAll CircuitHop.h2cSeq (fun h n => { h with h2cSeq := n }) c.hops
      (if adv.1 then .ok payload else .error .seqExhausted, { c with hops := adv.2 })

end Circuit

end Mirage.Circuits
