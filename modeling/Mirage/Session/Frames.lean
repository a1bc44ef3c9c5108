import Mirage.Lib.Words

/-!
# The session framer

`crates/session/src/frames.rs`: every frame is encrypted by the Noise transport and again under the
direction key of the current ratchet epoch, with nonce and AAD built from `(epoch, seq)`. The
receiver keeps the keys of its epoch and of the one before. The primitives are the fields of
`Suite`; counters are natural numbers, with the bound of the machine type at each checked addition.
-/

namespace Mirage

open Words

inductive Role
  | initiator
  | responder
  deriving DecidableEq

def Role.peer : Role → Role
  | .initiator => .responder
  | .responder => .initiator

inductive NoiseError
  | decrypt
  | exhausted
  deriving DecidableEq, Repr

inductive SessionError
  | wire (msg : String)
  | noise (e : NoiseError)
  | state (msg : String)
  deriving DecidableEq

/-- The primitives the framer calls. `noiseEncrypt r n` is the transport cipher of the side `r`
at nonce `n`, `noiseDecrypt r n` the inverse its peer applies. -/
structure Suite where
  blake3 : Bytes → Bytes32
  hkdfExpand : Bytes32 → Bytes → Vector UInt8 44
  encrypt : Bytes32 → Bytes → Bytes → Bytes → Option Bytes
  decrypt : Bytes32 → Bytes → Bytes → Bytes → Option Bytes
  noiseEncrypt : Role → ℕ → Bytes → Bytes
  noiseDecrypt : Role → ℕ → Bytes → Option Bytes

def aeadTagLen : ℕ := 16

def maxFramePlaintext : ℕ := 16384

def maxOuterCtLen : ℕ := maxFramePlaintext + 2 * aeadTagLen

def minOuterCtLen : ℕ := 1 + 2 * aeadTagLen

def lenPrefixSize : ℕ := 2

def maxSendLeadEpochs : ℕ := 16

def checkedSucc (n : ℕ) : Option ℕ := if n + 1 < 2 ^ 64 then some (n + 1) else none

lemma checkedSucc_eq_some {n m : ℕ} : checkedSucc n = some m ↔ m = n + 1 ∧ n + 1 < 2 ^ 64 := by
  unfold checkedSucc
  split_ifs with h
  · simp only [Option.some.injEq]
    omega
  · simp only [false_iff, not_and]
    exact fun _ => h

def ascii (s : String) : Bytes := s.toUTF8.toList

inductive Direction
  | i2r
  | r2i

namespace Direction

def opposite : Direction → Direction
  | .i2r => .r2i
  | .r2i => .i2r

def byte : Direction → UInt8
  | .i2r => 0
  | .r2i => 1

def ratchetLabel : Direction → String
  | .i2r => "mirage-ratchet-i2r-v1"
  | .r2i => "mirage-ratchet-r2i-v1"

end Direction

structure DirState where
  key : Bytes32
  iv : Vector UInt8 12
  seq : ℕ

section Keys

variable (S : Suite)

def directionRoot (label : String) (kPq binding : Bytes32) : Bytes32 :=
  S.blake3 (ascii label ++ kPq.toList ++ binding.toList)

def ratchetRoot (label : String) (prev : Bytes32) (epoch : ℕ) (binding : Bytes32) : Bytes32 :=
  S.blake3 (ascii label ++ prev.toList ++ beBytes 4 epoch ++ binding.toList)

def combineKemSecret (x25519Ss mlkemSs : Bytes32) : Bytes32 :=
  S.blake3 (ascii "mirage-kem-combine-v1" ++ x25519Ss.toList ++ mlkemSs.toList)

def ratchetRootKem (label : String) (prev : Bytes32) (epoch : ℕ)
    (binding kemSecret : Bytes32) : Bytes32 :=
  S.blake3 (ascii "mirage-kem-reseed-v1" ++ ascii label ++ prev.toList ++ beBytes 4 epoch
    ++ binding.toList ++ kemSecret.toList)

def kemConfirmationTag (newI2r newR2i binding : Bytes32) (epoch : ℕ) : Bytes32 :=
  S.blake3 (ascii "mirage-kem-confirm-v1" ++ newI2r.toList ++ newR2i.toList ++ binding.toList
    ++ beBytes 4 epoch)

/-- Key and iv of an epoch. HKDF cannot fail for these lengths. -/
def expandCipher (root : Bytes32) (epoch : ℕ) : Bytes32 × Vector UInt8 12 :=
  let out := S.hkdfExpand root (ascii ("mirage-cipher-v1-e" ++ toString epoch))
  (Vector.ofFn fun i : Fin 32 => out.get ⟨i, by omega⟩,
    Vector.ofFn fun i : Fin 12 => out.get ⟨i + 32, by omega⟩)

def freshDir (root : Bytes32) (epoch : ℕ) : DirState :=
  ⟨(expandCipher S root epoch).1, (expandCipher S root epoch).2, 0⟩

end Keys

/-- `session_binding || direction || epoch (u32, BE) || seq (u64, BE)`. -/
def aadBytes (binding : Bytes32) (d : Direction) (epoch seq : ℕ) : Bytes :=
  binding.toList ++ d.byte :: (beBytes 4 (epoch % 2 ^ 32) ++ beBytes 8 seq)

/-- `iv XOR (epoch (u32, BE) || seq (u64, BE))`. -/
def nonceBytes (iv : Vector UInt8 12) (epoch seq : ℕ) : Bytes :=
  List.zipWith (· ^^^ ·) iv.toList (beBytes 4 (epoch % 2 ^ 32) ++ beBytes 8 seq)

def tryOuterDecrypt (S : Suite) (key : Bytes32) (iv : Vector UInt8 12)
    (binding : Bytes32) (d : Direction) (epoch seq : ℕ) (outerCt : Bytes) : Option Bytes :=
  S.decrypt key (nonceBytes iv epoch seq) (aadBytes binding d epoch seq) outerCt

structure TransportState where
  sendNonce : ℕ
  recvNonce : ℕ

namespace TransportState

variable (S : Suite) (role : Role) (t : TransportState)

/-- `write_message`: the nonce `u64::MAX` is reserved. -/
def writeMessage (payload : Bytes) : Except NoiseError (Bytes × TransportState) :=
  if t.sendNonce + 1 = 2 ^ 64 then .error .exhausted
  else .ok (S.noiseEncrypt role t.sendNonce payload, { t with sendNonce := t.sendNonce + 1 })

/-- `read_message`: a message that does not decrypt leaves the nonce where it was. -/
def readMessage (message : Bytes) : Except NoiseError (Bytes × TransportState) :=
  if t.recvNonce + 1 = 2 ^ 64 then .error .exhausted
  else match S.noiseDecrypt role.peer t.recvNonce message with
    | none => .error .decrypt
    | some payload => .ok (payload, { t with recvNonce := t.recvNonce + 1 })

end TransportState

structure SessionFramer where
  sessionBinding : Bytes32
  epoch : ℕ
  role : Role
  kSessionI2r : Bytes32
  kSessionR2i : Bytes32
  send : DirState
  recv : DirState
  recvPrev : Option DirState
  lastRecvEpoch : ℕ
  inner : TransportState

inductive Which
  | current
  | prev
  | next

namespace SessionFramer

variable (S : Suite)

def split (role : Role) (i2r r2i : DirState) : DirState × DirState :=
  match role with
  | .initiator => (i2r, r2i)
  | .responder => (r2i, i2r)

def fromSessionKeys (binding kPq : Bytes32) (role : Role) : SessionFramer :=
  let kI2r := directionRoot S "mirage-key-i2r-v1" kPq binding
  let kR2i := directionRoot S "mirage-key-r2i-v1" kPq binding
  let dirs := split role (freshDir S kI2r 0) (freshDir S kR2i 0)
  { sessionBinding := binding, epoch := 0, role := role, kSessionI2r := kI2r, kSessionR2i := kR2i,
    send := dirs.1, recv := dirs.2, recvPrev := none, lastRecvEpoch := 0, inner := ⟨0, 0⟩ }

variable (f : SessionFramer)

def sendDirection : Direction :=
  match f.role with
  | .initiator => .i2r
  | .responder => .r2i

def root : Direction → Bytes32
  | .i2r => f.kSessionI2r
  | .r2i => f.kSessionR2i

def recvMaterialFor (nextEpoch : ℕ) : Except SessionError (Bytes32 × Vector UInt8 12) :=
  if 2 ^ 32 ≤ nextEpoch then .error (.state "epoch would exceed u32")
  else
    let d := f.sendDirection.opposite
    let nextRoot := ratchetRoot S d.ratchetLabel (f.root d) nextEpoch f.sessionBinding
    .ok (expandCipher S nextRoot nextEpoch)

def expirePrevRecv : SessionFramer := { f with recvPrev := none }

/-- The commit of an epoch change: fresh cipher states from the new roots, the superseded receive
state kept as the grace window. -/
def install (nextEpoch : ℕ) (nextI2r nextR2i : Bytes32) : SessionFramer :=
  let dirs := split f.role (freshDir S nextI2r nextEpoch) (freshDir S nextR2i nextEpoch)
  { f with
    kSessionI2r := nextI2r, kSessionR2i := nextR2i, send := dirs.1, recv := dirs.2,
    recvPrev := some f.recv, epoch := nextEpoch }

def nextEpoch : Except SessionError ℕ :=
  match checkedSucc f.epoch with
  | none => .error (.state "epoch overflow (u64)")
  | some e => if 2 ^ 32 ≤ e then .error (.state "epoch would exceed u32::MAX") else .ok e

def advanceEpoch : Except SessionError Unit × SessionFramer :=
  match f.nextEpoch with
  | .error err => (.error err, f)
  | .ok e =>
    (.ok (), f.install S e
      (ratchetRoot S Direction.i2r.ratchetLabel f.kSessionI2r e f.sessionBinding)
      (ratchetRoot S Direction.r2i.ratchetLabel f.kSessionR2i e f.sessionBinding))

def kemReseed (x25519Ss mlkemSs : Bytes32) : Except SessionError Bytes32 × SessionFramer :=
  match f.nextEpoch with
  | .error err => (.error err, f)
  | .ok e =>
    let secret := combineKemSecret S x25519Ss mlkemSs
    let nextI2r :=
      ratchetRootKem S Direction.i2r.ratchetLabel f.kSessionI2r e f.sessionBinding secret
    let nextR2i :=
      ratchetRootKem S Direction.r2i.ratchetLabel f.kSessionR2i e f.sessionBinding secret
    (.ok (kemConfirmationTag S nextI2r nextR2i f.sessionBinding e), f.install S e nextI2r nextR2i)

def leadBound : ℕ := min (f.lastRecvEpoch + maxSendLeadEpochs) (2 ^ 64 - 1)

def maybeAdvance (targetEpoch : ℕ) : Except SessionError Bool × SessionFramer :=
  if targetEpoch ≤ f.epoch then (.ok false, f)
  else if f.leadBound ≤ f.epoch then (.ok false, f)
  else match f.advanceEpoch S with
    | (.error err, f) => (.error err, f)
    | (.ok (), f) => (.ok true, f)

def Advances (target : ℕ) : Prop :=
  f.epoch < target ∧ f.epoch < f.leadBound ∧ f.epoch + 1 < 2 ^ 32
deriving Decidable

/-- `[length (u16, BE)] [outer_ct]`. -/
def wireFrame (outerCt : Bytes) : Bytes := beBytes 2 outerCt.length ++ outerCt

def sendFrame (plaintext : Bytes) : Except SessionError Bytes × SessionFramer :=
  if plaintext = [] then (.error (.state "empty plaintext"), f)
  else if maxFramePlaintext < plaintext.length then
    (.error (.state "plaintext exceeds 16384"), f)
  else match f.inner.writeMessage S f.role plaintext with
    | .error e => (.error (.noise e), f)
    | .ok (innerBuf, inner) =>
      let f := { f with inner := inner }
      let aad := aadBytes f.sessionBinding f.sendDirection f.epoch f.send.seq
      match S.encrypt f.send.key (nonceBytes f.send.iv f.epoch f.send.seq) aad innerBuf with
      | none => (.error (.state "outer aead encrypt failed"), f)
      | some outerCt =>
        if maxOuterCtLen < outerCt.length then (.error (.state "outer ct exceeds max"), f)
        else match checkedSucc f.send.seq with
          | none => (.error (.state "send seq overflow"), f)
          | some seq => (.ok (wireFrame outerCt), { f with send := { f.send with seq := seq } })

/-- The trial decryption: current epoch, then the grace window, then the next epoch. -/
def trial (outerCt : Bytes) : Except SessionError (Bytes × Which) :=
  let d := f.sendDirection.opposite
  match tryOuterDecrypt S f.recv.key f.recv.iv f.sessionBinding d f.epoch f.recv.seq outerCt with
  | some ct => .ok (ct, .current)
  | none =>
    match (if f.epoch = 0 then none else f.recvPrev.bind fun p =>
      tryOuterDecrypt S p.key p.iv f.sessionBinding d (f.epoch - 1) p.seq outerCt) with
    | some ct => .ok (ct, .prev)
    | none =>
      match checkedSucc f.epoch with
      | none => .error (.state "epoch overflow")
      | some nextEpoch =>
        match f.recvMaterialFor S nextEpoch with
        | .error e => .error e
        | .ok (nk, niv) =>
          match tryOuterDecrypt S nk niv f.sessionBinding d nextEpoch 0 outerCt with
          | some ct => .ok (ct, .next)
          | none => .error (.state "outer aead decrypt failed")

/-- The counters after a frame of the given epoch was read. -/
def settle : Which → Except SessionError Unit × SessionFramer
  | .current =>
    match checkedSucc f.recv.seq with
    | none => (.error (.state "recv seq overflow"), f)
    | some seq =>
      (.ok (), { f with
        recv := { f.recv with seq := seq }, lastRecvEpoch := f.epoch, recvPrev := none })
  | .prev =>
    match f.recvPrev with
    | none => (.ok (), f)
    | some p =>
      match checkedSucc p.seq with
      | none => (.error (.state "recv_prev seq overflow"), f)
      | some seq => (.ok (), { f with recvPrev := some { p with seq := seq } })
  | .next =>
    match f.advanceEpoch S with
    | (.error e, f) => (.error e, f)
    | (.ok (), f) => (.ok (), { f with recv := { f.recv with seq := 1 }, lastRecvEpoch := f.epoch })

def recvFrame (wire : Bytes) : Except SessionError Bytes × SessionFramer :=
  match wire with
  | hi :: lo :: outerCt =>
    let claimedLen := beNat [hi, lo]
    if wire.length ≠ lenPrefixSize + claimedLen then
      (.error (.wire "frame length mismatch"), f)
    else if claimedLen < minOuterCtLen ∨ maxOuterCtLen < claimedLen then
      (.error (.wire "outer ct length out of range"), f)
    else match f.trial S outerCt with
      | .error e => (.error e, f)
      | .ok (innerCt, which) =>
        match f.inner.readMessage S f.role innerCt with
        | .error e => (.error (.noise e), f)
        | .ok (plaintext, inner) =>
          match { f with inner := inner }.settle S which with
          | (.error e, f) => (.error e, f)
          | (.ok (), f) => (.ok plaintext, f)
  | _ => (.error (.wire "frame shorter than length prefix"), f)

end SessionFramer

end Mirage
