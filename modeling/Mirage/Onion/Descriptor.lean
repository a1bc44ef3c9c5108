import Mirage.Session.Frames

/-!
# Descriptors of onion services

`OnionDescriptor` of `crates/onion/src/descriptor.rs`: the document with which a service tells its
clients how to reach it. Ed25519 is a parameter. Times are Unix seconds.
-/

namespace Mirage.Onion

open Words

/-- Ed25519 as `ed25519-dalek` has it. A signing key is its seed. -/
structure Ed25519 where
  verifyingKey : Bytes32 → Bytes32
  sign : Bytes32 → Bytes → Bytes64
  /-- `VerifyingKey::from_bytes` succeeds. -/
  validKey : Bytes32 → Bool
  verifyStrict : Bytes32 → Bytes → Bytes64 → Bool

/-- What a key signs is verified with its public half. -/
structure Ed25519.Lawful (E : Ed25519) : Prop where
  validKey : ∀ sk, E.validKey (E.verifyingKey sk) = true
  verify : ∀ sk msg, E.verifyStrict (E.verifyingKey sk) msg (E.sign sk msg) = true

structure Text where
  bytes : Bytes
  utf8 : isUtf8 bytes = true
  deriving DecidableEq

def docTypeOnionDescriptor : UInt8 := 0x60

def onionDescVersionV1 : UInt8 := 0x01

def onionDescVersionV2 : UInt8 := 0x02

def magic : Bytes := [0x4d, 0x49]

def sigLen : ℕ := 64

def introPointFixedLen : ℕ := 32 + 32 + 32

def maxIntroPoints : ℕ := 8

structure IntroPoint where
  bridgeEd25519Pk : Bytes32
  bridgeX25519Pk : Bytes32
  introAuthKey : Bytes32
  endpoint : Text
  deriving DecidableEq

structure OnionDescriptor where
  issuedAt : UInt64
  expiresAt : UInt64
  serviceEd25519Pk : Bytes32
  serviceX25519Pk : Bytes32
  introPoints : List IntroPoint
  signature : Bytes64
  deriving DecidableEq

inductive ServiceDescError
  | wire (reason : String)
  | badIntroCount (count : ℕ)
  | badExpiry
  | badSignature
  | pkMismatch
  deriving DecidableEq

def IntroPoint.encode (ip : IntroPoint) : Bytes :=
  ip.bridgeEd25519Pk.toList ++ ip.bridgeX25519Pk.toList ++ ip.introAuthKey.toList ++
    [UInt8.ofNat ip.endpoint.bytes.length] ++ ip.endpoint.bytes

def IntroPoint.decode (buf : Bytes) : Except ServiceDescError (IntroPoint × Bytes) :=
  if buf.length < introPointFixedLen + 1 then .error (.wire "truncated intro point")
  else
    let epLen := (buf.getD 96 0).toNat
    let rest := buf.drop (introPointFixedLen + 1)
    if rest.length < epLen then .error (.wire "truncated endpoint")
    else if h : isUtf8 (rest.take epLen) = true then
      .ok (⟨vec 32 buf, vec 32 (buf.drop 32), vec 32 (buf.drop 64), ⟨rest.take epLen, h⟩⟩,
        rest.drop epLen)
    else .error (.wire "endpoint is not utf-8")

def decodeIntroPoints : ℕ → Bytes → Except ServiceDescError (List IntroPoint × Bytes)
  | 0, buf => .ok ([], buf)
  | n + 1, buf =>
    match IntroPoint.decode buf with
    | .error e => .error e
    | .ok (ip, rest) =>
      match decodeIntroPoints n rest with
      | .error e => .error e
      | .ok (ips, rest) => .ok (ip :: ips, rest)

namespace OnionDescriptor

def new (issuedAt expiresAt : UInt64) (serviceEd25519Pk serviceX25519Pk : Bytes32)
    (introPoints : List IntroPoint) : Except ServiceDescError OnionDescriptor :=
  if expiresAt ≤ issuedAt then .error .badExpiry
  else if introPoints.isEmpty ∨ maxIntroPoints < introPoints.length then
    .error (.badIntroCount introPoints.length)
  else .ok ⟨issuedAt, expiresAt, serviceEd25519Pk, serviceX25519Pk, introPoints, .replicate 64 0⟩

variable (E : Ed25519) (d : OnionDescriptor)

def encodeSignedPrefix : Bytes :=
  magic ++ [docTypeOnionDescriptor, onionDescVersionV2] ++ beBytes 8 d.issuedAt.toNat ++
    beBytes 8 d.expiresAt.toNat ++ d.serviceEd25519Pk.toList ++ d.serviceX25519Pk.toList ++
    [UInt8.ofNat d.introPoints.length] ++ d.introPoints.flatMap IntroPoint.encode

def sign (serviceSk : Bytes32) : Except ServiceDescError OnionDescriptor :=
  if E.verifyingKey serviceSk ≠ d.serviceEd25519Pk then .error .pkMismatch
  else .ok { d with signature := E.sign serviceSk d.encodeSignedPrefix }

def verify : Except ServiceDescError Unit :=
  if !E.validKey d.serviceEd25519Pk then .error .badSignature
  else if E.verifyStrict d.serviceEd25519Pk d.encodeSignedPrefix d.signature then .ok ()
  else .error .badSignature

def encode : Except ServiceDescError Bytes :=
  if d.introPoints.isEmpty ∨ maxIntroPoints < d.introPoints.length then
    .error (.badIntroCount d.introPoints.length)
  else .ok (d.encodeSignedPrefix ++ d.signature.toList)

def minLen : ℕ := 2 + 1 + 1 + 8 + 8 + 32 + 32 + 1 + introPointFixedLen + 1 + sigLen

def decode (buf : Bytes) : Except ServiceDescError OnionDescriptor :=
  if buf.length < minLen then .error (.wire "descriptor too short")
  else if buf.take 2 ≠ magic then .error (.wire "bad magic")
  else if buf.getD 2 0 ≠ docTypeOnionDescriptor then .error (.wire "wrong doc_type")
  else if buf.getD 3 0 = onionDescVersionV1 then .error
    (.wire "v1 descriptor: no service X25519 key and no endpoints, cannot be used")
  else if buf.getD 3 0 ≠ onionDescVersionV2 then .error (.wire "unsupported version")
  else
    let issuedAt := UInt64.ofNat (beNat ((buf.drop 4).take 8))
    let expiresAt := UInt64.ofNat (beNat ((buf.drop 12).take 8))
    if expiresAt ≤ issuedAt then .error .badExpiry
    else
      let introCount := (buf.getD 84 0).toNat
      if introCount = 0 ∨ maxIntroPoints < introCount then .error (.badIntroCount introCount)
      else match decodeIntroPoints introCount (buf.drop 85) with
        | .error e => .error e
        | .ok (introPoints, rest) =>
          if rest.length ≠ sigLen then .error (.wire "length mismatch")
          else .ok ⟨issuedAt, expiresAt, vec 32 (buf.drop 20), vec 32 (buf.drop 52), introPoints,
            vec 64 rest⟩

/-- True iff `now` is in `[issued_at, expires_at)`. -/
def isValidAt (now : UInt64) : Bool := d.issuedAt ≤ now && now < d.expiresAt

end OnionDescriptor

/-! ## Resolution -/

/-- Also keyed BLAKE3, and ChaCha20-Poly1305 with key, nonce, associated data and ciphertext. -/
structure SealedSuite extends Ed25519 where
  blake3Keyed : Bytes32 → Bytes → Bytes32
  decrypt : Bytes32 → Vector UInt8 12 → Bytes → Bytes → Option Bytes

inductive SealError
  | tooShort (len : ℕ)
  | authFailed

inductive OnionDiscoveryError
  | notFound (channels : ℕ)

def maxBlobsPerFetch : ℕ := 32

/-- The arguments of `resolve_descriptor` besides the channels. -/
structure Lookup where
  servicePk : Bytes32
  epoch : UInt64
  now : UInt64

namespace Lookup

variable {ε : Type*} (q : Lookup) (S : SealedSuite)

def sealKey : Bytes32 :=
  S.blake3Keyed q.servicePk (ascii "mirage-onion-seal-v1" ++ beBytes 8 q.epoch.toNat)

def unsealDescriptor (blob : Bytes) : Except SealError Bytes :=
  if blob.length < 12 + 16 then .error (.tooShort blob.length)
  else match S.decrypt (q.sealKey S) (vec 12 blob) (ascii "mirage-onion-seal-aad-v1")
      (blob.drop 12) with
    | none => .error .authFailed
    | some unsealed => .ok unsealed

def onionDescriptorInfoHash : Vector UInt8 20 :=
  vec 20 (S.blake3Keyed q.servicePk
    (ascii "mirage-onion-desc-v1" ++ beBytes 8 q.epoch.toNat)).toList

def candidate (blob : Bytes) : Option OnionDescriptor :=
  match q.unsealDescriptor S blob with
  | .error _ => none
  | .ok unsealed => match OnionDescriptor.decode unsealed with
    | .error _ => none
    | .ok d =>
      if d.serviceEd25519Pk ≠ q.servicePk then none
      else if d.verify S.toEd25519 ≠ .ok () then none
      else if !d.isValidAt q.now then none
      else some d

def considerBlob (best : Option OnionDescriptor) (blob : Bytes) : Option OnionDescriptor :=
  match q.candidate S blob, best with
  | none, _ => best
  | some d, none => some d
  | some d, some b => if b.issuedAt < d.issuedAt then some d else some b

/-- A channel is what its `fetch` answers; how it fails makes no difference. -/
def resolveDescriptor (channels : List (Vector UInt8 20 → Except ε (List Bytes))) :
    Except OnionDiscoveryError OnionDescriptor :=
  let best := channels.foldl (fun best fetch =>
    match fetch (q.onionDescriptorInfoHash S) with
    | .ok blobs => (blobs.take maxBlobsPerFetch).foldl (q.considerBlob S) best
    | .error _ => best) none
  match best with
  | some d => .ok d
  | none => .error (.notFound channels.length)

end Lookup

end Mirage.Onion
