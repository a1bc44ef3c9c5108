import Mirage.Onion.Descriptor

/-!
# Announcements and revocations

`crates/discovery/src/wire.rs`: the documents that an operator signs about bridges, as bytes and
back. Ed25519 is a parameter. Times are Unix seconds.
-/

namespace Mirage.Discovery

open Words
open Onion (Ed25519 Text)

inductive DiscoveryError
  | wire (reason : String)
  | signature (reason : String)
  | decrypt (reason : String)
  | time (reason : String)
  | ed25519 (reason : String)
  deriving DecidableEq

def magic : Bytes := [0x4d, 0x49]

def docTypeAnnouncement : UInt8 := 0x20

def docTypeRevocation : UInt8 := 0x30

def announcementVersionV01 : UInt8 := 0x01

def announcementVersionV01t : UInt8 := 0x02

def announcementMaxExtraEndpoints : ℕ := 14

def revocationVersionV01 : UInt8 := 0x01

def sigLen : ℕ := 64

inductive Endpoint
  | ipv4 (addr : Vector UInt8 4) (port : UInt16)
  | ipv6 (addr : Vector UInt8 16) (port : UInt16)
  | domain (name : Text) (port : UInt16)
  | onionV3 (ascii : Vector UInt8 56) (port : UInt16)
  deriving DecidableEq

def isAsciiAlphanumeric (b : UInt8) : Bool :=
  (48 ≤ b && b ≤ 57) || (65 ≤ b && b ≤ 90) || (97 ≤ b && b ≤ 122)

def validateLabel (label : Bytes) : Except DiscoveryError Unit :=
  if label = [] ∨ 63 < label.length then .error (.wire "domain: invalid label length")
  else if !isAsciiAlphanumeric (label.headD 0) then
    .error (.wire "domain: label must start with alnum")
  else if !isAsciiAlphanumeric (label.getLastD 0) then
    .error (.wire "domain: label must end with alnum")
  else .ok ()

def validateLabels (label : Bytes) : Bytes → Except DiscoveryError Unit
  | [] => validateLabel label
  | b :: bytes =>
    if !(isAsciiAlphanumeric b || b = 45 || b = 46) then .error (.wire "domain: invalid byte")
    else if b = 46 then
      match validateLabel label with
      | .error e => .error e
      | .ok () => validateLabels [] bytes
    else validateLabels (label ++ [b]) bytes

def validateHostname (bytes : Bytes) : Except DiscoveryError Unit :=
  if bytes = [] ∨ 253 < bytes.length then .error (.wire "domain: invalid total length")
  else if bytes.getLastD 0 = 46 then .error (.wire "domain: trailing dot not allowed")
  else validateLabels [] bytes

def portAt (buf : Bytes) (pos : ℕ) : UInt16 := UInt16.ofNat (beNat ((buf.drop pos).take 2))

namespace Endpoint

/-- The length of a domain is cut down to a byte. -/
def encode : Endpoint → Bytes
  | ipv4 addr port => [0x01] ++ addr.toList ++ beBytes 2 port.toNat
  | ipv6 addr port => [0x02] ++ addr.toList ++ beBytes 2 port.toNat
  | domain name port =>
    [0x03, UInt8.ofNat name.bytes.length] ++ name.bytes ++ beBytes 2 port.toNat
  | onionV3 ascii port => [0x04] ++ ascii.toList ++ beBytes 2 port.toNat

def decodeDomain (buf : Bytes) : Except DiscoveryError (Endpoint × ℕ) :=
  if buf.length < 2 then .error (.wire "endpoint: domain truncated")
  else
    let dlen := (buf.getD 1 0).toNat
    if dlen = 0 ∨ 253 < dlen then .error (.wire "endpoint: domain length invalid")
    else if buf.length < 2 + dlen + 2 then .error (.wire "endpoint: domain truncated")
    else
      let domainBytes := (buf.drop 2).take dlen
      match validateHostname domainBytes with
      | .error e => .error e
      | .ok () =>
        if h : isUtf8 domainBytes = true then
          let port := portAt buf (2 + dlen)
          if port = 0 then .error (.wire "endpoint: port 0 reserved")
          else .ok (.domain ⟨domainBytes, h⟩ port, 2 + dlen + 2)
        else .error (.wire "endpoint: domain not UTF-8")

def decode (buf : Bytes) : Except DiscoveryError (Endpoint × ℕ) :=
  if buf = [] then .error (.wire "endpoint: empty")
  else if buf.getD 0 0 = 0x01 then
    if buf.length < 7 then .error (.wire "endpoint: ipv4 truncated")
    else .ok (.ipv4 (vec 4 (buf.drop 1)) (portAt buf 5), 7)
  else if buf.getD 0 0 = 0x02 then
    if buf.length < 19 then .error (.wire "endpoint: ipv6 truncated")
    else .ok (.ipv6 (vec 16 (buf.drop 1)) (portAt buf 17), 19)
  else if buf.getD 0 0 = 0x03 then decodeDomain buf
  else if buf.getD 0 0 = 0x04 then
    if buf.length < 59 then .error (.wire "endpoint: onion truncated")
    else .ok (.onionV3 (vec 56 (buf.drop 1)) (portAt buf 57), 59)
  else .error (.wire "endpoint: unknown kind")

/-- How many bytes the endpoint at `pos` takes, without reading it. -/
def wireLenAt (buf : Bytes) (pos : ℕ) : Except DiscoveryError ℕ :=
  if buf.length ≤ pos then .error (.wire "endpoint: empty")
  else if buf.getD pos 0 = 0x01 then .ok (1 + 4 + 2)
  else if buf.getD pos 0 = 0x02 then .ok (1 + 16 + 2)
  else if buf.getD pos 0 = 0x03 then
    if buf.length ≤ pos + 1 then .error (.wire "endpoint: domain truncated")
    else
      let total := 1 + 1 + (buf.getD (pos + 1) 0).toNat + 2
      if buf.length < pos + total then
        .error (.wire "endpoint: domain length exceeds remaining buffer")
      else .ok total
  else if buf.getD pos 0 = 0x04 then .ok (1 + 56 + 2)
  else .error (.wire "endpoint: unknown kind")

def skipExtras : ℕ → Bytes → ℕ → Except DiscoveryError ℕ
  | 0, _, cursor => .ok cursor
  | n + 1, buf, cursor =>
    match wireLenAt buf cursor with
    | .error e => .error e
    | .ok len => skipExtras n buf (cursor + len)

def decodeExtras : ℕ → Bytes → ℕ → Except DiscoveryError (List Endpoint × ℕ)
  | 0, _, cursor => .ok ([], cursor)
  | n + 1, buf, cursor =>
    match decode (buf.drop cursor) with
    | .error e => .error e
    | .ok (ep, len) =>
      match decodeExtras n buf (cursor + len) with
      | .error e => .error e
      | .ok (eps, cursor) => .ok (ep :: eps, cursor)

end Endpoint

def maskDefined : UInt32 := 0x3fff

structure Announcement where
  issuedAt : UInt64
  expiresAt : UInt64
  bridgeEd25519Pk : Bytes32
  bridgeX25519Pk : Bytes32
  transportCaps : UInt32
  endpoint : Endpoint
  extraEndpoints : List Endpoint
  signature : Bytes64
  deriving DecidableEq

def verifyOperator (E : Ed25519) (operatorPk : Bytes32) (signed : Bytes)
    (signature : Bytes64) : Except DiscoveryError Unit :=
  if !E.validKey operatorPk then .error (.ed25519 "invalid operator pubkey")
  else if E.verifyStrict operatorPk signed signature then .ok ()
  else .error (.signature "verification failed")

namespace Announcement

variable (ann : Announcement)

/-- Always in the format with further endpoints. -/
def encodeSignedPrefix : Bytes :=
  magic ++ [docTypeAnnouncement, announcementVersionV01t] ++ beBytes 8 ann.issuedAt.toNat ++
    beBytes 8 ann.expiresAt.toNat ++ ann.bridgeEd25519Pk.toList ++ ann.bridgeX25519Pk.toList ++
    beBytes 4 ann.transportCaps.toNat ++ ann.endpoint.encode ++
    [UInt8.ofNat ann.extraEndpoints.length] ++ ann.extraEndpoints.flatMap Endpoint.encode

def encode : Bytes := ann.encodeSignedPrefix ++ ann.signature.toList

/-- The endpoints beyond the first, which only the newer format has. -/
def decodeMore (version : UInt8) (buf : Bytes) (cursor : ℕ) :
    Except DiscoveryError (List Endpoint × ℕ) :=
  if version = announcementVersionV01t then
    if buf.length < cursor + 1 + sigLen then
      .error (.wire "announcement: truncated v0.1t extras_count")
    else
      let extrasCount := (buf.getD cursor 0).toNat
      if announcementMaxExtraEndpoints < extrasCount then
        .error (.wire "announcement: extras_count exceeds cap")
      else Endpoint.decodeExtras extrasCount buf (cursor + 1)
  else .ok ([], cursor)

def decode (buf : Bytes) : Except DiscoveryError Announcement :=
  if buf.length < 4 + 8 + 8 + 32 + 32 + 4 + 1 + sigLen then .error (.wire "announcement: too short")
  else if buf.take 2 ≠ magic then .error (.wire "announcement: bad magic")
  else if buf.getD 2 0 ≠ docTypeAnnouncement then .error (.wire "announcement: wrong doc_type")
  else
    let version := buf.getD 3 0
    if version ≠ announcementVersionV01 ∧ version ≠ announcementVersionV01t then
      .error (.wire "announcement: unsupported version")
    else
      let issuedAt := UInt64.ofNat (beNat ((buf.drop 4).take 8))
      let expiresAt := UInt64.ofNat (beNat ((buf.drop 12).take 8))
      if expiresAt ≤ issuedAt then .error (.wire "announcement: expires_at <= issued_at")
      else
        let transportCaps := UInt32.ofNat (beNat ((buf.drop 84).take 4))
        if transportCaps &&& ~~~ maskDefined ≠ 0 then
          .error (.wire "announcement: reserved caps bit set")
        else if transportCaps = 0 then .error (.wire "announcement: no caps advertised")
        else match Endpoint.decode (buf.drop 88) with
          | .error e => .error e
          | .ok (endpoint, endpointLen) =>
            match decodeMore version buf (88 + endpointLen) with
            | .error e => .error e
            | .ok (extraEndpoints, cursor) =>
              if buf.length ≠ cursor + sigLen then .error (.wire "announcement: length mismatch")
              else .ok ⟨issuedAt, expiresAt, vec 32 (buf.drop 20), vec 32 (buf.drop 52),
                transportCaps, endpoint, extraEndpoints, vec 64 (buf.drop cursor)⟩

def skipMore (version : UInt8) (buf : Bytes) (cursor : ℕ) : Except DiscoveryError ℕ :=
  if version = announcementVersionV01t then
    if buf.length < cursor + 1 then .error (.wire "announcement: truncated extras_count")
    else
      let extrasCount := (buf.getD cursor 0).toNat
      if announcementMaxExtraEndpoints < extrasCount then
        .error (.wire "announcement: extras_count exceeds cap")
      else Endpoint.skipExtras extrasCount buf (cursor + 1)
  else .ok cursor

def decodePrefix (buf : Bytes) : Except DiscoveryError (Announcement × ℕ) :=
  if buf.length < 89 then .error (.wire "announcement: too short for prefix")
  else match Endpoint.wireLenAt buf 88 with
    | .error e => .error e
    | .ok primaryLen =>
      match skipMore (buf.getD 3 0) buf (88 + primaryLen) with
      | .error e => .error e
      | .ok cursor =>
        if buf.length < cursor + sigLen then .error (.wire "announcement: truncated")
        else match decode (buf.take (cursor + sigLen)) with
          | .error e => .error e
          | .ok ann => .ok (ann, cursor + sigLen)

def verify (E : Ed25519) (operatorPk : Bytes32) : Except DiscoveryError Unit :=
  verifyOperator E operatorPk ann.encodeSignedPrefix ann.signature

end Announcement

inductive RevocationReason
  | compromised
  | decommissioned
  | rotating
  | expired

namespace RevocationReason

def toU8 : RevocationReason → UInt8
  | compromised => 1
  | decommissioned => 2
  | rotating => 3
  | expired => 4

def fromU8 (v : UInt8) : Option RevocationReason :=
  if v = 1 then some compromised
  else if v = 2 then some decommissioned
  else if v = 3 then some rotating
  else if v = 4 then some expired
  else none

end RevocationReason

structure Revocation where
  targetEd25519Pk : Bytes32
  reason : RevocationReason
  issuedAt : UInt64
  signature : Bytes64

def revocationLen : ℕ := 4 + 32 + 1 + 8 + sigLen

namespace Revocation

variable (rev : Revocation)

def encodeSignedPrefix : Bytes :=
  magic ++ [docTypeRevocation, revocationVersionV01] ++ rev.targetEd25519Pk.toList ++
    [rev.reason.toU8] ++ beBytes 8 rev.issuedAt.toNat

def decode (buf : Bytes) : Except DiscoveryError Revocation :=
  if buf.length ≠ revocationLen then .error (.wire "revocation: wrong length")
  else if buf.take 2 ≠ magic then .error (.wire "revocation: bad magic")
  else if buf.getD 2 0 ≠ docTypeRevocation then .error (.wire "revocation: wrong doc_type")
  else if buf.getD 3 0 ≠ revocationVersionV01 then .error (.wire "revocation: unsupported version")
  else match RevocationReason.fromU8 (buf.getD 36 0) with
    | none => .error (.wire "revocation: unknown reason")
    | some reason => .ok ⟨vec 32 (buf.drop 4), reason,
        UInt64.ofNat (beNat ((buf.drop 37).take 8)), vec 64 (buf.drop 45)⟩

def verify (E : Ed25519) (operatorPk : Bytes32) : Except DiscoveryError Unit :=
  verifyOperator E operatorPk rev.encodeSignedPrefix rev.signature

end Revocation

end Mirage.Discovery
