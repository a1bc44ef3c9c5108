import Mirage.Circuit.Cell
import Mirage.Lib.Records

/-!
# Bodies of the handshake cells

`crates/circuit/src/extend.rs`: the bodies a bridge takes apart (`EXTEND`, `CREATE`, `CREATED`,
`EXTEND_FINISH`) and puts together (`CREATED`, `EXTENDED`), and the sub-cell inside a `RELAY`.
-/

namespace Mirage.Circuits

open Words Records

inductive ExtendError
  | wire (msg : String)
  | tooLarge (len : ℕ)
  deriving DecidableEq, Repr

def u16At (buf : Bytes) : ℕ := beNat (buf.take 2)

inductive HopEndpoint
  | ipv4 (addr : Vector UInt8 4) (port : ℕ)
  | ipv6 (addr : Vector UInt8 16) (port : ℕ)
  | onionV3 (ascii : Vector UInt8 56) (port : ℕ)
  deriving DecidableEq

namespace HopEndpoint

def isIpv4Mapped (addr : Bytes) : Bool :=
  addr.take 10 = List.replicate 10 0 && addr.getD 10 0 = 0xff && addr.getD 11 0 = 0xff

def decode (buf : Bytes) : Except ExtendError (HopEndpoint × ℕ) :=
  match buf with
  | [] => .error (.wire "endpoint empty")
  | kind :: rest =>
    if kind = 0x01 then
      if buf.length < 7 then .error (.wire "ipv4 truncated")
      else if u16At (rest.drop 4) = 0 then .error (.wire "port 0 reserved")
      else .ok (.ipv4 (vec 4 rest) (u16At (rest.drop 4)), 7)
    else if kind = 0x02 then
      if buf.length < 19 then .error (.wire "ipv6 truncated")
      else if isIpv4Mapped (rest.take 16) then
        .error (.wire "IPv4-mapped IPv6 must be encoded as IPv4 (kind 0x01)")
      else if u16At (rest.drop 16) = 0 then .error (.wire "port 0 reserved")
      else .ok (.ipv6 (vec 16 rest) (u16At (rest.drop 16)), 19)
    else if kind = 0x03 then
      .error (.wire "domain endpoint kind not allowed in EXTEND (deprecated, A14)")
    else if kind = 0x04 then
      if buf.length < 59 then .error (.wire "onion truncated")
      else if u16At (rest.drop 56) = 0 then .error (.wire "port 0 reserved")
      else .ok (.onionV3 (vec 56 rest) (u16At (rest.drop 56)), 59)
    else .error (.wire "unknown endpoint kind")

end HopEndpoint

def maxHsMsg1Len : ℕ := 2 * 1221

def maxHandshakeBodyLen : ℕ := maxHsMsg1Len

/-- A first body, which starts with the length of the message, and the bodies that continue it. -/
def encodeFragments (cap : ℕ) (msg : Bytes) (maxCellBody : ℕ) :
    Except ExtendError (Bytes × List Bytes) :=
  if cap < msg.length then .error (.tooLarge msg.length)
  else if maxCellBody < 2 then .error (.tooLarge 2)
  else
    let firstChunkLen := min (maxCellBody - 2) msg.length
    .ok (beBytes 2 msg.length ++ msg.take firstChunkLen,
      chunks maxCellBody (msg.drop firstChunkLen))

def decodeFragment (cap : ℕ) (short long excess : String) (buf : Bytes) :
    Except ExtendError (ℕ × Bytes) :=
  if buf.length < 2 then .error (.wire short)
  else if cap < u16At buf then .error (.wire long)
  else if u16At buf < (buf.drop 2).length then .error (.wire excess)
  else .ok (u16At buf, buf.drop 2)

namespace HandshakeBody

def encodeFragmented (hsMsg : Bytes) (maxCellBody : ℕ) : Except ExtendError (Bytes × List Bytes) :=
  encodeFragments maxHandshakeBodyLen hsMsg maxCellBody

def decodePartial (buf : Bytes) : Except ExtendError (ℕ × Bytes) :=
  decodeFragment maxHandshakeBodyLen "handshake body too short"
    "handshake body: total exceeds MAX_HS_MSG_LEN"
    "handshake body: first chunk longer than declared total" buf

end HandshakeBody

namespace ExtendedBody

def encodeFragmented (hsMsg2 : Bytes) (maxCellBody : ℕ) : Except ExtendError (Bytes × List Bytes) :=
  encodeFragments 65535 hsMsg2 maxCellBody

end ExtendedBody

structure ExtendHeader where
  nextHopPk : Bytes32
  endpoint : HopEndpoint
  totalHsMsg1Len : ℕ

def ExtendHeader.decodePartial (buf : Bytes) : Except ExtendError (ExtendHeader × Bytes) :=
  if buf.length < 32 then .error (.wire "extend header too short for pk")
  else match HopEndpoint.decode (buf.drop 32) with
    | .error e => .error e
    | .ok (endpoint, epLen) =>
      let cursor := 32 + epLen
      if buf.length < cursor + 2 then .error (.wire "extend header truncated at hs len")
      else
        let total := u16At (buf.drop cursor)
        let after := buf.drop (cursor + 2)
        if maxHsMsg1Len < total then
          .error (.wire "extend header: total_hs_msg1_len exceeds MAX_HS_MSG1_LEN")
        else if total < after.length then
          .error (.wire "extend header: first chunk longer than declared total")
        else .ok (⟨vec 32 buf, endpoint, total⟩, after)

def ExtendFinishBody.encode (hsMsg3 : Bytes) : Except ExtendError Bytes :=
  if 65535 < hsMsg3.length then .error (.tooLarge hsMsg3.length)
  else .ok (beBytes 2 hsMsg3.length ++ hsMsg3)

def ExtendFinishBody.decode (buf : Bytes) : Except ExtendError Bytes :=
  if buf.length < 2 then .error (.wire "extend_finish body too short")
  else if buf.length < 2 + u16At buf then .error (.wire "extend_finish body truncated")
  else .ok ((buf.drop 2).take (u16At buf))

structure RelaySubCell where
  command : UInt8
  body : Bytes

def relaySubcellHeaderLen : ℕ := 1 + 2

def relaySubcellMaxBody : ℕ := 65535

namespace RelaySubCell

def encode (sub : RelaySubCell) : Except ExtendError Bytes :=
  if relaySubcellMaxBody < sub.body.length then .error (.tooLarge sub.body.length)
  else .ok (sub.command :: beBytes 2 sub.body.length ++ sub.body)

def decode (buf : Bytes) : Except ExtendError RelaySubCell :=
  if buf.length < relaySubcellHeaderLen then .error (.wire "relay subcell header too short")
  else if buf.headD 0 = 0 then .error (.wire "relay subcell reserved command 0x00")
  else if buf.length ≠ relaySubcellHeaderLen + u16At (buf.drop 1) then
    .error (.wire "relay subcell length mismatch")
  else .ok ⟨buf.headD 0, buf.drop relaySubcellHeaderLen⟩

variable {sub : RelaySubCell} {buf : Bytes}

lemma encode_eq_ok : sub.encode = .ok buf ↔ sub.body.length ≤ relaySubcellMaxBody ∧
    buf = sub.command :: beBytes 2 sub.body.length ++ sub.body := by
  unfold encode
  split_ifs with h
  · simp [Nat.not_le.2 h]
  · simp [Nat.not_lt.1 h, eq_comm]

lemma decode_encode (hc : sub.command ≠ 0) (h : sub.encode = .ok buf) : decode buf = .ok sub := by
  obtain ⟨hle, rfl⟩ := encode_eq_ok.1 h
  have hl : beNat (beBytes 2 sub.body.length) = sub.body.length :=
    beNat_beBytes (Nat.lt_of_le_of_lt hle (by decide))
  have hat : u16At ((sub.command :: beBytes 2 sub.body.length ++ sub.body).drop 1) =
      sub.body.length := by
    rw [u16At, List.cons_append, List.drop_one, List.tail_cons, List.take_left' (by simp), hl]
  have ht : (sub.command :: beBytes 2 sub.body.length ++ sub.body).length =
      relaySubcellHeaderLen + sub.body.length := by
    simp [relaySubcellHeaderLen]
    omega
  unfold decode
  rw [hat, ht, if_neg (by simp), if_neg (by simpa using hc), if_neg (by simp)]
  simp [relaySubcellHeaderLen, beBytes]

end RelaySubCell

/-!
## Bodies of the stream sub-cells

`crates/circuit/src/stream.rs`: what a `BEGIN`, `DATA` or `END` sub-cell carries. A host name is its
bytes.
-/

abbrev StreamId := UInt16

inductive StreamBodyError
  | body (msg : String)

def streamIdAt (buf : Bytes) : StreamId := UInt16.ofNat (u16At buf)

structure BeginBody where
  streamId : StreamId
  host : Bytes
  port : UInt16
  deriving DecidableEq

structure DataBody where
  streamId : StreamId
  bytes : Bytes
  deriving DecidableEq

structure EndBody where
  streamId : StreamId
  deriving DecidableEq

def BeginBody.decode (buf : Bytes) : Except StreamBodyError BeginBody :=
  if buf.length < 3 then .error (.body "BEGIN body too short")
  else
    let hostLen := (buf.getD 2 0).toNat
    let host := (buf.drop 3).take hostLen
    let port := UInt16.ofNat (u16At (buf.drop (3 + hostLen)))
    if buf.length < 3 + hostLen + 2 then .error (.body "BEGIN body truncated")
    else if !isUtf8 host then .error (.body "host not utf-8")
    else if port = 0 then .error (.body "port 0 reserved")
    else .ok ⟨streamIdAt buf, host, port⟩

def DataBody.encode (b : DataBody) : Bytes := beBytes 2 b.streamId.toNat ++ b.bytes

def DataBody.decode (buf : Bytes) : Except StreamBodyError DataBody :=
  if buf.length < 2 then .error (.body "DATA body too short")
  else .ok ⟨streamIdAt buf, buf.drop 2⟩

def EndBody.encode (b : EndBody) : Bytes := beBytes 2 b.streamId.toNat

def EndBody.decode (buf : Bytes) : Except StreamBodyError EndBody :=
  if buf.length ≠ 2 then .error (.body "END body wrong length")
  else .ok ⟨streamIdAt buf⟩

lemma streamIdAt_append (id : StreamId) (rest : Bytes) :
    streamIdAt (beBytes 2 id.toNat ++ rest) = id := by
  have hlt : id.toNat < 256 ^ 2 := id.toNat_lt
  rw [streamIdAt, u16At, List.take_left' (by simp), beNat_beBytes hlt, UInt16.ofNat_toNat]

lemma DataBody.decode_encode (b : DataBody) : DataBody.decode b.encode = .ok b := by
  have hl : ¬ b.encode.length < 2 := by
    rw [DataBody.encode, List.length_append, length_beBytes]
    omega
  unfold DataBody.decode
  rw [if_neg hl, DataBody.encode, streamIdAt_append, List.drop_left' (by simp)]

lemma EndBody.decode_encode (b : EndBody) : EndBody.decode b.encode = .ok b := by
  have hid := streamIdAt_append b.streamId []
  rw [List.append_nil] at hid
  unfold EndBody.decode EndBody.encode
  rw [if_neg (by simp), hid]

end Mirage.Circuits
