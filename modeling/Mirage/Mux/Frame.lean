import Mirage.Lib.Words

/-!
# Mux frames and targets

`crates/mux/src/frame.rs` and `target.rs`: the frame a stream's command travels in, with the bounds
its constructor checks and its wire format, and the SOCKS5-style address in the body of a `Begin`.
-/

namespace Mirage.Mux

open Words

def maxMuxFrameLen : ℕ := 16384

def muxHeaderLen : ℕ := 2 + 4 + 1

def maxMuxFrameBody : ℕ := maxMuxFrameLen - muxHeaderLen

inductive MuxCmd
  | begin
  | beginOk
  | data
  | windowUpdate
  | endLocal
  | reset
  deriving DecidableEq, Repr

inductive MuxFrameError
  | truncated (claimed bufLen : ℕ)
  | tooLarge (n : ℕ)
  | tooSmall (n : ℕ)
  | bodyLength
  | unknownCommand (b : UInt8)
  | reservedStreamId
  deriving DecidableEq

structure MuxFrame where
  streamId : UInt32
  command : MuxCmd
  body : Bytes
  deriving DecidableEq

def MuxFrame.Bounded (f : MuxFrame) : Prop :=
  f.streamId ≠ 0 ∧ muxHeaderLen + f.body.length ≤ maxMuxFrameLen

def MuxFrame.new (streamId : UInt32) (command : MuxCmd) (body : Bytes) :
    Except MuxFrameError MuxFrame :=
  if streamId = 0 then .error .reservedStreamId
  else if maxMuxFrameLen < muxHeaderLen + body.length then
    .error (.tooLarge (muxHeaderLen + body.length))
  else .ok ⟨streamId, command, body⟩

namespace MuxCmd

def toByte : MuxCmd → UInt8
  | begin => 0x01
  | beginOk => 0x02
  | data => 0x03
  | windowUpdate => 0x04
  | endLocal => 0x05
  | reset => 0x06

def fromByte : UInt8 → Except MuxFrameError MuxCmd
  | 0x01 => .ok begin
  | 0x02 => .ok beginOk
  | 0x03 => .ok data
  | 0x04 => .ok windowUpdate
  | 0x05 => .ok endLocal
  | 0x06 => .ok reset
  | b => .error (.unknownCommand b)

end MuxCmd

namespace MuxFrame

def wireSize (f : MuxFrame) : ℕ := muxHeaderLen + f.body.length

def encode (f : MuxFrame) : Bytes :=
  beBytes 2 f.wireSize ++ beBytes 4 f.streamId.toNat ++ f.command.toByte :: f.body

/-- The fields are copied into `buf` one after another. -/
def encodeInto (f : MuxFrame) (buf : Bytes) : Except MuxFrameError (ℕ × Bytes) :=
  let total := f.wireSize
  if buf.length < total then .error (.truncated total buf.length)
  else
    let buf := beBytes 2 total ++ buf.drop 2
    let buf := buf.take 2 ++ beBytes 4 f.streamId.toNat ++ buf.drop 6
    let buf := buf.set 6 f.command.toByte
    .ok (total, buf.take muxHeaderLen ++ f.body ++ buf.drop total)

def decodeOne (buf : Bytes) : Except MuxFrameError (MuxFrame × ℕ) :=
  match buf with
  | l₀ :: l₁ :: i₀ :: i₁ :: i₂ :: i₃ :: cmd :: _ =>
    let frameLen := beNat [l₀, l₁]
    if frameLen < muxHeaderLen then .error (.tooSmall frameLen)
    else if maxMuxFrameLen < frameLen then .error (.tooLarge frameLen)
    else if buf.length < frameLen then .error (.truncated frameLen buf.length)
    else
      let streamId := UInt32.ofNat (beNat [i₀, i₁, i₂, i₃])
      if streamId = 0 then .error .reservedStreamId
      else match MuxCmd.fromByte cmd with
        | .error e => .error e
        | .ok command =>
          .ok (⟨streamId, command, (buf.take frameLen).drop muxHeaderLen⟩, frameLen)
  | _ => .error (.truncated muxHeaderLen buf.length)

/-- The inner loop of `reader_task`. As a frame has a byte, `acc.length` turns are enough. -/
def decodeLoop : ℕ → Bytes → List MuxFrame × Option Bytes
  | 0, acc => ([], some acc)
  | fuel + 1, acc =>
    match decodeOne acc with
    | .ok (frame, consumed) =>
      let r := decodeLoop fuel (acc.drop consumed)
      (frame :: r.1, r.2)
    | .error (.truncated _ _) => ([], some acc)
    | .error _ => ([], none)

/-- `reader_task` over what its reads return; an empty read is the end of the carrier. -/
def readerTask : Bytes → List Bytes → List MuxFrame × Option Bytes
  | acc, [] => ([], some acc)
  | acc, chunk :: chunks =>
    if chunk = [] then ([], some acc)
    else match decodeLoop (acc ++ chunk).length (acc ++ chunk) with
      | (frames, none) => (frames, none)
      | (frames, some acc) =>
        let r := readerTask acc chunks
        (frames ++ r.1, r.2)

end MuxFrame

inductive TargetError
  | wire (msg : String)
  | domainLength (n : ℕ)
  | domainEncoding
  | domainNotLdh
  | zeroPort
  | ipv4MappedIpv6
  deriving DecidableEq

inductive MuxTarget
  | ipv4 (addr : Vector UInt8 4) (port : UInt16)
  | ipv6 (addr : Vector UInt8 16) (port : UInt16)
  | domain (domain : String) (port : UInt16)
  deriving DecidableEq

/-- The prefix `::ffff:0:0/96`. -/
def isIpv4Mapped (addr : Vector UInt8 16) : Bool :=
  addr.toList.take 12 = List.replicate 10 0 ++ [0xff, 0xff]

def isAsciiAlphanumeric (b : UInt8) : Bool :=
  (0x30 ≤ b && b ≤ 0x39) || (0x41 ≤ b && b ≤ 0x5a) || (0x61 ≤ b && b ≤ 0x7a)

def isLdhLabel (label : Bytes) : Bool :=
  label ≠ [] && label.length ≤ 63 && label.head? ≠ some 0x2d && label.getLast? ≠ some 0x2d &&
    label.all fun b => isAsciiAlphanumeric b || b = 0x2d

/-- `is_ldh_hostname`, on the bytes of the string: a dot is one byte and part of no other
character. -/
def isLdhHostname (host : Bytes) : Bool :=
  host ≠ [] && host.length ≤ 253 && host.head? ≠ some 0x2e && host.getLast? ≠ some 0x2e &&
    (host.splitOn 0x2e).all isLdhLabel

namespace MuxTarget

def port : MuxTarget → UInt16
  | ipv4 _ p | ipv6 _ p | domain _ p => p

def encode (t : MuxTarget) : Except TargetError Bytes :=
  if t.port = 0 then .error .zeroPort
  else match t with
    | ipv4 addr port => .ok (0x01 :: (addr.toList ++ beBytes 2 port.toNat))
    | domain d port =>
      let bytes := d.toUTF8.toList
      if bytes = [] ∨ 253 < bytes.length then .error (.domainLength bytes.length)
      else if !isLdhHostname bytes then .error .domainNotLdh
      else .ok (0x03 :: UInt8.ofNat bytes.length :: (bytes ++ beBytes 2 port.toNat))
    | ipv6 addr port =>
      if isIpv4Mapped addr then .error .ipv4MappedIpv6
      else .ok (0x04 :: (addr.toList ++ beBytes 2 port.toNat))

def portAt (rest : Bytes) : Except TargetError UInt16 :=
  match rest with
  | hi :: lo :: trailing =>
    let port := UInt16.ofNat (beNat [hi, lo])
    if port = 0 then .error .zeroPort
    else if trailing ≠ [] then .error (.wire "trailing bytes after port")
    else .ok port
  | _ => .error (.wire "truncated at port")

def takeArray (n : ℕ) (buf : Bytes) : Option (Vector UInt8 n) :=
  if h : (buf.take n).toArray.size = n then some ⟨(buf.take n).toArray, h⟩ else none

def decodeIpv4 (rest : Bytes) : Except TargetError MuxTarget :=
  match takeArray 4 rest with
  | none => .error (.wire "ipv4 truncated")
  | some addr =>
    if rest.length < 4 + 2 then .error (.wire "ipv4 truncated")
    else (portAt (rest.drop 4)).map (ipv4 addr)

def decodeIpv6 (rest : Bytes) : Except TargetError MuxTarget :=
  match takeArray 16 rest with
  | none => .error (.wire "ipv6 truncated")
  | some addr =>
    if rest.length < 16 + 2 then .error (.wire "ipv6 truncated")
    else if isIpv4Mapped addr then .error .ipv4MappedIpv6
    else (portAt (rest.drop 16)).map (ipv6 addr)

def decodeDomain : Bytes → Except TargetError MuxTarget
  | [] => .error (.wire "domain truncated at len")
  | len :: rest =>
    let dlen := len.toNat
    if dlen = 0 ∨ 253 < dlen then .error (.domainLength dlen)
    else if rest.length < dlen + 2 then .error (.wire "domain truncated")
    else match String.fromUTF8? ⟨(rest.take dlen).toArray⟩ with
      | none => .error .domainEncoding
      | some d =>
        if !isLdhHostname (rest.take dlen) then .error .domainNotLdh
        else (portAt (rest.drop dlen)).map (domain d)

def decode (buf : Bytes) : Except TargetError MuxTarget :=
  match buf with
  | [] => .error (.wire "empty")
  | 0x01 :: rest => decodeIpv4 rest
  | 0x03 :: rest => decodeDomain rest
  | 0x04 :: rest => decodeIpv6 rest
  | 0x02 :: _ => .error (.wire "atyp 0x02 reserved (legacy)")
  | _ :: _ => .error (.wire "unknown atyp")

end MuxTarget

end Mirage.Mux
