import Mirage.Session.Handshake

/-!
# Frames on a stream

`crates/session/src/udp_frame.rs`: a datagram goes as its length in two bytes and its body. The
stream below is the list of the chunks its reads still give before it ends.
-/

namespace Mirage.UdpFramer

open Words

def maxUdpDatagramBytes : ℕ := maxFramePlaintext - 2

def udpLengthPrefixLen : ℕ := 2

def send (datagram : Bytes) : Except SessionError Bytes :=
  if maxUdpDatagramBytes < datagram.length then .error (.state "udp datagram exceeds cap")
  else .ok (beBytes 2 datagram.length ++ datagram)

/-- `None` when the stream ends before there are `n` bytes: what was read is lost. -/
def readExact : ℕ → List Bytes → Option (Bytes × List Bytes)
  | 0, chunks => some ([], chunks)
  | _ + 1, [] => none
  | n + 1, chunk :: chunks =>
    if chunk.length < n + 1 then
      (readExact (n + 1 - chunk.length) chunks).map fun r => (chunk ++ r.1, r.2)
    else some (chunk.take (n + 1), chunk.drop (n + 1) :: chunks)

def recv (stream : List Bytes) : Except SessionError (Option Bytes) × List Bytes :=
  match readExact udpLengthPrefixLen stream with
  | none => (.ok none, [])
  | some (lengthBytes, stream) =>
    let len := beNat lengthBytes
    if maxUdpDatagramBytes < len then (.error (.state "udp recv: length over cap"), stream)
    else if len = 0 then (.ok (some []), stream)
    else
      match readExact len stream with
      | none => (.error (.state "udp recv: body read"), [])
      | some (buf, stream) => (.ok (some buf), stream)

end Mirage.UdpFramer
