import Mirage.Transport.WuStream

/-!
# The SS-2022 stream

`Ss2022Stream` of `crates/transport-shadowsocks/src/lib.rs` after the handshake: a byte stream in
chunks of a sealed length and a sealed payload. The client's reading half first reads the server's
response. `Pipe` is one direction.
-/

namespace Mirage.Transport

open Words Wires

variable (S : SsSuite)

def encryptChunk (subkey : Bytes32) (counter : UInt64) (plaintext : Bytes) : Bytes :=
  S.encrypt subkey (counterNonce counter) (beBytes 2 plaintext.length) ++
    S.encrypt subkey (counterNonce (counter + 1)) plaintext

def maxPayloadChunk : ℕ := 0x3FFF

structure SsWriter where
  writeSubkey : Bytes32
  writeCounter : UInt64
  writeBuf : Bytes
  writeOff : ℕ

namespace SsWriter

variable (b : SsWriter)

def rest : Bytes := b.writeBuf.drop b.writeOff

def drainBuf (s : CarrierOut) : IoPoll Unit × SsWriter × CarrierOut :=
  let (r, k, s) := drain CarrierOut.pollWrite (.writeZero "ss2022: inner stream accepted 0 bytes")
    b.rest.length b.rest s
  (r, { b with writeOff := b.writeOff + k }, s)

def clear : SsWriter := { b with writeBuf := [], writeOff := 0 }

def load (plaintext : Bytes) : SsWriter :=
  { b with
    writeBuf := encryptChunk S b.writeSubkey b.writeCounter plaintext
    writeOff := 0
    writeCounter := b.writeCounter + 2 }

def pollWrite (data : Bytes) (s : CarrierOut) : IoPoll ℕ × SsWriter × CarrierOut :=
  match b.drainBuf s with
  | (.pending, b, s) => (.pending, b, s)
  | (.failed e, b, s) => (.failed e, b, s)
  | (.ready (), b, s) =>
    let b := b.clear
    if data = [] then (.ready 0, b, s)
    else
      let take := min data.length maxPayloadChunk
      match (b.load S (data.take take)).drainBuf s with
      | (.failed e, b, s) => (.failed e, b, s)
      -- what could not be written stays for the next call
      | (_, b, s) =>
        (.ready take, if b.writeBuf.length ≤ b.writeOff then b.clear else b, s)

def pollFlush (s : CarrierOut) : IoPoll Unit × SsWriter × CarrierOut :=
  match b.drainBuf s with
  | (.pending, b, s) => (.pending, b, s)
  | (.failed e, b, s) => (.failed e, b, s)
  | (.ready (), b, s) =>
    let (r, s) := s.pollFlush
    (r, b.clear, s)

def pollShutdown (s : CarrierOut) : IoPoll Unit × SsWriter × CarrierOut :=
  let (r, s) := s.pollShutdown
  (r, b, s)

end SsWriter

inductive StagePhase
  | length
  | payload (len : ℕ)

inductive RespPhase
  | salt
  | length
  | header (len : ℕ)

structure Response where
  psk : Bytes32
  requestSalt : Vector UInt8 16
  respPhase : RespPhase
  respStage : Bytes

structure SsReader where
  readSubkey : Bytes32
  readCounter : UInt64
  readBuf : Bytes
  stageBuf : Bytes
  stagePhase : StagePhase
  resp : Option Response

def headerTypeResponse : UInt8 := 0x01

def validateResponseHeader (payload : Bytes) (requestSalt : Vector UInt8 16) (nowSecs : ℕ) :
    Option String :=
  if payload.length < 1 + 8 + saltLen + 2 then some "SS-2022: response header too short"
  else if payload.getD 0 0 ≠ headerTypeResponse then
    some "SS-2022: response header type mismatch"
  else if timestampToleranceSecs < absDiff nowSecs (beNat ((payload.drop 1).take 8)) then
    some "SS-2022: response timestamp outside +/-30s window"
  else if (payload.drop 9).take saltLen ≠ requestSalt.toList then
    some "SS-2022: response did not echo the correct request salt"
  else none

/-- Reads until the staged bytes are `target` many. -/
def gather (target : ℕ) (stage : Bytes) (s : CarrierIn) : IoPoll Bool × Bytes × CarrierIn :=
  let need := target - stage.length
  let (r, l, s) := fill CarrierIn.pollRead need need s
  (r, stage ++ l, s)

namespace SsReader

variable (nowSecs : ℕ) (b : SsReader)

def setResp (p : Response) (phase : RespPhase) (stage : Bytes) : SsReader :=
  { b with resp := some { p with respPhase := phase, respStage := stage } }

def readHeader (p : Response) (len : ℕ) (stage : Bytes)
    (s : CarrierIn) : IoPoll Unit × SsReader × CarrierIn :=
  match gather (len + tagLen) stage s with
  | (.pending, stage, s) => (.pending, b.setResp p (.header len) stage, s)
  | (.failed e, stage, s) => (.failed e, b.setResp p (.header len) stage, s)
  | (.ready false, stage, s) =>
    (.failed (.unexpectedEof "SS-2022: EOF during response header"),
      b.setResp p (.header len) stage, s)
  | (.ready true, stage, s) =>
    match S.decrypt b.readSubkey (counterNonce (b.readCounter + 1)) stage with
    | none =>
      (.failed (.invalidData "SS-2022: AEAD open failed on response header"),
        b.setResp p (.header len) stage, s)
    | some payload =>
      match validateResponseHeader payload p.requestSalt nowSecs with
      | some msg => (.failed (.invalidData msg), b.setResp p (.header len) stage, s)
      | none => (.ready (), { b with readCounter := b.readCounter + 2, resp := none }, s)

def readHeaderLen (p : Response) (stage : Bytes) (s : CarrierIn) :
    IoPoll Unit × SsReader × CarrierIn :=
  match gather encLenField stage s with
  | (.pending, stage, s) => (.pending, b.setResp p .length stage, s)
  | (.failed e, stage, s) => (.failed e, b.setResp p .length stage, s)
  | (.ready false, stage, s) =>
    (.failed (.unexpectedEof "SS-2022: EOF during response header"), b.setResp p .length stage, s)
  | (.ready true, stage, s) =>
    match S.decrypt b.readSubkey (counterNonce b.readCounter) stage with
    | none =>
      (.failed (.invalidData "SS-2022: AEAD open failed on response length"),
        b.setResp p .length stage, s)
    | some plain => readHeader S nowSecs b p (beNat plain) [] s

def readSalt (p : Response) (stage : Bytes) (s : CarrierIn) : IoPoll Unit × SsReader × CarrierIn :=
  match gather saltLen stage s with
  | (.pending, stage, s) => (.pending, b.setResp p .salt stage, s)
  | (.failed e, stage, s) => (.failed e, b.setResp p .salt stage, s)
  | (.ready false, stage, s) =>
    (.failed (.unexpectedEof "SS-2022: EOF during response header"), b.setResp p .salt stage, s)
  | (.ready true, stage, s) =>
    readHeaderLen S nowSecs
      { b with readSubkey := S.deriveSessionKey p.psk (vec 16 stage), readCounter := 0 } p [] s

def pollReadResponse (s : CarrierIn) : IoPoll Unit × SsReader × CarrierIn :=
  match b.resp with
  | none => (.ready (), b, s)
  | some p =>
    match p.respPhase with
    | .salt => readSalt S nowSecs b p p.respStage s
    | .length => readHeaderLen S nowSecs b p p.respStage s
    | .header len => readHeader S nowSecs b p len p.respStage s

/-- Phase 1 of a chunk. An empty answer is the end of the stream. -/
def readPayload (room len : ℕ) (stage : Bytes) (s : CarrierIn) :
    IoPoll Bytes × SsReader × CarrierIn :=
  match gather (len + tagLen) stage s with
  | (.pending, stage, s) => (.pending, { b with stageBuf := stage, stagePhase := .payload len }, s)
  | (.failed e, stage, s) =>
    (.failed e, { b with stageBuf := stage, stagePhase := .payload len }, s)
  | (.ready false, stage, s) =>
    (.ready [], { b with stageBuf := stage, stagePhase := .payload len }, s)
  | (.ready true, stage, s) =>
    match S.decrypt b.readSubkey (counterNonce (b.readCounter + 1)) stage with
    | none =>
      (.failed (.invalidData "SS-2022: AEAD open failed on payload"),
        { b with stageBuf := stage, stagePhase := .payload len }, s)
    | some payload =>
      (.ready (payload.take room),
        { b with
          readCounter := b.readCounter + 2
          stageBuf := []
          stagePhase := .length
          readBuf := payload.drop room }, s)

def readLength (room : ℕ) (stage : Bytes) (s : CarrierIn) : IoPoll Bytes × SsReader × CarrierIn :=
  match gather encLenField stage s with
  | (.pending, stage, s) => (.pending, { b with stageBuf := stage }, s)
  | (.failed e, stage, s) => (.failed e, { b with stageBuf := stage }, s)
  | (.ready false, stage, s) => (.ready [], { b with stageBuf := stage }, s)
  | (.ready true, stage, s) =>
    match S.decrypt b.readSubkey (counterNonce b.readCounter) stage with
    | none =>
      (.failed (.invalidData "SS-2022: AEAD open failed on length field"),
        { b with stageBuf := stage }, s)
    | some plain => readPayload S b room (beNat plain) [] s

def pollStagedRead (room : ℕ) (s : CarrierIn) : IoPoll Bytes × SsReader × CarrierIn :=
  match b.stagePhase with
  | .length => readLength S b room b.stageBuf s
  | .payload len => readPayload S b room len b.stageBuf s

def pollRead (room : ℕ) (s : CarrierIn) : IoPoll Bytes × SsReader × CarrierIn :=
  match pollReadResponse S nowSecs b s with
  | (.pending, b, s) => (.pending, b, s)
  | (.failed e, b, s) => (.failed e, b, s)
  | (.ready (), b, s) =>
    if b.readBuf = [] then pollStagedRead S b room s
    else (.ready (b.readBuf.take room), { b with readBuf := b.readBuf.drop room }, s)

end SsReader

/-- Writes have accepted `ranges`, reads returned `delivered`; `start` bytes are the handshake's. -/
structure Pipe where
  writer : SsWriter
  out : Option WuOut
  wire : Wire UInt8
  inn : Option WuIn
  reader : SsReader
  start : ℕ
  ranges : List Bytes
  delivered : Bytes

inductive PipeEvent
  | write (data : Bytes) (script : List WriteAnswer)
  | flush (script : List WriteAnswer)
  | shutdown (script : List WriteAnswer)
  | read (room nowSecs : ℕ) (script : List ReadAnswer)
  /-- The wire ends after `pos` bytes, though the writer has not closed it. -/
  | cut (pos : ℕ)

namespace Pipe

def accepted (p : Pipe) : Bytes := p.ranges.flatten

def read (p : Pipe) (room nowSecs : ℕ) (script : List ReadAnswer) : IoPoll Bytes :=
  (p.reader.pollRead S nowSecs room (p.inn, p.wire, script)).1

def step (p : Pipe) : PipeEvent → Pipe
  | .write data script =>
    match p.writer.pollWrite S data (p.out, p.wire, script) with
    | (.ready n, writer, out, wire, _) =>
      { p with writer, out, wire
               ranges := if n = 0 then p.ranges else p.ranges ++ [data.take n] }
    | (_, writer, out, wire, _) => { p with writer, out, wire }
  | .flush script =>
    let (_, writer, out, wire, _) := p.writer.pollFlush (p.out, p.wire, script)
    { p with writer, out, wire }
  | .shutdown script =>
    let (_, writer, out, wire, _) := p.writer.pollShutdown (p.out, p.wire, script)
    { p with writer, out, wire }
  | .read room nowSecs script =>
    match p.reader.pollRead S nowSecs room (p.inn, p.wire, script) with
    | (.ready l, reader, inn, wire, _) =>
      { p with reader, inn, wire, delivered := p.delivered ++ l }
    | (_, reader, inn, wire, _) => { p with reader, inn, wire }
  | .cut pos => { p with wire := p.wire.cutAt pos }

end Pipe

end Mirage.Transport
