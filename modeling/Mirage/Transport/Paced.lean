import Mirage.Transport.WuStream

/-!
# The paced channel

`crates/transport-reality/src/paced.rs`: a channel whose writes wait in a queue, from which a pump
fills one frame per token of a schedule, with padding up to the size of the token. The schedule is a
parameter, as `ScheduleStream` and `SizeAligner` only decide which token comes next. `Paced` is one
direction.
-/

namespace Mirage.Transport

open Words Wires

def frameHeader : ℕ := 4

inductive Framing
  | none
  | ss2022
  | webSocket (masked : Bool)

def tlsRecordOverhead : ℕ := 5 + 16

structure Carrier where
  framing : Framing
  tls : Bool

namespace Carrier

def overhead (c : Carrier) (payload : ℕ) : ℕ :=
  let framing := match c.framing with
    | .none => 0
    | .ss2022 => 2 + 16 + 16
    | .webSocket masked =>
      let mask := if masked then 4 else 0
      let ext := if payload < 126 then 0 else if payload ≤ 65535 then 2 else 8
      2 + ext + mask
  framing + if c.tls then tlsRecordOverhead else 0

def walkDown (c : Carrier) (wire : ℕ) : ℕ → ℕ
  | 0 => 0
  | payload + 1 =>
    if wire < payload + 1 + c.overhead (payload + 1) then c.walkDown wire payload else payload + 1

def payloadForWire (c : Carrier) (wire : ℕ) : ℕ := c.walkDown wire (wire - c.overhead 0)

def minToken (c : Carrier) : ℕ := frameHeader + c.overhead frameHeader

end Carrier

/-- Its time is `none` if no `Duration` or no `Instant` can be it: the pump panics on both. -/
structure EmitToken where
  t : Option ℕ
  bytes : ℕ

def frameLen (c : Carrier) (tok : EmitToken) : ℕ :=
  max (c.payloadForWire (max tok.bytes c.minToken)) frameHeader

/-- The lengths are 16 bits wide, and `as u16` drops what does not fit. -/
def buildFrame (real : Bytes) (frameLen : ℕ) : Bytes :=
  let pad := frameLen - frameHeader - real.length
  beBytes 2 (real.length % 65536) ++ real ++ beBytes 2 (pad % 65536) ++ List.replicate pad 0

def writeBound : ℕ := 256 * 1024

def isizeMax : ℕ := 2 ^ 63 - 1

structure WriteShared where
  buf : Bytes
  closed : Bool
  broken : Bool

/-- Where the pump is: at its loop's head, waiting, writing, flushing, closing, or finished. -/
inductive Pump
  | top
  | waiting (tok : EmitToken)
  | writing (rest : Bytes)
  | flushing
  | closing
  | exited

namespace Pump

/-- The next token comes, unless the queue is closed and empty. A replay drops overdue ones. -/
def next (shared : WriteShared) (tok : EmitToken) (dropped : Bool) : Pump :=
  if shared.closed ∧ shared.buf = [] then .closing
  else match tok.t with
    | none => .exited
    | some _ => if dropped then .top else .waiting tok

/-- A token fires into a frame, which panics if it is more than a vector can hold. -/
def fire (c : Carrier) (shared : WriteShared) (tok : EmitToken) : WriteShared × Pump :=
  let len := frameLen c tok
  let cap := min (len - frameHeader) 65535
  let real := shared.buf.take cap
  let shared := { shared with buf := shared.buf.drop cap }
  if isizeMax < len then (shared, .exited) else (shared, .writing (buildFrame real len))

def fail (shared : WriteShared) : WriteShared × Pump := ({ shared with broken := true }, .exited)

def poll (shared : WriteShared) (wire : Wire UInt8) (answer : WriteAnswer) :
    Pump → WriteShared × Pump × Wire UInt8
  | .writing rest =>
    match Wire.pollWrite IoError.inner rest wire [answer] with
    | (.pending, wire, _) => (shared, .writing rest, wire)
    | (.ready (n + 1), wire, _) =>
      (shared, if rest.drop (n + 1) = [] then .flushing else .writing (rest.drop (n + 1)), wire)
    -- `write_all` fails as well if nothing is taken
    | (_, wire, _) => ((fail shared).1, (fail shared).2, wire)
  | .flushing =>
    match Wire.pollFlush IoError.inner wire [answer] with
    | (.pending, wire, _) => (shared, .flushing, wire)
    | (.ready (), wire, _) => (shared, .top, wire)
    | (.failed _, wire, _) => ((fail shared).1, (fail shared).2, wire)
  | .closing =>
    match Wire.pollShutdown IoError.inner wire [answer] with
    | (.pending, wire, _) => (shared, .closing, wire)
    | (_, wire, _) => (shared, .exited, wire)
  | pump => (shared, pump, wire)

end Pump

def WriteShared.pollWrite (shared : WriteShared) (data : Bytes) : IoPoll ℕ × WriteShared :=
  if data = [] then (.ready 0, shared)
  else if shared.broken then (.failed (.brokenPipe "paced: carrier pump exited"), shared)
  else if shared.closed then (.failed (.brokenPipe "paced: write after shutdown"), shared)
  else if writeBound ≤ shared.buf.length then (.pending, shared)
  else
    let n := min data.length (writeBound - shared.buf.length)
    (.ready n, { shared with buf := shared.buf ++ data.take n })

def pollShutdown (shared : WriteShared) (pump : Pump) : IoPoll Unit × WriteShared :=
  (match pump with
    | .exited => .ready ()
    | _ => .pending,
    { shared with closed := true })

def readChunk : ℕ := 8192

inductive ReadState
  | realLen
  | payload (rem : ℕ)
  | padLen
  | pad (rem : ℕ)

/-- `hdr` is what has come of a length, `scratch` what has been read and not been parsed. -/
structure FrameReader where
  rstate : ReadState
  hdr : Bytes
  scratch : Bytes
  readEof : Bool

namespace FrameReader

def readLen (r : FrameReader) (next : ℕ → ReadState) : FrameReader :=
  let n := min (2 - r.hdr.length) r.scratch.length
  let hdr := r.hdr ++ r.scratch.take n
  let r := { r with scratch := r.scratch.drop n }
  if hdr.length = 2 then { r with hdr := [], rstate := next (beNat hdr) } else { r with hdr := hdr }

/-- Parses into `room` bytes: what goes there, and whether there is more at hand. -/
def parse : ℕ → FrameReader → ℕ → Bytes × Bool × FrameReader
  | 0, r, _ => ([], false, r)
  | fuel + 1, r, room =>
    if r.scratch = [] then ([], false, r)
    else match r.rstate with
      | .realLen => parse fuel (r.readLen .payload) room
      | .padLen => parse fuel (r.readLen .pad) room
      | .payload rem =>
        if rem = 0 then parse fuel { r with rstate := .padLen } room
        else if room = 0 then ([], true, r)
        else
          let n := min rem (min r.scratch.length room)
          let (l, full, r') := parse fuel
            { r with
              scratch := r.scratch.drop n
              rstate := if rem - n = 0 then .padLen else .payload (rem - n) } (room - n)
          (r.scratch.take n ++ l, full, r')
      | .pad rem =>
        if rem = 0 then parse fuel { r with rstate := .realLen } room
        else
          let n := min rem r.scratch.length
          parse fuel
            { r with
              scratch := r.scratch.drop n
              rstate := if rem - n = 0 then .realLen else .pad (rem - n) } room

def parseAll (r : FrameReader) (room : ℕ) : Bytes × Bool × FrameReader :=
  r.parse (2 * r.scratch.length + 1) room

/-- The loop of a read. An empty answer is the end, or the buffer has no room. -/
def pollRead (room : ℕ) : ℕ → FrameReader → ReadEnd → IoPoll Bytes × FrameReader × ReadEnd
  | 0, r, s => (.pending, r, s)
  | fuel + 1, r, s =>
    match r.parseAll room with
    | (l, full, r) =>
      if full ∨ l ≠ [] ∨ r.readEof then (.ready l, r, s)
      else match Wire.pollRead IoError.inner readChunk s.1 s.2 with
        | (.pending, s) => (.pending, r, s)
        | (.failed e, s) => (.failed e, r, s)
        | (.ready [], s) => (.ready [], { r with readEof := true }, s)
        | (.ready (x :: chunk), s) => pollRead room fuel { r with scratch := x :: chunk } s

end FrameReader

/-- `accepted` is what writes have accepted, `delivered` what reads have returned. -/
structure Paced where
  shared : WriteShared
  pump : Pump
  wire : Wire UInt8
  reader : FrameReader
  accepted : Bytes
  delivered : Bytes

inductive PacedEvent
  | write (data : Bytes)
  | shutdown
  | token (tok : EmitToken) (dropped : Bool)
  /-- The time of the token has come, or a shutdown nudges the pump. -/
  | fire
  | carrier (answer : WriteAnswer)
  | read (room : ℕ) (script : List ReadAnswer)

namespace Paced

def new : Paced where
  shared := ⟨[], false, false⟩
  pump := .top
  wire := ⟨[], 0, false, false⟩
  reader := ⟨.realLen, [], [], false⟩
  accepted := []
  delivered := []

variable (c : Carrier)

def step (p : Paced) : PacedEvent → Paced
  | .write data =>
    match p.shared.pollWrite data with
    | (.ready n, shared) => { p with shared, accepted := p.accepted ++ data.take n }
    | (_, shared) => { p with shared }
  | .shutdown => { p with shared := (pollShutdown p.shared p.pump).2 }
  | .token tok dropped =>
    match p.pump with
    | .top => { p with pump := .next p.shared tok dropped }
    | _ => p
  | .fire =>
    match p.pump with
    | .waiting tok =>
      let (shared, pump) := Pump.fire c p.shared tok
      { p with shared, pump }
    | _ => p
  | .carrier answer =>
    let (shared, pump, wire) := p.pump.poll p.shared p.wire answer
    { p with shared, pump, wire }
  | .read room script =>
    match p.reader.pollRead room (script.length + 1) (p.wire, script) with
    | (.ready l, reader, wire, _) => { p with reader, wire, delivered := p.delivered ++ l }
    | (_, reader, wire, _) => { p with reader, wire }

end Paced

end Mirage.Transport
