import Mirage.Lib.Wires
import Mirage.Transport.Shadowsocks

/-!
# The preamble wrapper

`WuStream` and `MaybeWu` of `crates/transport-shadowsocks/src/wu_stream.rs`: the carrier of an
SS-2022 stream with a printable preamble in front of each direction. The directions share no state
and stand apart; a plain carrier has neither.
-/

namespace Mirage.Transport

open Words Wires

inductive IoError
  | inner
  | writeZero (msg : String)
  | unexpectedEof (msg : String)
  | invalidData (msg : String)
  | brokenPipe (msg : String)
  deriving DecidableEq

abbrev IoPoll := Poll IoError

abbrev WriteEnd := Wire UInt8 × List WriteAnswer

abbrev ReadEnd := Wire UInt8 × List ReadAnswer

def maxStagedPayload : ℕ := 4096

structure WuOut where
  outStage : Bytes
  outOff : ℕ
  stagedPayload : ℕ
  outDone : Bool

namespace WuOut

def rest (o : WuOut) : Bytes := o.outStage.drop o.outOff

def drainStage (o : WuOut) (s : WriteEnd) : IoPoll Unit × WuOut × WriteEnd :=
  match drain (fun data s => Wire.pollWrite .inner data s.1 s.2)
    (.writeZero "wu: inner refused the preamble") o.rest.length o.rest s with
  | (.pending, k, s) => (.pending, { o with outOff := o.outOff + k }, s)
  | (.failed e, k, s) => (.failed e, { o with outOff := o.outOff + k }, s)
  | (.ready (), k, s) =>
    if o.outDone then (.ready (), { o with outOff := o.outOff + k }, s)
    else (.ready (), { o with outDone := true, outStage := [], outOff := 0 }, s)

def stagePayload (o : WuOut) (data : Bytes) : WuOut :=
  if o.stagedPayload = 0 ∧ data ≠ [] then
    { o with
      outStage := o.outStage ++ data.take maxStagedPayload
      stagedPayload := min data.length maxStagedPayload }
  else o

def pollWrite (o : WuOut) (data : Bytes) (s : WriteEnd) : IoPoll ℕ × WuOut × WriteEnd :=
  if o.outDone = false ∨ 0 < o.stagedPayload then
    match (o.stagePayload data).drainStage s with
    | (.pending, o, s) => (.pending, o, s)
    | (.failed e, o, s) => (.failed e, o, s)
    | (.ready (), o, s) =>
      let consumed := min o.stagedPayload data.length
      let o := { o with stagedPayload := 0 }
      if 0 < consumed then (.ready consumed, o, s)
      else
        let (r, s) := Wire.pollWrite .inner data s.1 s.2
        (r, o, s)
  else
    let (r, s) := Wire.pollWrite .inner data s.1 s.2
    (r, o, s)

def pollFlush (o : WuOut) (s : WriteEnd) : IoPoll Unit × WuOut × WriteEnd :=
  match o.drainStage s with
  | (.ready (), o, s) =>
    let (r, s) := Wire.pollFlush .inner s.1 s.2
    (r, o, s)
  | r => r

def pollShutdown (o : WuOut) (s : WriteEnd) : IoPoll Unit × WuOut × WriteEnd :=
  match o.drainStage s with
  | (.ready (), o, s) =>
    let (r, s) := Wire.pollShutdown .inner s.1 s.2
    (r, o, s)
  | r => r

end WuOut

abbrev CarrierOut := Option WuOut × WriteEnd

namespace CarrierOut

def pollWrite (data : Bytes) : CarrierOut → IoPoll ℕ × CarrierOut
  | (none, s) =>
    let (r, s) := Wire.pollWrite .inner data s.1 s.2
    (r, none, s)
  | (some o, s) =>
    let (r, o, s) := o.pollWrite data s
    (r, some o, s)

def pollFlush : CarrierOut → IoPoll Unit × CarrierOut
  | (none, s) =>
    let (r, s) := Wire.pollFlush .inner s.1 s.2
    (r, none, s)
  | (some o, s) =>
    let (r, o, s) := o.pollFlush s
    (r, some o, s)

def pollShutdown : CarrierOut → IoPoll Unit × CarrierOut
  | (none, s) =>
    let (r, s) := Wire.pollShutdown .inner s.1 s.2
    (r, none, s)
  | (some o, s) =>
    let (r, o, s) := o.pollShutdown s
    (r, some o, s)

end CarrierOut

inductive InState
  | needLen
  | needBody (remaining : ℕ)
  | done
  deriving DecidableEq

structure WuIn where
  inState : InState
  inBuf : Bytes

namespace WuIn

def feedBody (i : WuIn) (remaining : ℕ) (data : Bytes) : Option IoError × WuIn :=
  let take := min remaining data.length
  if (data.take take).any fun b => !isAlphabet b then
    (some (.invalidData "wu: preamble byte outside the token alphabet"),
      { i with inState := .needBody remaining })
  else if remaining - take = 0 then (none, ⟨.done, i.inBuf ++ data.drop take⟩)
  else (none, { i with inState := .needBody (remaining - take) })

def feedPreamble (i : WuIn) (data : Bytes) : Option IoError × WuIn :=
  match i.inState, data with
  | .needLen, [] => (none, i)
  | .needLen, lenByte :: data =>
    match preambleBodyLen lenByte with
    | none => (some (.invalidData "wu: bad preamble length"), i)
    | some l => i.feedBody l data
  | .needBody remaining, data => i.feedBody remaining data
  | .done, data => (none, { i with inBuf := i.inBuf ++ data })

/-- At most as many bytes of the preamble are to come. -/
def left (i : WuIn) : ℕ :=
  match i.inState with
  | .needLen => 1 + maxPre
  | .needBody remaining => remaining
  | .done => 0

def strip : ℕ → WuIn → ReadEnd → IoPoll Unit × WuIn × ReadEnd
  | 0, i, s => (.ready (), i, s)
  | fuel + 1, i, s =>
    if i.inState = .done then (.ready (), i, s)
    else match Wire.pollRead .inner 256 s.1 s.2 with
      | (.pending, s) => (.pending, i, s)
      | (.failed e, s) => (.failed e, i, s)
      | (.ready [], s) => (.failed (.unexpectedEof "wu: EOF during preamble"), i, s)
      | (.ready (x :: l), s) =>
        match i.feedPreamble (x :: l) with
        | (some e, i) => (.failed e, i, s)
        | (none, i) => strip fuel i s

def pollRead (i : WuIn) (room : ℕ) (s : ReadEnd) : IoPoll Bytes × WuIn × ReadEnd :=
  match strip i.left i s with
  | (.pending, i, s) => (.pending, i, s)
  | (.failed e, i, s) => (.failed e, i, s)
  | (.ready (), i, s) =>
    if i.inBuf = [] then
      let (r, s) := Wire.pollRead .inner room s.1 s.2
      (r, i, s)
    else (.ready (i.inBuf.take room), { i with inBuf := i.inBuf.drop room }, s)

end WuIn

abbrev CarrierIn := Option WuIn × ReadEnd

def CarrierIn.pollRead (room : ℕ) : CarrierIn → IoPoll Bytes × CarrierIn
  | (none, s) =>
    let (r, s) := Wire.pollRead .inner room s.1 s.2
    (r, none, s)
  | (some i, s) =>
    let (r, i, s) := i.pollRead room s
    (r, some i, s)

end Mirage.Transport
