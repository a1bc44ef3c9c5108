import Mirage.Session.Frames
import Mirage.Lib.Runs

/-!
# Framers at work

Three machines over the framer: `Emitter`, one framer under any calls with the frames it has sealed;
`Duplex`, two ends with the network between them and an ideal transport; and `Link`, two ends joined
by reliable FIFO channels.
-/

namespace Mirage

open Words Function

inductive FramerOp
  | send (plaintext : Bytes)
  | recv (wire : Bytes)
  | maybeAdvance (target : ℕ)
  | advanceEpoch
  | kemReseed (x25519Ss mlkemSs : Bytes32)
  | expirePrevRecv

def SessionFramer.apply (S : Suite) (f : SessionFramer) : FramerOp → SessionFramer
  | .send plaintext => (f.sendFrame S plaintext).2
  | .recv wire => (f.recvFrame S wire).2
  | .maybeAdvance target => (f.maybeAdvance S target).2
  | .advanceEpoch => (f.advanceEpoch S).2
  | .kemReseed x m => (f.kemReseed S x m).2
  | .expirePrevRecv => f.expirePrevRecv

structure Emission where
  epoch : ℕ
  seq : ℕ
  key : Bytes32
  iv : Vector UInt8 12
  nonce : Bytes
  aad : Bytes
  wire : Bytes

def SessionFramer.emission (f : SessionFramer) (wire : Bytes) : Emission :=
  { epoch := f.epoch, seq := f.send.seq, key := f.send.key, iv := f.send.iv,
    nonce := nonceBytes f.send.iv f.epoch f.send.seq,
    aad := aadBytes f.sessionBinding f.sendDirection f.epoch f.send.seq, wire := wire }

structure Emitter where
  framer : SessionFramer
  emitted : List Emission

namespace Emitter

variable (S : Suite)

def init (binding kPq : Bytes32) (role : Role) : Emitter :=
  ⟨.fromSessionKeys S binding kPq role, []⟩

def step (t : Emitter) (op : FramerOp) : Emitter :=
  { framer := t.framer.apply S op
    emitted := t.emitted ++ match op with
      | .send plaintext =>
        match (t.framer.sendFrame S plaintext).1 with
        | .ok wire => [t.framer.emission wire]
        | .error _ => []
      | _ => [] }

end Emitter

/-- What the transports have written, what `send` took, and what `recv` returned, by side. -/
structure Duplex where
  side : Role → SessionFramer
  written : Role → List Bytes
  sent : Role → List Bytes
  got : Role → List Bytes

/-- With an ideal transport: at nonce `n` it accepts the peer's `n`-th message alone. -/
def Suite.withTranscript (S : Suite) (written : Role → List Bytes) : Suite :=
  { S with
    noiseDecrypt := fun r n ct =>
      match (written r)[n]? with
      | some plaintext => if S.noiseEncrypt r n plaintext = ct then some plaintext else none
      | none => none }

namespace Duplex

variable (S : Suite)

def init (binding kPq : Bytes32) : Duplex :=
  { side := fun r => .fromSessionKeys S binding kPq r
    written := fun _ => [], sent := fun _ => [], got := fun _ => [] }

def push (log : Role → List Bytes) (r : Role) (x : Bytes) : Role → List Bytes :=
  update log r (log r ++ [x])

/-- A call on side `r`. A message counts as written once the transport's nonce has moved. -/
def step (d : Duplex) (e : Role × FramerOp) : Duplex :=
  let r := e.1
  let S := S.withTranscript d.written
  let f := (d.side r).apply S e.2
  let d' : Duplex := { d with side := update d.side r f }
  match e.2 with
  | .send plaintext =>
    { d' with
      written := if f.inner.sendNonce = (d.side r).inner.sendNonce then d.written
        else push d.written r plaintext
      sent := match ((d.side r).sendFrame S plaintext).1 with
        | .ok _ => push d.sent r plaintext
        | .error _ => d.sent }
  | .recv wire =>
    { d' with
      got := match ((d.side r).recvFrame S wire).1 with
        | .ok plaintext => push d.got r plaintext
        | .error _ => d.got }
  | _ => d'

end Duplex

structure Flight where
  wire : Bytes
  epoch : ℕ
  payload : Bytes

/-- `chan r` holds the frames in flight to `r`, `done r` those `r` has been given. -/
structure Link where
  side : Role → SessionFramer
  chan : Role → List Flight
  done : Role → List Flight

inductive LinkEvent
  | write (r : Role) (target : ℕ) (buf : Bytes)
  | deliver (r : Role)

/-- The framing of `SessionStream::poll_write`: the ratchet, then one frame; target `0` is no
ratchet. -/
def SessionFramer.pollWrite (S : Suite) (f : SessionFramer) (target : ℕ) (buf : Bytes) :
    Except SessionError (Option Bytes) × SessionFramer :=
  if buf = [] then (.ok none, f)
  else match f.maybeAdvance S target with
    | (.error e, f) => (.error e, f)
    | (.ok _, f) =>
      match f.sendFrame S (buf.take maxFramePlaintext) with
      | (.error e, f) => (.error e, f)
      | (.ok wire, f) => (.ok (some wire), f)

namespace Link

variable (S : Suite)

def init (binding kPq : Bytes32) : Link :=
  { side := fun r => .fromSessionKeys S binding kPq r, chan := fun _ => [], done := fun _ => [] }

def step (s : Link) : LinkEvent → Link
  | .write r target buf =>
    let p := (s.side r).pollWrite S target buf
    { s with
      side := update s.side r p.2
      chan := match p.1 with
        | .ok (some wire) => update s.chan r.peer
            (s.chan r.peer ++ [⟨wire, p.2.epoch, buf.take maxFramePlaintext⟩])
        | _ => s.chan }
  | .deliver r =>
    match s.chan r with
    | [] => s
    | fl :: rest =>
      { side := update s.side r ((s.side r).recvFrame S fl.wire).2
        chan := update s.chan r rest
        done := update s.done r (s.done r ++ [fl]) }

def writeEpoch (s : Link) (r : Role) (target : ℕ) : ℕ :=
  if (s.side r).Advances target then (s.side r).epoch + 1 else (s.side r).epoch

/-- The write leaves no frame in flight behind, and its own is within an epoch of the peer's. -/
def Paced (s : Link) : LinkEvent → Prop
  | .write r target buf => buf ≠ [] →
      ((s.side r).Advances target → ∀ fl ∈ s.chan r, (s.side r).epoch ≤ fl.epoch) ∧
      (s.side r.peer).epoch ≤ s.writeEpoch r target + 1
  | .deliver _ => True

instance (s : Link) : ∀ e : LinkEvent, Decidable (s.Paced e)
  | .write _ _ _ => inferInstanceAs (Decidable (_ → _))
  | .deliver _ => isTrue trivial

/-- The next frame to `r`, if there is one, is read as what was written. -/
def Delivers (s : Link) : LinkEvent → Prop
  | .write _ _ _ => True
  | .deliver r => ∀ fl ∈ (s.chan r).head?, ((s.side r).recvFrame S fl.wire).1 = .ok fl.payload

instance (s : Link) : DecidablePred (s.Delivers S) := fun _ => by
  unfold Delivers
  split <;> infer_instance

end Link

end Mirage
