import Mathlib.Logic.Function.Basic
import Mirage.Circuit.Bridge

/-!
# A circuit over several bridges

The client's `Circuit` and the bridges it runs through, with a link that keeps its order between any
two neighbours. `ForwardChain` counts the bridges from the client and `ReverseChain` from the exit;
bridge `k` knows the circuit as `id k` toward its previous hop.
-/

namespace Mirage.Circuits

open Words Function

def controlCommand (cmd : UInt8) : Bool :=
  cmd = cmdExtend || cmd = cmdExtendCont || cmd = cmdExtendFinish || cmd = cmdDestroy ||
    cmd = cmdPadding

def parsesAs (test : UInt8 → Bool) (bytes : Bytes) : Bool :=
  match RelaySubCell.decode bytes with
  | .ok sub => test sub.command
  | .error _ => false

def isControl (bytes : Bytes) : Bool := parsesAs controlCommand bytes

def isStream (bytes : Bytes) : Bool := parsesAs (fun cmd => !controlCommand cmd) bytes

structure ForwardChain where
  client : Circuit
  bridge : ℕ → BridgeCircuitState
  queue : ℕ → List Cell
  exits : List Bytes
  sent : List Bytes

inductive ForwardEvent
  | send (payload : Bytes)
  | deliver (k : ℕ) (now : Instant)

namespace ForwardChain

variable (A : Aead) (id : ℕ → UInt32) (s : ForwardChain)

def send (payload : Bytes) : ForwardChain :=
  match s.client.relaySeal A payload with
  | (.error _, client) => { s with client := client }
  | (.ok body, client) =>
    match Cell.new (id 0) cmdRelay body with
    | .error _ => { s with client := client }
    | .ok cell =>
      { s with
        client := client
        queue := update s.queue 0 (s.queue 0 ++ [cell])
        sent := s.sent ++ [payload] }

def perform (k : ℕ) (s : ForwardChain) : BridgeAction → ForwardChain
  | .sendToNext _ cell =>
    { s with queue := update s.queue (k + 1) (s.queue (k + 1) ++ [cell]) }
  | .relayPayloadAtExit _ payload => { s with exits := s.exits ++ [payload] }
  | _ => s

def deliver (k : ℕ) (now : Instant) : ForwardChain :=
  match s.queue k with
  | [] => s
  | cell :: rest =>
    let r := (s.bridge k).processInboundFromPrev A cell now
    (actionsOf r.1).foldl (perform k)
      { s with
        bridge := update s.bridge k r.2
        queue := update s.queue k rest }

def step (s : ForwardChain) : ForwardEvent → ForwardChain
  | .send payload => s.send A id payload
  | .deliver k now => s.deliver A k now

/-- Bridge `k` holds what the client has for hop `k`, and knows the next id, `id (k + 1)`. -/
structure HopReady (bc : BridgeCircuitState) (id : ℕ → UInt32) (n k : ℕ) (hop : CircuitHop) :
    Prop where
  entry : ∃ e, bc.circuits.lookup (id k) = some e ∧ e.state = .open ∧
    e.prevKeys = some ⟨hop.forward, hop.reverse⟩ ∧ e.forwardSeq = hop.c2hSeq ∧
    (bc.relayMode = true → e.tokenVerified = true) ∧
    e.outCircId = if k + 1 < n then some (id (k + 1)) else none
  nonzero : id k ≠ 0

structure Ready : Prop where
  live : s.client.destroyed = false
  epoch : s.client.epoch = 0
  hops : ∀ k hop, s.client.hops[k]? = some hop → HopReady (s.bridge k) id s.client.hops.length k hop
  quiet : ∀ k, s.queue k = []
  exits : s.exits = []
  sent : s.sent = []

def layersLookLikeControl (A : Aead) (hops : List CircuitHop) (payload : Bytes) : Bool :=
  match Circuit.sealHops A 0 hops payload with
  | .ok bytes => isControl bytes
  | .error _ => false

/-- A stream sub-cell that fits under all layers, and that no bridge takes for control. -/
def Unmistaken (A : Aead) (s : ForwardChain) : ForwardEvent → Prop
  | .send payload => isStream payload = true ∧
      payload.length + 16 * s.client.hops.length ≤ maxCellPayload ∧
      ∀ k < s.client.hops.length, 0 < k →
        layersLookLikeControl A (s.client.hops.drop k) payload = false
  | .deliver _ _ => True

instance (A : Aead) (s : ForwardChain) : DecidablePred (Unmistaken A s) := fun _ => by
  unfold Unmistaken
  split <;> infer_instance

/-- Bridge `k` sends on the head of its link, peeled, or surfaces the next payload, and nothing
else. -/
def Delivers (A : Aead) (id : ℕ → UInt32) (s : ForwardChain) : ForwardEvent → Prop
  | .send _ => True
  | .deliver k now => ∀ cell rest, s.queue k = cell :: rest → ∃ e peeled,
      (s.bridge k).peelRelay A (id k) cell.body now = .ok (e, peeled) ∧
      (k + 1 < s.client.hops.length ∧
        ((s.bridge k).processInboundFromPrev A cell now).1 =
          .ok [.sendToNext (id (k + 1)) ⟨id (k + 1), cmdRelay, peeled⟩] ∨
      k + 1 = s.client.hops.length ∧
        ((s.bridge k).processInboundFromPrev A cell now).1 =
          .ok [.relayPayloadAtExit (id k) peeled] ∧
        s.sent[s.exits.length]? = some peeled)

end ForwardChain

inductive Stage
  /-- The bridge before the exit waits for the exit's handshake. -/
  | extending
  | flying
  | joined
  deriving DecidableEq

structure ReverseChain where
  client : Circuit
  bridge : ℕ → BridgeCircuitState
  /-- The cells bridge `k` has sent toward the client. -/
  queue : ℕ → List Cell
  received : List Bytes
  /-- The payloads of the flight, then those of the exit. -/
  replies : List Bytes
  flight : ℕ
  stage : Stage

inductive ReverseEvent
  /-- Any cell from the previous hop reaches bridge `k`. -/
  | forward (k : ℕ) (cell : Cell) (now : Instant)
  | reply (payload : Bytes) (now : Instant)
  /-- Bridge `k + 1` takes the next cell of bridge `k`. -/
  | relay (k : ℕ) (now : Instant)
  /-- The bridge before the exit learns that the exit has answered its handshake. -/
  | extended (hsMsg2 : Bytes) (now : Instant)
  | receive
  | extend (keys : HopKeys)

def flightCells (hsMsg2 : Bytes) : List RelaySubCell :=
  match ExtendedBody.encodeFragmented hsMsg2 BridgeCircuitState.innerMax with
  | .ok bodies => ⟨cmdExtended, bodies.1⟩ :: bodies.2.map (⟨cmdExtendedCont, ·⟩)
  | .error _ => []

namespace ReverseChain

variable (A : Aead) (id : ℕ → UInt32) (n : ℕ) (s : ReverseChain)

def perform (k : ℕ) (s : ReverseChain) : BridgeAction → ReverseChain
  | .sendToPrev i cell =>
    if i = id k then { s with queue := update s.queue k (s.queue k ++ [cell]) } else s
  | _ => s

def callAt (k : ℕ) (c : BridgeCall) : ReverseChain :=
  let r := (s.bridge k).call A c
  (actionsOf r.1).foldl (perform id k) { s with bridge := update s.bridge k r.2 }

def relay (k : ℕ) (now : Instant) : ReverseChain :=
  match s.queue k with
  | [] => s
  | cell :: rest =>
    { s with queue := update s.queue k rest }.callAt A id (k + 1) (.fromNext cell now)

def receive : ReverseChain :=
  match s.queue (n - 1) with
  | [] => s
  | cell :: rest =>
    let r := s.client.relayOpen A cell.body
    { s with
      client := r.2
      queue := update s.queue (n - 1) rest
      received := match r.1 with
        | .ok payload => s.received ++ [payload]
        | .error _ => s.received }

def step (s : ReverseChain) : ReverseEvent → ReverseChain
  | .forward k cell now => s.callAt A id k (.fromPrev cell now)
  | .reply payload now =>
    { s.callAt A id 0 (.injectExitResponse (id 0) payload now) with
      replies := s.replies ++ [payload] }
  | .relay k now => s.relay A id k now
  | .extended hsMsg2 now =>
    let payloads := (flightCells hsMsg2).filterMap fun sub => sub.encode.toOption
    { s.callAt A id 1 (.extendComplete (id 1) hsMsg2 now) with
      replies := payloads, flight := payloads.length, stage := .flying }
  | .receive => s.receive A n
  | .extend keys => { s with client := (s.client.extend keys).2, stage := .joined }

def HasRoom (k m : ℕ) : Prop :=
  ∀ e ∈ (s.bridge k).circuits.lookup (id k), e.reverseSeq + m < 2 ^ 64
deriving Decidable

/-- The flight comes before the data, and the client adds the exit when it has the whole flight. -/
def Follows : ReverseEvent → Prop
  | .forward k _ _ => k < n
  | .reply payload _ => s.stage ≠ .extending ∧ payload.length ≤ 3 + 2 + maxReverseRelayDataBytes
  | .relay k _ => k + 1 < n ∧ (k = 0 → s.stage ≠ .extending)
  | .extended hsMsg2 _ => s.stage = .extending ∧ hsMsg2.length ≤ 65535
  | .receive => s.stage = .joined ∨ s.received.length < s.flight
  | .extend keys => s.stage = .flying ∧ s.received.length = s.flight ∧
      ∀ e ∈ (s.bridge 0).circuits.lookup (id 0), e.prevKeys = some keys

instance : DecidablePred (Follows id n s) := fun _ => by
  unfold Follows
  split <;> infer_instance

/-- Bridge `k` holds what the client has for its last hop but `k`, and is open or waits for the
exit. -/
structure HopReady (k : ℕ) (e : CircuitEntry) (keys : HopKeys) : Prop where
  entry : (s.bridge k).circuits.lookup (id k) = some e
  prevKeys : e.prevKeys = some keys
  counter : e.reverseSeq < 2 ^ 64
  hop : ∀ hop, s.client.hops[n - 1 - k]? = some hop →
    hop.reverse = keys.reverse ∧ hop.h2cSeq = e.reverseSeq
  state : if k = 1 ∧ s.stage = .extending then e.state = .extending ∧ e.extendViaRelay = true
    else e.state = .open
  fresh : k = 0 → s.stage = .extending → e.reverseSeq = 0

/-- A built circuit, or one that lacks its exit, with nothing under way. -/
structure Ready : Prop where
  live : s.client.destroyed = false
  epoch : s.client.epoch = 0
  quiet : ∀ k, s.queue k = []
  received : s.received = []
  replies : s.replies = []
  flight : s.flight = 0
  stage : s.stage = .joined ∧ s.client.hops.length = n ∨
    s.stage = .extending ∧ 1 < n ∧ s.client.hops.length + 1 = n
  ids : ∀ k < n, id k ≠ 0
  links : ∀ k, k + 1 < n → (s.bridge (k + 1)).outToIn.lookup (id k) = some (id (k + 1))
  hops : ∀ k < n, ∃ e keys, HopReady id n s k e keys

/-- All that is sealed fits, the flight is sent, and the client opens the payloads in order. -/
def Succeeds : ReverseEvent → Prop
  | .reply payload now => ∃ cell : Cell, cell.body.length ≤ maxCellPayload ∧
      ((s.bridge 0).injectExitResponse A (id 0) payload now).1 = .ok [.sendToPrev (id 0) cell]
  | .relay k now => ∀ cell rest, s.queue k = cell :: rest →
      ∃ cell' : Cell, cell'.body.length ≤ maxCellPayload ∧
        ((s.bridge (k + 1)).processInboundFromNext A cell now).1 =
          .ok [.sendToPrev (id (k + 1)) cell']
  | .extended hsMsg2 now => ∃ actions,
      ((s.bridge 1).recordExtendComplete A (id 1) hsMsg2 now).1 = .ok actions ∧
        actions.length = (flightCells hsMsg2).length
  | .receive => ∀ cell rest, s.queue (n - 1) = cell :: rest →
      ∃ payload, (s.client.relayOpen A cell.body).1 = .ok payload ∧
        s.replies[s.received.length]? = some payload
  | .forward _ _ _ => True
  | .extend _ => True

end ReverseChain

end Mirage.Circuits
