import Mirage.Circuit.Onion
import Mirage.Lib.Maps

/-!
# The bridge's circuit table

`crates/circuit/src/bridge_circuit.rs`: the circuits of one connection from the previous hop, as a
state machine without I/O. A call returns its actions, or its error, and the state it leaves.
`in_circ_id` of an entry repeats the key of the map and is left out.
-/

namespace Mirage.Circuits

open Words Maps

abbrev Instant := ℕ

structure BridgePolicy where
  maxCircuits : UInt32
  maxPendingHandshakes : UInt32
  idleTtl : ℕ
  creatingTimeout : ℕ
  extendingTimeout : ℕ
  pendingExtendTimeout : ℕ

def BridgePolicy.default : BridgePolicy := ⟨64, 16, 10 * 60, 15, 30, 10⟩

inductive CircuitEntryState
  | creating
  | open
  | extending
  | destroyed
  deriving DecidableEq, Repr

inductive BridgeCircuitError
  | badState (circId : UInt32) (state : CircuitEntryState) (cmd : UInt8)
  | circuitCap (cap : UInt32)
  | pendingCap (cap : UInt32)
  | unknownCircuit (circId : UInt32)
  | wrongState (circId : UInt32) (state : CircuitEntryState)
  | outCircIdExhausted (tries : ℕ)
  | cell (e : CellError)
  | extend (e : ExtendError)
  | onion (e : OnionError)
  | noPrevKeys (circId : UInt32)
  | seqExhausted (circId : UInt32)
  | extendOverflow (circId : UInt32) (got expected : ℕ)
  | unauthorized (circId : UInt32)
  deriving DecidableEq

structure Reassembly where
  total : ℕ
  accumulated : Bytes
  startedAt : Instant
  deriving DecidableEq

abbrev PendingCreate := Reassembly

abbrev PendingCreated := Reassembly

structure PendingExtend extends Reassembly where
  nextHopPk : Bytes32
  endpoint : HopEndpoint
  deriving DecidableEq

structure CircuitEntry where
  outCircId : Option UInt32
  state : CircuitEntryState
  prevKeys : Option HopKeys
  forwardSeq : ℕ
  reverseSeq : ℕ
  stateEntered : Instant
  lastActivity : Instant
  pendingExtend : Option PendingExtend
  pendingCreate : Option PendingCreate
  pendingCreated : Option PendingCreated
  tokenVerified : Bool
  extendViaRelay : Bool
  deriving DecidableEq

def CircuitEntry.pending (e : CircuitEntry) : Bool := e.state = .creating || e.state = .extending

inductive BridgeAction
  | performHandshake (inCircId : UInt32) (hsMsg1 : Bytes)
  | sendToPrev (inCircId : UInt32) (cell : Cell)
  | openNextHop (inCircId outCircId : UInt32) (nextHopPk : Bytes32)
    (endpoint : HopEndpoint) (hsMsg1 : Bytes)
  | sendToNext (outCircId : UInt32) (cell : Cell)
  | destroyPrevLink (inCircId : UInt32)
  | destroyNextLink (outCircId : UInt32)
  | relayPayloadAtExit (inCircId : UInt32) (payload : Bytes)
  | forwardExtendFinishToNext (outCircId : UInt32) (hsMsg3 : Bytes)
  | verifyExtendFinish (inCircId : UInt32) (hsMsg3 : Bytes)
  deriving DecidableEq

/-- The pieces after one more, `none` when they are more than declared. -/
def Reassembly.push (p : Reassembly) (body : Bytes) : Option Reassembly :=
  if p.total < p.accumulated.length + body.length then none
  else some { p with accumulated := p.accumulated ++ body }

def Reassembly.complete (p : Reassembly) : Bool := p.accumulated.length = p.total

structure BridgeCircuitState where
  circuits : AList fun _ : UInt32 => CircuitEntry
  outToIn : AList fun _ : UInt32 => UInt32
  policy : BridgePolicy
  outCircIdPicker : UInt64 → UInt32
  outCircIdSeq : UInt64
  relayMode : Bool

abbrev Reply := Except BridgeCircuitError (List BridgeAction) × BridgeCircuitState

def actionsOf : Except BridgeCircuitError (List BridgeAction) → List BridgeAction
  | .ok actions => actions
  | .error _ => []

def deterministicOutCircIdPicker (seq : UInt64) : UInt32 :=
  let top := ((seq * 0x9E3779B97F4A7C15) >>> 32).toUInt32
  if top = 0 then 1 else top

def sequentialOutCircIdPicker (seq : UInt64) : UInt32 := max (seq.toUInt32 + 1) 1

namespace BridgeCircuitState

/-- `seed` is the random start of the sequence. -/
def new (policy : BridgePolicy) (seed : UInt64) : BridgeCircuitState :=
  ⟨∅, ∅, policy, deterministicOutCircIdPicker, seed, false⟩

def start (policy : BridgePolicy) (picker : UInt64 → UInt32) (seq : UInt64) (relayMode : Bool) :
    BridgeCircuitState :=
  { new policy seq with outCircIdPicker := picker, relayMode := relayMode }

variable (A : Aead) (bc : BridgeCircuitState)

def setEntry (id : UInt32) (e : CircuitEntry) : BridgeCircuitState :=
  { bc with circuits := bc.circuits.insert id e }

def circuitState (id : UInt32) : Option CircuitEntryState := (bc.circuits.lookup id).map (·.state)

def inCircIdFor (outCircId : UInt32) : Option UInt32 := bc.outToIn.lookup outCircId

def pendingCount : UInt32 := UInt32.ofNat (count CircuitEntry.pending bc.circuits)

/-- The tries of `allocate_out_circ_id`, and the sequence they leave. -/
def pickOutCircId : ℕ → UInt64 → Option UInt32 × UInt64
  | 0, seq => (none, seq)
  | tries + 1, seq =>
    let candidate := bc.outCircIdPicker (seq + 1)
    if candidate = 0 then pickOutCircId tries (seq + 1)
    else if (bc.outToIn.lookup candidate).isSome then pickOutCircId tries (seq + 1)
    else (some candidate, seq + 1)

def allocateOutCircId : Except BridgeCircuitError UInt32 × BridgeCircuitState :=
  let p := bc.pickOutCircId 256 bc.outCircIdSeq
  ((match p.1 with
    | some id => .ok id
    | none => .error (.outCircIdExhausted 256)), { bc with outCircIdSeq := p.2 })

def freshEntry (pending : Option PendingCreate) (now : Instant) : CircuitEntry where
  outCircId := none
  state := .creating
  prevKeys := none
  forwardSeq := 0
  reverseSeq := 0
  stateEntered := now
  lastActivity := now
  pendingExtend := none
  pendingCreate := pending
  pendingCreated := none
  tokenVerified := !bc.relayMode
  extendViaRelay := false

def handleCreate (circId : UInt32) (body : Bytes) (now : Instant) : Reply :=
  match bc.circuits.lookup circId with
  | some entry => (.error (.badState circId entry.state cmdCreate), bc)
  | none =>
    if bc.policy.maxCircuits ≤ UInt32.ofNat (size bc.circuits) then
      (.error (.circuitCap bc.policy.maxCircuits), bc)
    else if bc.policy.maxPendingHandshakes ≤ bc.pendingCount then
      (.error (.pendingCap bc.policy.maxPendingHandshakes), bc)
    else match HandshakeBody.decodePartial body with
      | .error e => (.error (.extend e), bc)
      | .ok (total, chunk) =>
        if chunk.length < total then
          (.ok [], bc.setEntry circId (bc.freshEntry (some ⟨total, chunk, now⟩) now))
        else
          (.ok [.performHandshake circId chunk], bc.setEntry circId (bc.freshEntry none now))

def handleCreateCont (circId : UInt32) (body : Bytes) (now : Instant) : Reply :=
  match bc.circuits.lookup circId with
  | none => (.error (.unknownCircuit circId), bc)
  | some entry =>
    if entry.state ≠ .creating then (.error (.badState circId entry.state cmdCreateCont), bc)
    else match entry.pendingCreate with
      | none => (.error (.badState circId entry.state cmdCreateCont), bc)
      | some pending =>
        match pending.push body with
        | none =>
          (.error (.extendOverflow circId (pending.accumulated.length + body.length) pending.total),
            bc.setEntry circId { entry with pendingCreate := none })
        | some pending =>
          if pending.complete then
            (.ok [.performHandshake circId pending.accumulated],
              bc.setEntry circId { entry with pendingCreate := none, lastActivity := now })
          else
            (.ok [], bc.setEntry circId
              { entry with pendingCreate := some pending, lastActivity := now })

def dispatchPendingExtend (circId : UInt32) (pending : PendingExtend) (now : Instant) : Reply :=
  match bc.allocateOutCircId with
  | (.error e, bc) => (.error e, bc)
  | (.ok outCircId, bc) =>
    match bc.circuits.lookup circId with
    | none => (.error (.unknownCircuit circId), bc)
    | some entry =>
      (.ok [.openNextHop circId outCircId pending.nextHopPk pending.endpoint pending.accumulated],
        { bc.setEntry circId
          { entry with
            state := .extending, stateEntered := now, lastActivity := now
            outCircId := some outCircId, pendingExtend := none } with
          outToIn := bc.outToIn.insert outCircId circId })

/-- `relayed` says that the `EXTEND` was peeled from a `RELAY`. -/
def handleExtend (circId : UInt32) (body : Bytes) (now : Instant) (relayed : Bool) : Reply :=
  match bc.circuits.lookup circId with
  | none => (.error (.unknownCircuit circId), bc)
  | some entry =>
    if entry.state ≠ .open then (.error (.badState circId entry.state cmdExtend), bc)
    else if bc.relayMode && !entry.tokenVerified then (.error (.unauthorized circId), bc)
    else if entry.outCircId.isSome then (.error (.badState circId entry.state cmdExtend), bc)
    else if entry.pendingExtend.isSome then (.error (.badState circId entry.state cmdExtend), bc)
    else if bc.policy.maxPendingHandshakes ≤ bc.pendingCount then
      (.error (.pendingCap bc.policy.maxPendingHandshakes), bc)
    else match ExtendHeader.decodePartial body with
      | .error e => (.error (.extend e), bc)
      | .ok (header, chunk) =>
        let entry := { entry with extendViaRelay := relayed, lastActivity := now }
        let pending : PendingExtend :=
          ⟨⟨header.totalHsMsg1Len, chunk, now⟩, header.nextHopPk, header.endpoint⟩
        if pending.complete then
          (bc.setEntry circId entry).dispatchPendingExtend circId pending now
        else (.ok [], bc.setEntry circId { entry with pendingExtend := some pending })

def handleExtendCont (circId : UInt32) (body : Bytes) (now : Instant) : Reply :=
  match bc.circuits.lookup circId with
  | none => (.error (.unknownCircuit circId), bc)
  | some entry =>
    if entry.state ≠ .open then (.error (.badState circId entry.state cmdExtendCont), bc)
    else match entry.pendingExtend with
      | none => (.error (.badState circId entry.state cmdExtendCont), bc)
      | some pending =>
        match pending.push body with
        | none =>
          (.error (.extendOverflow circId (pending.accumulated.length + body.length) pending.total),
            bc.setEntry circId { entry with pendingExtend := none })
        | some r =>
          let pending := { pending with toReassembly := r }
          if pending.complete then
            (bc.setEntry circId { entry with pendingExtend := none, lastActivity := now }
              ).dispatchPendingExtend circId pending now
          else
            (.ok [], bc.setEntry circId
              { entry with pendingExtend := some pending, lastActivity := now })

def handleExtendFinish (circId : UInt32) (body : Bytes) (now : Instant) : Reply :=
  match bc.circuits.lookup circId with
  | none => (.error (.unknownCircuit circId), bc)
  | some entry =>
    if entry.state ≠ .open then (.error (.badState circId entry.state cmdExtendFinish), bc)
    else match ExtendFinishBody.decode body with
      | .error e => (.error (.extend e), bc)
      | .ok hsMsg3 =>
        let bc' := bc.setEntry circId { entry with lastActivity := now }
        match entry.outCircId with
        | some outCircId => (.ok [.forwardExtendFinishToNext outCircId hsMsg3], bc')
        | none =>
          if bc.relayMode then (.ok [.verifyExtendFinish circId hsMsg3], bc')
          else (.error (.badState circId entry.state cmdExtendFinish), bc')

def recordTokenVerified (circId : UInt32) : Except BridgeCircuitError Unit × BridgeCircuitState :=
  match bc.circuits.lookup circId with
  | none => (.error (.unknownCircuit circId), bc)
  | some entry => (.ok (), bc.setEntry circId { entry with tokenVerified := true })

/-- The cells of a flight toward the previous hop: the first body under one command, the rest under
another. -/
def flight (circId : UInt32) (first cont : UInt8) (bodies : Bytes × List Bytes) :
    Except BridgeCircuitError (List BridgeAction) :=
  ((first, bodies.1) :: bodies.2.map (cont, ·)).mapM fun b =>
    match Cell.new circId b.1 b.2 with
    | .error e => .error (.cell e)
    | .ok cell => .ok (.sendToPrev circId cell)

/-- The sub-cells of a flight under this hop's layer, and the reverse sequence after them. -/
def sealFlight (circId : UInt32) (reverse : OnionLayer) :
    List (UInt8 × Bytes) → ℕ → Except BridgeCircuitError (List BridgeAction) × ℕ
  | [], seq => (.ok [], seq)
  | (cmd, body) :: rest, seq =>
    match RelaySubCell.encode ⟨cmd, body⟩ with
    | .error e => (.error (.extend e), seq)
    | .ok sub =>
      match onionSeal A [reverse] sub dirHopToClient 0 seq with
      | .error e => (.error (.onion e), seq)
      | .ok body =>
        match checkedSucc seq with
        | none => (.error (.seqExhausted circId), seq)
        | some seq =>
          match Cell.new circId cmdRelay body with
          | .error e => (.error (.cell e), seq)
          | .ok cell =>
            match sealFlight circId reverse rest seq with
            | (.error e, seq) => (.error e, seq)
            | (.ok actions, seq) => (.ok (.sendToPrev circId cell :: actions), seq)

/-- The room a fragment of a deep hop's `EXTENDED` has, whatever the depth of the circuit. -/
def innerMax : ℕ := maxCellPayload - (maxCircuitHops * 16 + relaySubcellHeaderLen)

def emitExtended (circId : UInt32) (hsMsg2 : Bytes) (now : Instant) : Reply :=
  match bc.circuits.lookup circId with
  | none => (.error (.unknownCircuit circId), bc)
  | some entry =>
    let entry :=
      { entry with
        state := .open, stateEntered := now, lastActivity := now, pendingCreated := none }
    let bc' := bc.setEntry circId entry
    if !entry.extendViaRelay then
      match ExtendedBody.encodeFragmented hsMsg2 maxCellPayload with
      | .error e => (.error (.extend e), bc')
      | .ok bodies => (flight circId cmdExtended cmdExtendedCont bodies, bc')
    else match entry.prevKeys with
      | none => (.error (.noPrevKeys circId), bc')
      | some keys =>
        match ExtendedBody.encodeFragmented hsMsg2 innerMax with
        | .error e => (.error (.extend e), bc')
        | .ok bodies =>
          let p := sealFlight A circId keys.reverse
            ((cmdExtended, bodies.1) :: bodies.2.map (cmdExtendedCont, ·)) entry.reverseSeq
          (p.1, bc.setEntry circId { entry with reverseSeq := p.2 })

def handleCreatedFromNext (inCircId : UInt32) (body : Bytes) (now : Instant) : Reply :=
  match HandshakeBody.decodePartial body with
  | .error e => (.error (.extend e), bc)
  | .ok (total, chunk) =>
    match bc.circuits.lookup inCircId with
    | none => (.error (.unknownCircuit inCircId), bc)
    | some entry =>
      if entry.state ≠ .extending then (.error (.wrongState inCircId entry.state), bc)
      else
        let entry := { entry with lastActivity := now }
        if chunk.length < total then
          (.ok [], bc.setEntry inCircId { entry with pendingCreated := some ⟨total, chunk, now⟩ })
        else (bc.setEntry inCircId entry).emitExtended A inCircId chunk now

def handleCreatedContFromNext (inCircId : UInt32) (body : Bytes) (now : Instant) : Reply :=
  match bc.circuits.lookup inCircId with
  | none => (.error (.unknownCircuit inCircId), bc)
  | some entry =>
    if entry.state ≠ .extending then (.error (.wrongState inCircId entry.state), bc)
    else match entry.pendingCreated with
      | none => (.error (.wrongState inCircId entry.state), bc)
      | some pending =>
        match pending.push body with
        | none =>
          (.error (.extendOverflow inCircId (pending.accumulated.length + body.length)
            pending.total), bc.setEntry inCircId { entry with pendingCreated := none })
        | some pending =>
          if pending.complete then
            (bc.setEntry inCircId { entry with pendingCreated := none, lastActivity := now }
              ).emitExtended A inCircId pending.accumulated now
          else
            (.ok [], bc.setEntry inCircId
              { entry with pendingCreated := some pending, lastActivity := now })

def destroyActions (circId : UInt32) (entry : CircuitEntry) : List BridgeAction :=
  if entry.state = .destroyed then []
  else (entry.outCircId.map BridgeAction.destroyNextLink).toList ++ [.destroyPrevLink circId]

def tombstone (circId : UInt32) (now : Instant) (actions : CircuitEntry → List BridgeAction) :
    List BridgeAction × BridgeCircuitState :=
  match bc.circuits.lookup circId with
  | none => ([], bc)
  | some entry =>
    (actions entry, bc.setEntry circId { entry with state := .destroyed, stateEntered := now })

def handleDestroyFromPrev (circId : UInt32) (now : Instant) :
    List BridgeAction × BridgeCircuitState :=
  bc.tombstone circId now (destroyActions circId)

def reapCircuit (inCircId : UInt32) (now : Instant) : List BridgeAction × BridgeCircuitState :=
  bc.tombstone inCircId now (destroyActions inCircId)

/-- Unlike the other two it leaves the link to the next hop alone. -/
def handleDestroyFromNext (inCircId : UInt32) (now : Instant) :
    List BridgeAction × BridgeCircuitState :=
  bc.tombstone inCircId now fun entry =>
    if entry.state = .destroyed then [] else [.destroyPrevLink inCircId]

/-- One layer off a `RELAY` from the previous hop: the entry as that leaves it, and the bytes. -/
def peelRelay (circId : UInt32) (body : Bytes) (now : Instant) :
    Except BridgeCircuitError (CircuitEntry × Bytes) :=
  match bc.circuits.lookup circId with
  | none => .error (.unknownCircuit circId)
  | some entry =>
    if entry.state ≠ .open then .error (.badState circId entry.state cmdRelay)
    else match entry.prevKeys with
      | none => .error (.noPrevKeys circId)
      | some keys =>
        match onionOpen A [keys.forward] body dirClientToHop 0 entry.forwardSeq with
        | .error e => .error (.onion e)
        | .ok peeled =>
          match checkedSucc entry.forwardSeq with
          | none => .error (.seqExhausted circId)
          | some seq => .ok ({ entry with forwardSeq := seq, lastActivity := now }, peeled)

/-- A peeled payload that is not a control sub-cell of this hop. -/
def forwardOrExit (circId : UInt32) (entry : CircuitEntry) (peeled : Bytes) : Reply :=
  if bc.relayMode && !entry.tokenVerified then (.error (.unauthorized circId), bc)
  else match entry.outCircId with
    | some out =>
      match Cell.new out cmdRelay peeled with
      | .error e => (.error (.cell e), bc)
      | .ok cell => (.ok [.sendToNext out cell], bc)
    | none => (.ok [.relayPayloadAtExit circId peeled], bc)

def handleRelayFromPrev (circId : UInt32) (body : Bytes) (now : Instant) : Reply :=
  match bc.peelRelay A circId body now with
  | .error e => (.error e, bc)
  | .ok (entry, peeled) =>
    let bc := bc.setEntry circId entry
    match RelaySubCell.decode peeled with
    | .error _ => bc.forwardOrExit circId entry peeled
    | .ok sub =>
      if sub.command = cmdExtend then bc.handleExtend circId sub.body now true
      else if sub.command = cmdExtendCont then bc.handleExtendCont circId sub.body now
      else if sub.command = cmdExtendFinish then bc.handleExtendFinish circId sub.body now
      else if sub.command = cmdDestroy then
        let p := bc.handleDestroyFromPrev circId now
        (.ok p.1, p.2)
      else if sub.command = cmdPadding then (.ok [], bc)
      else bc.forwardOrExit circId entry peeled

def handleRelayFromNext (inCircId : UInt32) (body : Bytes) (now : Instant) : Reply :=
  match bc.circuits.lookup inCircId with
  | none => (.error (.unknownCircuit inCircId), bc)
  | some entry =>
    if entry.state ≠ .open then (.error (.badState inCircId entry.state cmdRelay), bc)
    else match entry.prevKeys with
      | none => (.error (.noPrevKeys inCircId), bc)
      | some keys =>
        match onionSeal A [keys.reverse] body dirHopToClient 0 entry.reverseSeq with
        | .error e => (.error (.onion e), bc)
        | .ok wrapped =>
          match checkedSucc entry.reverseSeq with
          | none => (.error (.seqExhausted inCircId), bc)
          | some seq =>
            let bc' := bc.setEntry inCircId { entry with reverseSeq := seq, lastActivity := now }
            match Cell.new inCircId cmdRelay wrapped with
            | .error e => (.error (.cell e), bc')
            | .ok cell => (.ok [.sendToPrev inCircId cell], bc')

def injectExitResponse (inCircId : UInt32) (payload : Bytes) (now : Instant) : Reply :=
  bc.handleRelayFromNext A inCircId payload now

def processInboundFromPrev (cell : Cell) (now : Instant) : Reply :=
  let circId := cell.circId
  if cell.command = cmdCreate then bc.handleCreate circId cell.body now
  else if cell.command = cmdCreateCont then bc.handleCreateCont circId cell.body now
  else if cell.command = cmdExtend then bc.handleExtend circId cell.body now false
  else if cell.command = cmdExtendCont then bc.handleExtendCont circId cell.body now
  else if cell.command = cmdExtendFinish then bc.handleExtendFinish circId cell.body now
  else if cell.command = cmdDestroy then
    let p := bc.handleDestroyFromPrev circId now
    (.ok p.1, p.2)
  else if cell.command = cmdRelay then bc.handleRelayFromPrev A circId cell.body now
  else match bc.circuits.lookup circId with
    | none => (.error (.unknownCircuit circId), bc)
    | some entry => (.error (.badState circId entry.state cell.command), bc)

def processInboundFromNext (cell : Cell) (now : Instant) : Reply :=
  match bc.outToIn.lookup cell.circId with
  | none => (.error (.unknownCircuit cell.circId), bc)
  | some inCircId =>
    if cell.command = cmdCreated then bc.handleCreatedFromNext A inCircId cell.body now
    else if cell.command = cmdCreatedCont then
      bc.handleCreatedContFromNext A inCircId cell.body now
    else if cell.command = cmdDestroy then
      let p := bc.handleDestroyFromNext inCircId now
      (.ok p.1, p.2)
    else if cell.command = cmdRelay then bc.handleRelayFromNext A inCircId cell.body now
    else match bc.circuits.lookup inCircId with
      | none => (.error (.unknownCircuit inCircId), bc)
      | some entry => (.error (.badState inCircId entry.state cell.command), bc)

def recordCreateComplete (inCircId : UInt32) (prevKeys : HopKeys) (hsMsg2 : Bytes)
    (now : Instant) : Reply :=
  match bc.circuits.lookup inCircId with
  | none => (.error (.unknownCircuit inCircId), bc)
  | some entry =>
    if entry.state ≠ .creating then (.error (.wrongState inCircId entry.state), bc)
    else
      let bc' := bc.setEntry inCircId
        { entry with
          state := .open, stateEntered := now, lastActivity := now, prevKeys := some prevKeys }
      match HandshakeBody.encodeFragmented hsMsg2 maxCellPayload with
      | .error e => (.error (.extend e), bc')
      | .ok bodies => (flight inCircId cmdCreated cmdCreatedCont bodies, bc')

def recordCreateFailure (inCircId : UInt32) (now : Instant) : Reply :=
  match bc.circuits.lookup inCircId with
  | none => (.error (.unknownCircuit inCircId), bc)
  | some entry =>
    if entry.state ≠ .creating then (.error (.wrongState inCircId entry.state), bc)
    else
      (.ok [.destroyPrevLink inCircId],
        bc.setEntry inCircId { entry with state := .destroyed, stateEntered := now })

def recordExtendComplete (inCircId : UInt32) (hsMsg2 : Bytes) (now : Instant) : Reply :=
  match bc.circuits.lookup inCircId with
  | none => (.error (.unknownCircuit inCircId), bc)
  | some entry =>
    if entry.state ≠ .extending then (.error (.wrongState inCircId entry.state), bc)
    else bc.emitExtended A inCircId hsMsg2 now

def recordExtendFailure (inCircId : UInt32) (now : Instant) : Reply :=
  match bc.circuits.lookup inCircId with
  | none => (.error (.unknownCircuit inCircId), bc)
  | some entry =>
    if entry.state ≠ .extending then (.error (.wrongState inCircId entry.state), bc)
    else
      (.ok (.destroyPrevLink inCircId :: (entry.outCircId.map BridgeAction.destroyNextLink).toList),
        bc.setEntry inCircId { entry with state := .destroyed, stateEntered := now })

def stalled (now : Instant) (pending : Option Reassembly) : Bool :=
  pending.any fun p => bc.policy.pendingExtendTimeout ≤ now - p.startedAt

def expired (now : Instant) (entry : CircuitEntry) : Bool :=
  bc.stalled now (entry.pendingExtend.map (·.toReassembly)) ||
  bc.stalled now entry.pendingCreate || bc.stalled now entry.pendingCreated ||
  match entry.state with
  | .creating => bc.policy.creatingTimeout ≤ now - entry.stateEntered
  | .extending => bc.policy.extendingTimeout ≤ now - entry.stateEntered
  | .open => bc.policy.idleTtl ≤ now - entry.lastActivity
  | .destroyed => true

/-- The walk that collects the entries to reap, in the order of the map. -/
def victims (order : List UInt32) (now : Instant) : List (UInt32 × CircuitEntryState) :=
  order.filterMap fun id =>
    match bc.circuits.lookup id with
    | some entry => if bc.expired now entry then some (id, entry.state) else none
    | none => none

def removeEntry (id : UInt32) : BridgeCircuitState :=
  { bc with
    circuits := bc.circuits.erase id
    outToIn := match (bc.circuits.lookup id).bind (·.outCircId) with
      | some out => bc.outToIn.erase out
      | none => bc.outToIn }

def removeVictim (p : List BridgeAction × BridgeCircuitState)
    (victim : UInt32 × CircuitEntryState) : List BridgeAction × BridgeCircuitState :=
  let (actions, bc) := p
  let (id, state) := victim
  let out := (bc.circuits.lookup id).bind (·.outCircId)
  (if state = .destroyed then actions
    else actions ++ .destroyPrevLink id :: (out.map BridgeAction.destroyNextLink).toList,
    bc.removeEntry id)

def tick (order : List UInt32) (now : Instant) : List BridgeAction × BridgeCircuitState :=
  (bc.victims order now).foldl removeVictim ([], bc)

end BridgeCircuitState

inductive BridgeCall
  | fromPrev (cell : Cell) (now : Instant)
  | fromNext (cell : Cell) (now : Instant)
  | createComplete (inCircId : UInt32) (prevKeys : HopKeys) (hsMsg2 : Bytes) (now : Instant)
  | createFailure (inCircId : UInt32) (now : Instant)
  | extendComplete (inCircId : UInt32) (hsMsg2 : Bytes) (now : Instant)
  | extendFailure (inCircId : UInt32) (now : Instant)
  | injectExitResponse (inCircId : UInt32) (payload : Bytes) (now : Instant)
  | tokenVerified (circId : UInt32)
  | reap (inCircId : UInt32) (now : Instant)
  | tick (order : List UInt32) (now : Instant)

namespace BridgeCircuitState

def call (A : Aead) (bc : BridgeCircuitState) : BridgeCall → Reply
  | .fromPrev cell now => bc.processInboundFromPrev A cell now
  | .fromNext cell now => bc.processInboundFromNext A cell now
  | .createComplete id keys hsMsg2 now => bc.recordCreateComplete id keys hsMsg2 now
  | .createFailure id now => bc.recordCreateFailure id now
  | .extendComplete id hsMsg2 now => bc.recordExtendComplete A id hsMsg2 now
  | .extendFailure id now => bc.recordExtendFailure id now
  | .injectExitResponse id payload now => bc.injectExitResponse A id payload now
  | .tokenVerified id =>
    ((bc.recordTokenVerified id).1.map fun _ => [], (bc.recordTokenVerified id).2)
  | .reap id now => (.ok (bc.reapCircuit id now).1, (bc.reapCircuit id now).2)
  | .tick order now => (.ok (bc.tick order now).1, (bc.tick order now).2)

def step (A : Aead) (bc : BridgeCircuitState) (c : BridgeCall) : BridgeCircuitState :=
  (bc.call A c).2

def emitted (A : Aead) (bc : BridgeCircuitState) (c : BridgeCall) : List BridgeAction :=
  actionsOf (bc.call A c).1

end BridgeCircuitState

end Mirage.Circuits
