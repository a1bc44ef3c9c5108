import Mathlib.Data.Finset.Basic
import Mirage.Bridge.Dispatcher
import Mirage.Circuit.Bridge

/-!
# The executor of a session

`crates/bridge/src/circuit_executor.rs`: what a session keeps outside the state machine. The links
to next hops are numbered as they are opened; one that another has replaced in the map is pumped on.
The origin of an inbound cell is history.
-/

namespace Mirage.Bridge

open Circuits Words Maps

structure NextHopLink where
  outCircId : UInt32
  pumping : Bool
  sent : List Cell

structure BridgeCircuitExecutor where
  dispatcher : TcpStreamDispatcher
  /-- There is a dialer; without one nothing is extended. -/
  dialer : Bool
  links : AList fun _ : UInt32 => ℕ
  opened : List NextHopLink
  inbound : List (UInt32 × Cell)
  tokenVerify : Bool
  pendingResponders : Finset UInt32

def readCreatedConts (totalLen : ℕ) : Bytes → List Cell → Option Bytes
  | hsMsg2, [] => if hsMsg2.length < totalLen then none else some hsMsg2
  | hsMsg2, cont :: cells =>
    if hsMsg2.length < totalLen then
      if cont.command ≠ cmdCreatedCont then none
      else if totalLen < hsMsg2.length + cont.body.length then none
      else readCreatedConts totalLen (hsMsg2 ++ cont.body) cells
    else some hsMsg2

/-- The circuit id of the cells is not looked at. -/
def readCreated : List Cell → Option Bytes
  | [] => none
  | first :: cells =>
    if first.command ≠ cmdCreated then none
    else match HandshakeBody.decodePartial first.body with
      | .error _ => none
      | .ok (totalLen, chunk) => readCreatedConts totalLen chunk cells

def createFlight (outCircId : UInt32) (hsMsg1 : Bytes) : Option (List Cell) :=
  match HandshakeBody.encodeFragmented hsMsg1 maxCellPayload with
  | .error _ => none
  | .ok (first, conts) =>
    ((cmdCreate, first) :: conts.map (cmdCreateCont, ·)).mapM fun b =>
      (Cell.new outCircId b.1 b.2).toOption

namespace BridgeCircuitExecutor

/-- With `dialer` it is `with_relay`, with `tokenVerify` it is `with_token_verification`. -/
def new (config : TcpStreamDispatcherConfig) (dialer tokenVerify : Bool) : BridgeCircuitExecutor :=
  ⟨.withConfig config, dialer, ∅, [], [], tokenVerify, ∅⟩

variable (x : BridgeCircuitExecutor)

def performHandshake (inCircId : UInt32) (result : Option (HopKeys × Bytes)) :
    BridgeCircuitExecutor :=
  if result.isSome && x.tokenVerify then
    { x with pendingResponders := insert inCircId x.pendingResponders }
  else x

def verifyExtendFinish (inCircId : UInt32) (valid : Bool) : Bool × BridgeCircuitExecutor :=
  if !x.tokenVerify then (false, x)
  else if inCircId ∉ x.pendingResponders then (false, x)
  else (valid, { x with pendingResponders := x.pendingResponders.erase inCircId })

def forgetPendingResponder (inCircId : UInt32) : BridgeCircuitExecutor :=
  if x.tokenVerify then { x with pendingResponders := x.pendingResponders.erase inCircId } else x

def handleExitPayload (net : Network) (payload : Bytes) :
    Except StreamError Unit × BridgeCircuitExecutor :=
  let p := x.dispatcher.dispatch net payload
  (p.1, { x with dispatcher := p.2 })

/-- `answer` is what the next hop sends in time, if it can be dialed and written to. -/
def openNextHop (outCircId : UInt32) (hsMsg1 : Bytes) (answer : Option (List Cell)) :
    Option Bytes × BridgeCircuitExecutor :=
  if !x.dialer then (none, x)
  else match createFlight outCircId hsMsg1, answer.bind readCreated with
    | some cells, some hsMsg2 =>
      (some hsMsg2,
        { x with
          links := x.links.insert outCircId x.opened.length
          opened := x.opened ++ [⟨outCircId, true, cells⟩] })
    | _, _ => (none, x)

/-- The first part says that there is a link and that it took the cell. -/
def sendToNext (outCircId : UInt32) (cell : Cell) (sent : Bool) : Bool × BridgeCircuitExecutor :=
  match x.links.lookup outCircId with
  | none => (false, x)
  | some k =>
    if sent then
      (true, { x with opened := x.opened.modify k fun l => { l with sent := l.sent ++ [cell] } })
    else (false, x)

def forwardExtendFinish (outCircId : UInt32) (hsMsg3 : Bytes) (sent : Bool) :
    Bool × BridgeCircuitExecutor :=
  match ExtendFinishBody.encode hsMsg3 with
  | .error _ => (false, x)
  | .ok body =>
    match Cell.new outCircId cmdExtendFinish body with
    | .error _ => (false, x)
    | .ok cell => x.sendToNext outCircId cell sent

/-- The `DESTROY` is sent if the link takes it; the link is closed and its pump ends. -/
def destroyNextLink (outCircId : UInt32) (sent : Bool) : BridgeCircuitExecutor :=
  match x.links.lookup outCircId with
  | none => x
  | some k =>
    let x := match Cell.new outCircId cmdDestroy [] with
      | .error _ => x
      | .ok cell => (x.sendToNext outCircId cell sent).2
    { x with
      links := x.links.erase outCircId
      opened := x.opened.modify k fun l => { l with pumping := false } }

def arrive (k : ℕ) (cell : Cell) : BridgeCircuitExecutor :=
  match x.opened[k]? with
  | none => x
  | some l => if l.pumping then { x with inbound := x.inbound ++ [(l.outCircId, cell)] } else x

def linkClosed (k : ℕ) : BridgeCircuitExecutor :=
  { x with opened := x.opened.modify k fun l => { l with pumping := false } }

end BridgeCircuitExecutor

end Mirage.Bridge
