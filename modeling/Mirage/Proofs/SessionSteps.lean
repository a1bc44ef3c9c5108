import Mirage.Bridge.SessionTask
import Mirage.Proofs.BridgeActions
import Mirage.Proofs.ExitPumps

/-!
# What one step of a session does

A step is an arm that is taken, the next task of one, or something around the loop (`Stepped`).
-/

namespace Mirage.Bridge

open Circuits Words Maps Runs BridgeCircuitState BridgeCircuitExecutor List SessionTask

namespace BridgeCircuitExecutor

/-- What every operation keeps: the waiting cells, the mode, and that no link is for id zero. -/
structure Keeps (x x' : BridgeCircuitExecutor) : Prop where
  inbound : x'.inbound = x.inbound
  tokenVerify : x'.tokenVerify = x.tokenVerify
  outs : (∀ l ∈ x.opened, l.outCircId ≠ 0) → ∀ l ∈ x'.opened, l.outCircId ≠ 0

variable {x : BridgeCircuitExecutor}

lemma Keeps.refl : Keeps x x := ⟨rfl, rfl, fun h => h⟩

lemma Keeps.trans {x' x'' : BridgeCircuitExecutor} (h : Keeps x x') (h' : Keeps x' x'') :
    Keeps x x'' :=
  ⟨h'.inbound.trans h.inbound, h'.tokenVerify.trans h.tokenVerify, fun hz => h'.outs (h.outs hz)⟩

lemma outs_modify {links : List NextHopLink} {k : ℕ} {f : NextHopLink → NextHopLink}
    (h : ∀ l ∈ links, l.outCircId ≠ 0) (hf : ∀ l, (f l).outCircId = l.outCircId) :
    ∀ l ∈ links.modify k f, l.outCircId ≠ 0 := by
  intro l hl
  obtain ⟨j, hj⟩ := mem_iff_getElem?.1 hl
  rw [getElem?_modify] at hj
  obtain ⟨l₀, hl₀, rfl⟩ := Option.map_eq_some_iff.1 hj
  have hne := h l₀ (mem_of_getElem? hl₀)
  split_ifs
  · rwa [hf]
  · exact hne

/-- As `Keeps`, and only `new` gets a responder. -/
structure Operates (new : Option UInt32) (x x' : BridgeCircuitExecutor) : Prop
    extends Keeps x x' where
  dispatcher : x'.dispatcher = x.dispatcher
  responders : ∀ c ∈ x'.pendingResponders,
    c ∈ x.pendingResponders ∨ new = some c ∧ x.tokenVerify = true

lemma Operates.refl : Operates none x x :=
  ⟨.refl, rfl, fun _ => .inl⟩

lemma Operates.of_links {links : AList fun _ : UInt32 => ℕ} {opened : List NextHopLink}
    (h : (∀ l ∈ x.opened, l.outCircId ≠ 0) → ∀ l ∈ opened, l.outCircId ≠ 0) :
    Operates none x { x with links := links, opened := opened } :=
  ⟨⟨rfl, rfl, h⟩, rfl, fun _ => .inl⟩

variable (c : UInt32)

lemma Operates.erase :
    Operates none x { x with pendingResponders := x.pendingResponders.erase c } :=
  ⟨⟨rfl, rfl, fun h => h⟩, rfl, fun _ hc => .inl (Finset.mem_of_mem_erase hc)⟩

lemma performHandshake_operates (result : Option (HopKeys × Bytes)) :
    Operates (some c) x (x.performHandshake c result) := by
  unfold performHandshake
  split_ifs with hc
  · simp only [Bool.and_eq_true] at hc
    refine ⟨⟨rfl, rfl, fun h => h⟩, rfl, fun i hi => ?_⟩
    rcases Finset.mem_insert.1 hi with rfl | hi
    · exact .inr ⟨rfl, hc.2⟩
    · exact .inl hi
  · exact ⟨.refl, rfl, fun _ => .inl⟩

lemma verifyExtendFinish_operates (valid : Bool) :
    Operates none x (x.verifyExtendFinish c valid).2 := by
  unfold verifyExtendFinish
  split_ifs
  · exact .refl
  · exact .erase c
  · exact .refl

lemma forgetPendingResponder_operates : Operates none x (x.forgetPendingResponder c) := by
  unfold forgetPendingResponder
  split_ifs
  · exact .erase c
  · exact .refl

variable (out : UInt32)

lemma sendToNext_operates (cell : Cell) (sent : Bool) :
    Operates none x (x.sendToNext out cell sent).2 := by
  unfold sendToNext
  split
  · exact .refl
  · split_ifs
    · exact .of_links fun h => outs_modify h fun _ => rfl
    · exact .refl

lemma forwardExtendFinish_operates (msg : Bytes) (sent : Bool) :
    Operates none x (x.forwardExtendFinish out msg sent).2 := by
  unfold forwardExtendFinish
  split
  · exact .refl
  · split
    · exact .refl
    · exact sendToNext_operates out _ sent

lemma destroyNextLink_operates (sent : Bool) : Operates none x (x.destroyNextLink out sent) := by
  unfold destroyNextLink
  split
  · exact .refl
  split
  · exact .of_links fun h => outs_modify h fun _ => rfl
  rename_i cell _
  have hs := sendToNext_operates (x := x) out cell sent
  exact ⟨hs.toKeeps.trans ⟨rfl, rfl, fun h => outs_modify h fun _ => rfl⟩,
    hs.dispatcher, hs.responders⟩

lemma createFlight_ne_zero {out : UInt32} {msg : Bytes} {cells : List Cell}
    (h : createFlight out msg = some cells) : out ≠ 0 := by
  rintro rfl
  unfold createFlight at h
  split at h
  · cases h
  · simp [Cell.new, Except.toOption] at h

lemma openNextHop_operates (msg : Bytes) (answer : Option (List Cell)) :
    Operates none x (x.openNextHop out msg answer).2 := by
  unfold openNextHop
  split_ifs
  · exact .refl
  split
  · rename_i cells msg2 hf _
    refine .of_links fun h l hl => ?_
    rcases mem_append.1 hl with hl | hl
    · exact h l hl
    · obtain rfl := mem_singleton.1 hl
      exact createFlight_ne_zero hf
  · exact .refl

@[simp]
lemma arrive_dispatcher (k : ℕ) (cell : Cell) : (x.arrive k cell).dispatcher = x.dispatcher := by
  unfold arrive
  split
  · rfl
  · split_ifs <;> rfl

end BridgeCircuitExecutor

/-- The task does not come back to the state machine. -/
def Task.Light : Task → Prop
  | .act a => a.Passive
  | _ => True

variable {c : BridgeCall}

namespace SessionTask

variable {A : Aead} {S : Ed25519} {t t' : SessionTask}

/-- What a step of the loop is. -/
inductive Stepped (A : Aead) (S : Ed25519) (t : SessionTask) : SessionEvent → SessionTask → Prop
  | stay (e : SessionEvent) : Stepped A S t e t
  | arm (a : Arm) (hres : t.result = none) (hidle : t.agenda = []) :
    Stepped A S t (.arm a) (t.takeArm A a)
  | next (o : Outcome) {task : Task} {rest : List Task} (hres : t.result = none)
    (hagenda : t.agenda = task :: rest) :
    Stepped A S t (.next o) (perform A S { t with agenda := rest } o task)
  | around (e : SessionEvent) (hres : t.result = none) : Stepped A S t e (t.around S e)

/-- A step takes an arm, does the next task, or is around the loop. -/
lemma stepped (t : SessionTask) (e : SessionEvent) : Stepped A S t e (t.step A S e) := by
  unfold step
  by_cases hr : t.result.isSome = true
  · rw [if_pos hr]
    exact .stay e
  rw [if_neg hr]
  have hn : t.result = none := by simpa using hr
  cases e with
  | arm a =>
    split_ifs with hi
    · exact .arm a hn hi
    · exact .stay _
  | next o =>
    dsimp only
    unfold next
    split
    · exact .stay _
    · rename_i ha
      exact .next o hn ha
  | exitPump | arrive | linkClosed | other => exact .around _ hn

lemma result_of_step {e : SessionEvent} (h : (t.step A S e).result = none) : t.result = none := by
  unfold step at h
  by_cases hr : t.result.isSome = true
  · rw [if_pos hr] at h
    exact h
  · simpa using hr

def Proper : BridgeCall → Prop
  | .fromPrev cell _ => cell.circId ≠ 0
  | _ => True

/-- The state machine has got calls, and nothing else. -/
def Calls (A : Aead) (t t' : SessionTask) : Prop :=
  ∃ calls : List BridgeCall, (∀ c ∈ calls, Proper c) ∧
    t'.state = run (BridgeCircuitState.step A) t.state calls

lemma Calls.none (h : t'.state = t.state) : Calls A t t' := ⟨[], by simp, h⟩

lemma Calls.one (hc : Proper c) (h : t'.state = t.state.step A c) : Calls A t t' :=
  ⟨[c], by simpa using hc, h⟩

lemma Calls.trans {t'' : SessionTask} (h : Calls A t t') (h' : Calls A t' t'') : Calls A t t'' := by
  obtain ⟨cs, hcs, heq⟩ := h
  obtain ⟨cs', hc', he'⟩ := h'
  refine ⟨cs ++ cs', fun c hc => ?_, ?_⟩
  · exact (mem_append.1 hc).elim (hcs c) (hc' c)
  · rw [run_append, ← heq, he']

lemma Calls.inv {I : BridgeCircuitState → Prop} (hc : Calls A t t')
    (hI : ∀ bc c, I bc → Proper c → I (bc.step A c)) (h : I t.state) : I t'.state := by
  obtain ⟨calls, hpr, heq⟩ := hc
  rw [heq]
  exact inv_run (fun bc c hbc hp => hI bc c hbc hp.1) _ calls h
    (along_and_of_forall hpr (along_true _ calls))

lemma record_state (reply : Reply) : (t.record reply).state = reply.2 := by
  obtain ⟨acts | e, bc⟩ := reply <;> rfl

lemma record_streamToCirc (reply : Reply) : (t.record reply).streamToCirc = t.streamToCirc := by
  obtain ⟨acts | e, bc⟩ := reply <;> rfl

lemma reapCircuit_executor (c : UInt32) (now : Instant) :
    (t.reapCircuit A c now).executor = t.executor.forgetPendingResponder c := by
  unfold reapCircuit
  split <;> rfl

lemma reapCircuitByOutId_executor (out : UInt32) (now : Instant) :
    (t.reapCircuitByOutId A out now).executor = t.executor := by
  unfold reapCircuitByOutId
  cases t.state.inCircIdFor out with
  | none | some i =>
    dsimp only
    split <;> rfl

lemma trackStream_eq_with (t : SessionTask) (c : UInt32) (sub : RelaySubCell) :
    ∃ m, t.trackStream c sub = { t with streamToCirc := m } := by
  unfold trackStream
  split_ifs
  · split <;> exact ⟨_, rfl⟩
  · split <;> exact ⟨_, rfl⟩
  · exact ⟨_, rfl⟩

lemma trackStream_state (c : UInt32) (sub : RelaySubCell) :
    (t.trackStream c sub).state = t.state := by
  obtain ⟨m, hm⟩ := t.trackStream_eq_with c sub
  rw [hm]

lemma handleExitEvent_state (now : Instant) : (t.handleExitEvent now).state = t.state := by
  unfold handleExitEvent
  split
  · rfl
  dsimp only
  split
  · rfl
  · split <;> rfl

lemma around_state (e : SessionEvent) : (t.around S e).state = t.state := by
  cases e with
  | other c =>
    change (if _ then t else _ : SessionTask).state = t.state
    split_ifs <;> rfl
  | arm | next | exitPump | arrive | linkClosed => rfl

lemma handleCell_executor (cell : Cell) (now : Instant) :
    (t.handleCell A cell now).executor = t.executor := by
  unfold handleCell
  split <;> rfl

def AllLight (t : SessionTask) : Prop := ∀ task ∈ t.agenda, task.Light

/-- What is left to do is light, or it is one action that its circuit is ready for. -/
def Orderly (t : SessionTask) : Prop :=
  t.AllLight ∨ ∃ a, t.agenda = [.act a] ∧ t.state.Ready a

variable (result : Except DaemonError Unit)

lemma AllLight.finish : (t.finish result).AllLight :=
  fun _ h => absurd h not_mem_nil

lemma AllLight.executeActions {acts : List BridgeAction} (h : t.AllLight)
    (hac : ∀ a ∈ acts, a.Passive) : (t.executeActions acts).AllLight := by
  intro task ht
  rcases mem_append.1 ht with hn | ho
  · obtain ⟨a, ha, rfl⟩ := mem_map.1 hn
    exact hac a ha
  · exact h task ho

/-- Calls were made, and no task was added that comes back. -/
structure Worked (A : Aead) (t t' : SessionTask) : Prop where
  calls : Calls A t t'
  keeps : t.executor.Keeps t'.executor
  light : t.AllLight → t'.AllLight

lemma Worked.refl : Worked A t t := ⟨.none rfl, .refl, fun h => h⟩

lemma Worked.of_same {t₀ : SessionTask} (h : Worked A t₀ t') (hs : t₀.state = t.state)
    (hk : t.executor.Keeps t₀.executor) (ha : t₀.agenda = t.agenda) : Worked A t t' := by
  refine ⟨.trans (.none hs) h.calls, hk.trans h.keeps, fun hl => h.light ?_⟩
  unfold AllLight
  rwa [ha]

lemma Worked.finish : Worked A t (t.finish result) :=
  ⟨.none rfl, .refl, fun _ => .finish result⟩

lemma Worked.of_executor {new : Option UInt32} {x : BridgeCircuitExecutor}
    (hx : t.executor.Operates new x) (h : Worked A { t with executor := x } t') : Worked A t t' :=
  h.of_same rfl hx.toKeeps rfl

lemma Worked.call (hc : Proper c) (ha : ∀ a ∈ actionsOf (t.state.call A c).1, a.Passive) :
    Worked A t ({ t with state := (t.state.call A c).2 }.executeActions
      (actionsOf (t.state.call A c).1)) :=
  ⟨.one hc rfl, .refl, fun h => .executeActions h ha⟩

lemma Worked.record (hc : Proper c) (ha : ∀ a ∈ actionsOf (t.state.call A c).1, a.Passive) :
    Worked A t (t.record (t.state.call A c)) := by
  have hs : (t.record (t.state.call A c)).state = t.state.step A c := record_state _
  generalize t.state.call A c = reply at ha hs
  obtain ⟨e | acts, bc⟩ := reply
  · exact ⟨.one hc hs, .refl, fun _ => .finish _⟩
  · exact ⟨.one hc hs, .refl, fun h => .executeActions h ha⟩

lemma Worked.reapCircuit (c : UInt32) (now : Instant) : Worked A t (t.reapCircuit A c now) := by
  have hr : Worked A
      { t.purgeStreams c with executor := t.executor.forgetPendingResponder c }
      (t.reapCircuit A c now) := by
    unfold SessionTask.reapCircuit
    split
    · exact .finish _
    rename_i cell hn
    refine .call (c := .fromPrev cell now) (Cell.valid_of_new hn).circId_ne ?_
    obtain ⟨-, -, -, rfl⟩ := Cell.new_eq_ok.1 hn
    exact handleDestroyFromPrev_passive
  exact hr.of_same rfl (forgetPendingResponder_operates c).toKeeps rfl

lemma Worked.reapCircuitByOutId (out : UInt32) (now : Instant) :
    Worked A t (t.reapCircuitByOutId A out now) := by
  unfold SessionTask.reapCircuitByOutId
  rcases Cell.new out cmdDestroy [] with e | cell
  · cases t.state.inCircIdFor out with
    | none => exact .finish _
    | some i => exact .of_same (.finish _) rfl .refl rfl
  · have hc (t₀) := Worked.call (t := t₀) (c := .fromNext cell now) trivial
      (processInboundFromNext_passive (A := A))
    cases t.state.inCircIdFor out with
    | none => exact hc t
    | some i => exact .of_same (hc _) rfl .refl rfl

lemma Worked.sendRendezvousSub (c : UInt32) (cmd : UInt8) (body : Bytes) (now : Instant) :
    Worked A t (t.sendRendezvousSub A c cmd body now) := by
  unfold SessionTask.sendRendezvousSub
  split
  · exact .refl
  · rename_i payload _
    refine .call (c := .injectExitResponse c payload now) trivial fun a ha => ?_
    exact ((handleRelayFromNext_does).answers rfl a ha).passive

lemma Worked.of_rendezvous {router : Option RendezvousRouter} {circuits : List UInt32}
    (h : Worked A { t with rendezvous := router, rvCircuits := circuits } t') : Worked A t t' :=
  h.of_same rfl .refl rfl

lemma Worked.handleRendezvous (c : UInt32) (cmd : UInt8) (body : Bytes) (now : Instant) :
    Worked A t (t.handleRendezvous A S c cmd body now) := by
  unfold SessionTask.handleRendezvous
  split
  · exact .refl
  dsimp only
  split_ifs
  · split
    · exact .of_rendezvous (.sendRendezvousSub c _ _ now)
    · exact .of_rendezvous .refl
  · split
    · exact .of_rendezvous (.sendRendezvousSub c _ _ now)
    · exact .of_rendezvous .refl
  · exact .refl
  · exact .of_rendezvous .refl
  · split <;> exact .of_rendezvous .refl
  · exact .refl

lemma Worked.exitPayload (c : UInt32) (payload : Bytes) (o : Outcome) :
    Worked A t (t.exitPayload A c payload o) := by
  unfold SessionTask.exitPayload
  dsimp only
  split
  · exact .of_same .refl rfl ⟨rfl, rfl, fun h => h⟩ rfl
  · exact .of_same (.reapCircuit c o.now) rfl ⟨rfl, rfl, fun h => h⟩ rfl

lemma Worked.relayPayloadAtExit (c : UInt32) (payload : Bytes) (o : Outcome) :
    Worked A t (t.relayPayloadAtExit A S c payload o) := by
  unfold SessionTask.relayPayloadAtExit
  split
  · exact .exitPayload c payload o
  rename_i sub _
  split_ifs
  · exact .handleRendezvous c _ _ o.now
  · exact .of_rendezvous .refl
  · obtain ⟨m, hm⟩ := t.trackStream_eq_with c sub
    rw [hm]
    exact .of_same (.exitPayload c payload o) rfl .refl rfl

/-- The call reports what an action has led to. -/
def Reports : BridgeCall → Prop
  | .createComplete _ _ _ _ => True
  | .extendComplete _ _ _ => True
  | .tokenVerified _ => True
  | _ => False

lemma Reports.proper (h : Reports c) : Proper c := by
  cases c with
  | fromPrev => exact h.elim
  | fromNext | createComplete | createFailure | extendComplete | extendFailure
  | injectExitResponse | tokenVerified | reap | tick => trivial

lemma Reports.passive {bc : BridgeCircuitState} (h : Reports c) :
    ∀ a ∈ actionsOf (bc.call A c).1, a.Passive := by
  cases c with
  | createComplete id keys msg now =>
    intro a ha
    exact ((recordCreateComplete_does keys msg).answers rfl a ha).passive
  | extendComplete id msg now =>
    intro a ha
    exact ((recordExtendComplete_does msg).answers rfl a ha).passive
  | tokenVerified id =>
    intro a ha
    cases hr : (bc.recordTokenVerified id).1 with
    | error e | ok u => simp [call, hr, Except.map, actionsOf] at ha
  | fromPrev | fromNext | createFailure | extendFailure | injectExitResponse | reap | tick =>
    exact h.elim

/-- The payload is for the exit, and not for the rendezvous or the partner of a circuit. -/
def exits (t : SessionTask) (c : UInt32) (payload : Bytes) : Bool :=
  match RelaySubCell.decode payload with
  | .error _ => true
  | .ok sub => !(t.rendezvous.isSome && isRendezvousCmd sub.command) && c ∉ t.rvCircuits

/-- The executor fails at the action, and that is for the circuit `c`. -/
def fails (t : SessionTask) (o : Outcome) (c : UInt32) : BridgeAction → Bool
  | .performHandshake i _ => i = c && o.handshake.isNone
  | .openNextHop i out _ _ msg => i = c && (t.executor.openNextHop out msg o.answer).1.isNone
  | .sendToNext out cell =>
    t.state.inCircIdFor out = some c && !(t.executor.sendToNext out cell o.sent).1
  | .forwardExtendFinishToNext out msg =>
    t.state.inCircIdFor out = some c && !(t.executor.forwardExtendFinish out msg o.sent).1
  | .verifyExtendFinish i _ => i = c && !(t.executor.verifyExtendFinish i o.validToken).1
  | .relayPayloadAtExit i payload =>
    i = c && t.exits i payload && !(t.executor.handleExitPayload o.net payload).1.isOk
  | .sendToPrev _ _ | .destroyPrevLink _ | .destroyNextLink _ => false

/-- What the executor makes of an action. -/
inductive Executed (A : Aead) (S : Ed25519) (t : SessionTask) (o : Outcome) :
    BridgeAction → SessionTask → Prop
  | wrote (c : UInt32) (cell : Cell) :
    Executed A S t o (.sendToPrev c cell) { t with written := t.written ++ [cell] }
  | failed (c : UInt32) (cell : Cell) :
    Executed A S t o (.sendToPrev c cell) (t.finish (.error .io))
  | beside {a : BridgeAction} {x : BridgeCircuitExecutor} (hx : t.executor.Operates none x) :
    Executed A S t o a { t with executor := x }
  | recorded {a : BridgeAction} {x : BridgeCircuitExecutor} {new : Option UInt32} {c : BridgeCall}
    (hx : t.executor.Operates new x) (hnew : ∀ i, new = some i → i ∈ a.actor) (hc : Reports c) :
    Executed A S t o a (record { t with executor := x } (t.state.call A c))
  | reaped {a : BridgeAction} {x : BridgeCircuitExecutor} (c : UInt32)
    (hx : t.executor.Operates none x) (hf : t.fails o c a = true) :
    Executed A S t o a (reapCircuit A { t with executor := x } c o.now)
  | reapedByOut {a : BridgeAction} {x : BridgeCircuitExecutor} (out : UInt32)
    (hx : t.executor.Operates none x)
    (hf : ∀ c, t.state.inCircIdFor out = some c → t.fails o c a = true) :
    Executed A S t o a (reapCircuitByOutId A { t with executor := x } out o.now)
  | exit (c : UInt32) (payload : Bytes) :
    Executed A S t o (.relayPayloadAtExit c payload) (t.relayPayloadAtExit A S c payload o)

variable (o : Outcome)

lemma executed (a : BridgeAction) : Executed A S t o a (t.execute A S o a) := by
  have hn : ∀ i, none = some i → i ∈ a.actor := fun _ h => nomatch h
  cases a with
  | performHandshake c msg =>
    unfold execute
    cases ho : o.handshake with
    | none => exact .reaped c .refl (by simp [fails, ho])
    | some p =>
      exact .recorded (c := .createComplete c p.1 p.2 o.now)
        (performHandshake_operates c _) (fun _ h => h) trivial
  | sendToPrev c cell =>
    unfold execute
    split_ifs
    · exact .wrote c cell
    · exact .failed c cell
  | openNextHop c out pk endpoint msg =>
    have hx := openNextHop_operates (x := t.executor) out msg o.answer
    unfold execute
    dsimp only
    split
    · rename_i msg2 _
      exact .recorded (c := .extendComplete c msg2 o.now) hx hn trivial
    · rename_i hf
      exact .reaped c hx (by simp [fails, hf])
  | sendToNext out cell =>
    have hx := sendToNext_operates (x := t.executor) out cell o.sent
    unfold execute
    dsimp only
    split_ifs with hf
    · exact .beside hx
    · exact .reapedByOut out hx fun c hc => by simp [fails, hc, hf]
  | forwardExtendFinishToNext out msg =>
    have hx := forwardExtendFinish_operates (x := t.executor) out msg o.sent
    unfold execute
    dsimp only
    split_ifs with hf
    · exact .beside hx
    · exact .reapedByOut out hx fun c hc => by simp [fails, hc, hf]
  | verifyExtendFinish c msg =>
    have hx := verifyExtendFinish_operates (x := t.executor) c o.validToken
    unfold execute
    dsimp only
    split_ifs with hf
    · exact .recorded (c := .tokenVerified c) hx hn trivial
    · exact .reaped c hx (by simp [fails, hf])
  | destroyPrevLink c => exact .beside (forgetPendingResponder_operates c)
  | destroyNextLink out => exact .beside (destroyNextLink_operates out o.sent)
  | relayPayloadAtExit c payload => exact .exit c payload

lemma Worked.execute (a : BridgeAction) : Worked A t (t.execute A S o a) := by
  have h := executed (A := A) (S := S) (t := t) o a
  generalize t.execute A S o a = t' at h ⊢
  cases h with
  | wrote c cell => exact .of_same .refl rfl .refl rfl
  | failed c cell => exact .finish _
  | beside hx => exact .of_executor hx .refl
  | recorded hx hn hc => exact .of_executor hx (.record hc.proper hc.passive)
  | reaped c hx => exact .of_executor hx (.reapCircuit c o.now)
  | reapedByOut out hx => exact .of_executor hx (.reapCircuitByOutId out o.now)
  | exit c payload => exact .relayPayloadAtExit c payload o

lemma Worked.injectNext (c : UInt32) (u : ℕ) (now : Instant) (payloads : List Bytes) :
    Worked A t (t.injectNext A c u now payloads) := by
  cases payloads with
  | nil => exact .refl
  | cons p ps =>
    have hc : Calls A t { t with state := (t.state.injectExitResponse A c p now).2 } :=
      .one (c := .injectExitResponse c p now) trivial rfl
    have han : ∀ a ∈ actionsOf (t.state.injectExitResponse A c p now).1, a.Answers c :=
      (handleRelayFromNext_does).answers rfl
    unfold SessionTask.injectNext
    dsimp only
    split
    · rename_i acts bc heq
      rw [heq] at hc han
      refine ⟨hc, .refl, fun h => .executeActions (fun task ht => ?_) fun a ha => ?_⟩
      · rcases mem_cons.1 ht with rfl | ho
        · trivial
        · exact h task ho
      · exact (han a ha).passive
    · rename_i heq
      rw [heq] at hc
      exact ⟨hc, .refl, fun h => h⟩

lemma Worked.perform (task : Task) : Worked A t (t.perform A S o task) := by
  cases task with
  | act a => exact .execute o a
  | inject c u now payloads => exact .injectNext c u now payloads
  | sweep => exact .of_rendezvous .refl

lemma Worked.deliverRendezvous (now : Instant) : Worked A t (t.deliverRendezvous A now) := by
  unfold SessionTask.deliverRendezvous
  split
  · exact .refl
  split
  · exact .refl
  · rename_i d router _
    exact .of_rendezvous (.sendRendezvousSub d.circId d.cmd d.body now)

lemma handleCell_calls {cell : Cell} (hid : cell.circId ≠ 0) (now : Instant) :
    Calls A t (t.handleCell A cell now) := by
  have ho : Calls A t { t with state := (t.state.processInboundFromPrev A cell now).2 } :=
    .one (c := .fromPrev cell now) hid rfl
  unfold handleCell
  split
  · rename_i h
    rw [h] at ho
    exact ho
  · rename_i h
    rw [h] at ho
    exact ho.trans (.one (c := .reap cell.circId now) trivial rfl)

lemma handleNextHopCell_calls (now : Instant) : Calls A t (t.handleNextHopCell A now) := by
  unfold handleNextHopCell
  split
  · exact .none rfl
  rename_i cell inbound _
  have ho : Calls A t { t with state := (t.state.processInboundFromNext A cell now).2 } :=
    .one (c := .fromNext cell now) trivial rfl
  dsimp only
  split
  · rename_i h
    rw [h] at ho
    exact ho
  · rename_i h
    rw [h] at ho
    exact ho.trans (.trans (.none rfl) (Worked.reapCircuitByOutId cell.circId now).calls)

lemma takeArm_calls (a : Arm) : Calls A t (t.takeArm A a) := by
  cases a with
  | cell buf now =>
    unfold takeArm
    dsimp only
    split
    · rename_i cell hd
      exact handleCell_calls (Cell.valid_of_decode hd).circId_ne now
    · exact .none rfl
  | exitEvent now => exact .none (handleExitEvent_state now)
  | nextHopCell now => exact handleNextHopCell_calls now
  | delivery now => exact (Worked.deliverRendezvous now).calls
  | tick order now => exact .one (c := .tick order now) trivial rfl
  | eof | readFailed | readTimeout => exact .none rfl

lemma step_calls (t : SessionTask) (e : SessionEvent) : Calls A t (t.step A S e) := by
  have h := stepped (A := A) (S := S) t e
  generalize t.step A S e = t' at h ⊢
  cases h with
  | stay => exact .none rfl
  | arm a => exact takeArm_calls a
  | next o => exact .trans (.none rfl) (Worked.perform o _).calls
  | around => exact .none (around_state e)

lemma orderly_of_tame {r : Reply} (h : BridgeCircuitState.Tame r) (hi : t.agenda = [])
    (hag : t'.agenda = (actionsOf r.1).map .act ++ t.agenda) (hs : t'.state = r.2) :
    t'.Orderly := by
  rw [hi, append_nil] at hag
  rcases h with hp | ⟨a, ha, hr⟩
  · refine .inl fun task ht => ?_
    rw [hag] at ht
    obtain ⟨a, ha, rfl⟩ := mem_map.1 ht
    exact hp a ha
  · refine .inr ⟨a, ?_, hs ▸ hr⟩
    rw [hag, ha]
    rfl

lemma allLight_of_idle (h : t.agenda = []) : t.AllLight := by
  intro task ht
  rw [h] at ht
  cases ht

lemma handleCell_orderly (hi : t.agenda = []) (cell : Cell) (now : Instant) :
    (t.handleCell A cell now).Orderly := by
  unfold handleCell
  split
  · rename_i acts bc heq
    have ht : BridgeCircuitState.Tame (t.state.processInboundFromPrev A cell now) :=
      (processInboundFromPrev_does cell now).tame
    rw [heq] at ht
    exact orderly_of_tame ht hi rfl rfl
  · exact .inl (.executeActions (allLight_of_idle hi) reapCircuit_passive)

lemma takeArm_light (hi : t.agenda = []) {a : Arm} (h : ∀ buf now, a ≠ .cell buf now) :
    (t.takeArm A a).AllLight := by
  have hl := allLight_of_idle hi
  cases a with
  | cell buf now => exact absurd rfl (h buf now)
  | exitEvent now =>
    change (t.handleExitEvent now).AllLight
    unfold handleExitEvent
    split
    · exact hl
    dsimp only
    split
    · exact hl
    split
    · exact .finish _
    · intro task ht
      obtain rfl := mem_singleton.1 ht
      trivial
  | nextHopCell now =>
    change (t.handleNextHopCell A now).AllLight
    unfold handleNextHopCell
    split
    · exact hl
    rename_i cell inbound _
    dsimp only
    split
    · rename_i acts bc heq
      have ha : ∀ a ∈ actionsOf (t.state.processInboundFromNext A cell now).1, a.Passive :=
        processInboundFromNext_passive
      rw [heq] at ha
      exact .executeActions hl ha
    · exact (Worked.reapCircuitByOutId cell.circId now).light hl
  | delivery now => exact (Worked.deliverRendezvous now).light hl
  | tick order now =>
    refine .executeActions (fun task ht => ?_) tick_passive
    obtain rfl := mem_singleton.1 ht
    trivial
  | eof | readFailed | readTimeout => exact .finish _

lemma takeArm_orderly (hi : t.agenda = []) (a : Arm) : (t.takeArm A a).Orderly := by
  cases a with
  | cell buf now =>
    unfold takeArm
    dsimp only
    split
    · exact handleCell_orderly hi _ now
    · exact .inl (.finish _)
  | eof | readFailed | readTimeout | exitEvent | nextHopCell | delivery | tick =>
    exact .inl (takeArm_light hi (by simp))

lemma around_agenda (e : SessionEvent) : (t.around S e).agenda = t.agenda := by
  cases e with
  | other c =>
    change (if _ then t else _ : SessionTask).agenda = t.agenda
    split_ifs <;> rfl
  | arm | next | exitPump | arrive | linkClosed => rfl

lemma Orderly.rest (h : t.Orderly) {task : Task} {rest : List Task}
    (hag : t.agenda = task :: rest) : ∀ task ∈ rest, task.Light := by
  rcases h with hl | ⟨a, ha, -⟩
  · exact fun task' h' => hl task' (hag ▸ mem_cons_of_mem _ h')
  · rw [ha] at hag
    obtain ⟨-, rfl⟩ := cons.inj hag
    simp

lemma Orderly.ready (h : t.Orderly) {a : BridgeAction} {rest : List Task}
    (hag : t.agenda = .act a :: rest) (ha : ¬ a.Passive) : rest = [] ∧ t.state.Ready a := by
  rcases h with hl | ⟨a', ha', hr⟩
  · exact absurd (hl (.act a) (hag ▸ mem_cons_self)) ha
  rw [ha'] at hag
  obtain ⟨heq, rfl⟩ := cons.inj hag
  obtain rfl := Task.act.inj heq
  exact ⟨rfl, hr⟩

lemma Orderly.step (h : t.Orderly) (e : SessionEvent) : (t.step A S e).Orderly := by
  have hs := stepped (A := A) (S := S) t e
  generalize t.step A S e = t' at hs ⊢
  cases hs with
  | stay => exact h
  | arm a hr hi => exact takeArm_orderly hi a
  | next o hr ha => exact .inl ((Worked.perform o _).light (h.rest ha))
  | around =>
    unfold Orderly AllLight
    rwa [around_agenda, around_state]

section Start

variable (state : BridgeCircuitState) (executor : BridgeCircuitExecutor)
  (router : Option RendezvousRouter)

theorem start_rec {P : SessionTask → Prop} (hn : P (new state executor))
    (hrv : ∀ t router handle, P t → P { t with rendezvous := router, rvHandle := handle })
    (he : ∀ t result, P t → P (t.finish result)) : P (start state executor router) := by
  have hc : ∀ t, P t → P t.checkRelayTokenCoupling := by
    intro t h
    unfold checkRelayTokenCoupling
    split_ifs
    · exact he t _ h
    · exact h
  cases router with
  | none => exact hc _ hn
  | some r => exact hc _ (hrv _ _ _ hn)

lemma start_agenda : (start state executor router).agenda = [] :=
  start_rec (P := fun t => t.agenda = []) _ _ _ rfl (fun _ _ _ h => h) fun _ _ _ => rfl

lemma start_state : (start state executor router).state = state :=
  start_rec (P := fun t => t.state = state) _ _ _ rfl (fun _ _ _ h => h) fun _ _ h => h

lemma start_executor : (start state executor router).executor = executor :=
  start_rec (P := fun t => t.executor = executor) _ _ _ rfl (fun _ _ _ h => h) fun _ _ h => h

end Start

/-- The circuits are what calls lead to, and an action that comes back finds its circuit. -/
theorem session_refines_circuits (A : Aead) (S : Ed25519) (state : BridgeCircuitState)
    (executor : BridgeCircuitExecutor) (router : Option RendezvousRouter)
    (events : List SessionEvent) :
    let t := run (step A S) (start state executor router) events
    (∃ calls : List BridgeCall, (∀ c ∈ calls, Proper c) ∧
      t.state = run (BridgeCircuitState.step A) state calls) ∧
    ∀ a rest, t.agenda = .act a :: rest → ¬ a.Passive → rest = [] ∧ t.state.Ready a := by
  have h := inv_run (I := fun t => Calls A (start state executor router) t ∧ t.Orderly)
    (fun t e ht _ => ⟨ht.1.trans (step_calls (S := S) t e), ht.2.step e⟩) _ events
    ⟨.none rfl, .inl (allLight_of_idle (start_agenda ..))⟩ (along_true _ _)
  refine ⟨?_, fun a rest => h.2.ready⟩
  obtain ⟨calls, hp, hs⟩ := h.1
  exact ⟨calls, hp, hs.trans (by rw [start_state])⟩

def anySignature : Ed25519 := ⟨fun _ => true, fun _ _ _ => true⟩

def plainSession : SessionTask :=
  start (.start .default sequentialOutCircIdPicker 0 false) (.new .default true false) none

def fine : Outcome :=
  ⟨0, some (HopKeys.blank, []), some [⟨1, cmdCreated, [0, 0]⟩], true, true, true,
    TcpStreamDispatcher.oneHost⟩

def cellIn (id : UInt32) (cmd : UInt8) (body : Bytes) : SessionEvent :=
  .arm (.cell (Cell.encode ⟨id, cmd, body⟩ (List.replicate (maxCellPayload - body.length) 0)) 0)

def openCircuit (id : UInt32) : List SessionEvent :=
  [cellIn id cmdCreate [0, 0], .next fine, .next fine]

def extendCircuit (id : UInt32) : List SessionEvent :=
  [cellIn id cmdExtend (List.replicate 32 0 ++ [1, 127, 0, 0, 1, 0, 80, 0, 0]), .next fine,
    .next fine]

def relayIn (id : UInt32) (payload : Bytes) : List SessionEvent :=
  [cellIn id cmdRelay (payload ++ List.replicate 16 0), .next fine]

end SessionTask

namespace TimedTask

variable (A : Aead) (S : Ed25519) (T : ℕ)

/-- An event is not handled when no cell has come for `T`: it finds the session ended. -/
def KeepsDeadline (s : TimedTask) (e : Arm × List Outcome) : Prop :=
  ∀ now ∈ e.1.time, s.waits = true → s.lastCell + T < now →
    (s.turn A S (some T) e).handled = s.handled ∧
      (s.turn A S (some T) e).task.result = some (.error .readTimeout)

/-- An event later than `T` after the last cell is past the deadline of its read, too. -/
def Spaced (s : TimedTask) (e : Arm × List Outcome) : Prop :=
  ∀ now ∈ e.1.time, s.waits = true → s.lastCell + T < now → s.began + T < now

lemma keepsDeadline_iff {s : TimedTask} {e : Arm × List Outcome} :
    KeepsDeadline A S T s e ↔ Spaced T s e := by
  refine forall₂_congr fun now hn => forall₂_congr fun hw _ => ?_
  simp only [turn, Option.mem_def.1 hn, hw, Option.any_some, decide_eq_true_eq]
  by_cases hl : s.began + T < now
  · simp [hl, takeArm, finish]
  · simp [hl]

/-- A deadline is kept exactly if the events leave no gap before it. -/
theorem deadline_kept_iff (s : TimedTask) (events : List (Arm × List Outcome)) :
    Along (turn A S (some T)) (KeepsDeadline A S T) s events ↔
      Along (turn A S (some T)) (Spaced T) s events := by
  rw [show KeepsDeadline A S T = Spaced T from funext₂ fun _ _ => propext (keepsDeadline_iff A S T)]

/-- With a deadline of 60 seconds and a tick each second, no cell comes and the session lives. -/
theorem ticks_put_off_deadline :
    let s := run (turn Aead.plain anySignature (some 60))
      ⟨plainSession, 0, 0, []⟩
      ((List.range 61).map fun k => (.tick [] (k + 1), [fine]))
    s.task.result.isNone = true ∧ s.lastCell = 0 ∧ 61 ∈ s.handled := by
  decide +kernel

end TimedTask

end Mirage.Bridge
