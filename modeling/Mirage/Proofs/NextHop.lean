import Mirage.Proofs.BridgeTable
import Mirage.Proofs.SessionSteps

/-!
# Cells from next hops

The loop goes by the id that the next hop has written into a cell, which nobody compares with the
one that the link was opened for.
-/

namespace Mirage.Bridge

open Circuits Words Maps Runs BridgeCircuitState BridgeCircuitExecutor
open List hiding Vector

variable {cell : Cell} {c : UInt32}

namespace SessionTask

variable {A : Aead} {S : Ed25519} {t t' : SessionTask} {out : UInt32}

/-- A cell that arrives on a link carries the id the link was opened for. -/
def OwnId (t : SessionTask) : SessionEvent → Prop
  | .arrive k cell => ∀ l ∈ t.executor.opened[k]?, cell.circId = l.outCircId
  | _ => True

instance (t : SessionTask) : DecidablePred (OwnId t) := fun _ => by
  unfold OwnId
  split <;> infer_instance

/-- The action is about circuit `c` or its link. -/
def Concerns (out c : UInt32) (a : BridgeAction) : Prop := a.Answers c ∨ a = .destroyNextLink out

/-- From `t` to `t'` only the circuit that goes on under `out` has changed. -/
structure Confined (out : UInt32) (t t' : SessionTask) : Prop where
  entries : ∀ c, ¬ t.state.Extends out c → t'.state.circuits.lookup c = t.state.circuits.lookup c
  ids : t'.state.outToIn = t.state.outToIn
  tasks : ∀ task ∈ t'.agenda, ∃ c a, t.state.Extends out c ∧ task = .act a ∧ Concerns out c a
  streams : ∀ s c, ¬ t.state.Extends out c → t.streamToCirc.lookup s = some c →
    t'.streamToCirc.lookup s = some c

/-- A cell from a link, or the answer to its `CREATE`, changes its own circuit only. -/
def LinkIsolated (A : Aead) (S : Ed25519) (t : SessionTask) : SessionEvent → Prop
  | .arm (.nextHopCell now) => t.result = none → t.agenda = [] →
      ∀ p ∈ t.executor.inbound.head?,
        Confined p.1 t (t.step A S (.arm (.nextHopCell now))) ∧
        (t.step A S (.arm (.nextHopCell now))).result = none
  | .next o => t.result = none → ∀ a, t.agenda.head? = some (.act a) →
      (∀ c out pk endpoint msg, a = .openNextHop c out pk endpoint msg →
        Confined out t (t.step A S (.next o))) ∧
      ∀ c out, Concerns out c a → (t.step A S (.next o)).state = t.state
  | _ => True

section Order

variable {bc : BridgeCircuitState} {id : UInt32} {r : Reply}

lemma lookup_of_next {now : Instant} (h : bc.outToIn.lookup cell.circId ≠ some c) :
    (bc.processInboundFromNext A cell now).2.circuits.lookup c = bc.circuits.lookup c := by
  cases hid : bc.outToIn.lookup cell.circId with
  | none => rw [processInboundFromNext_none now hid]
  | some id =>
    have hd := processInboundFromNext_does (A := A) cell now hid
    refine hd.effect.lookup_ne ?_
    rintro rfl
    exact h hid

end Order

lemma lookup_purgeStreams {s : StreamId} {i : UInt32} (hne : c ≠ i)
    (h : t.streamToCirc.lookup s = some c) : (t.purgeStreams i).streamToCirc.lookup s = some c := by
  change (retain _ t.streamToCirc).lookup s = some c
  rw [lookup_retain, h]
  simp [hne]

/-- The link of `out` is gone, and its circuit with it. -/
structure Reaped (A : Aead) (out : UInt32) (t t' : SessionTask) : Prop where
  entries : ∀ c, t.state.outToIn.lookup out ≠ some c →
    t'.state.circuits.lookup c = t.state.circuits.lookup c
  ids : t'.state.outToIn = t.state.outToIn
  tasks : ∃ acts : List BridgeAction, t'.agenda = acts.map .act ++ t.agenda ∧
    ∀ a ∈ acts, ∃ c, t.state.outToIn.lookup out = some c ∧ a.Answers c
  streams : ∀ s c, t.state.outToIn.lookup out ≠ some c → t.streamToCirc.lookup s = some c →
    t'.streamToCirc.lookup s = some c
  result : t'.result = t.result

lemma reaped (ho : out ≠ 0) (now : Instant) : Reaped A out t (t.reapCircuitByOutId A out now) := by
  have hn : Cell.new out cmdDestroy [] = .ok ⟨out, cmdDestroy, []⟩ :=
    Cell.new_eq_ok.2 ⟨ho, by simp, by decide, rfl⟩
  unfold reapCircuitByOutId inCircIdFor
  cases hid : t.state.outToIn.lookup out with
  | none =>
    simp only [hn]
    refine ⟨fun c hc => ?_, outToIn_of_next, ⟨[], ?_, by simp⟩, fun s c _ hs => hs, rfl⟩
    · exact lookup_of_next (by simp [hid])
    · rw [processInboundFromNext_none now hid]
      rfl
  | some i =>
    simp only [hn]
    refine ⟨fun c hc => lookup_of_next hc, outToIn_of_next,
      ⟨_, rfl, fun a ha => ⟨i, hid, ?_⟩⟩, fun s c hc hs => ?_, rfl⟩
    · exact processInboundFromNext_answers now hid a ha
    · exact lookup_purgeStreams (fun h => hc (h ▸ hid)) hs

lemma extends_iff (ht : t.state.Table) :
    t.state.Extends out c ↔ t.state.outToIn.lookup out = some c :=
  (ht.inverse out c).symm

lemma handleNextHopCell_confined {inbound : List (UInt32 × Cell)} (now : Instant)
    (htb : t.state.Table) (hrs : t.result = none) (hil : t.agenda = [])
    (hin : t.executor.inbound = (out, cell) :: inbound) (how : cell.circId = out) (hot : out ≠ 0) :
    Confined out t (t.handleNextHopCell A now) ∧ (t.handleNextHopCell A now).result = none := by
  subst how
  have ho : ∀ c, ¬ t.state.Extends cell.circId c →
      t.state.outToIn.lookup cell.circId ≠ some c :=
    fun c hc h => hc ((extends_iff htb).2 h)
  have hi : (t.state.processInboundFromNext A cell now).2.outToIn = t.state.outToIn :=
    outToIn_of_next
  have he : ∀ c, ¬ t.state.Extends cell.circId c →
      (t.state.processInboundFromNext A cell now).2.circuits.lookup c =
        t.state.circuits.lookup c := fun c hc => lookup_of_next (ho c hc)
  unfold handleNextHopCell
  rw [hin]
  dsimp only
  split
  · rename_i acts bc hok
    rw [hok] at hi he
    refine ⟨⟨he, hi, fun task ht => ?_, fun s c _ hs => hs⟩, hrs⟩
    change task ∈ acts.map Task.act ++ t.agenda at ht
    rw [hil, append_nil] at ht
    obtain ⟨a, ha, rfl⟩ := mem_map.1 ht
    cases hid : t.state.outToIn.lookup cell.circId with
    | none =>
      rw [processInboundFromNext_none now hid] at hok
      cases hok
    | some i =>
      refine ⟨i, a, (extends_iff htb).2 hid, rfl, .inl ?_⟩
      exact processInboundFromNext_answers (A := A) now hid a (hok ▸ ha)
  · rename_i err bc hey
    rw [hey] at hi he
    -- The error may have come after a change of the entry, and the reaping then ends the circuit.
    have hr := reaped (A := A)
      (t := { t with executor := { t.executor with inbound := inbound }, state := bc }) hot now
    have ho' : ∀ c, ¬ t.state.Extends cell.circId c → bc.outToIn.lookup cell.circId ≠ some c :=
      fun c hc => hi ▸ ho c hc
    refine ⟨⟨fun c hc => (hr.entries c (ho' c hc)).trans (he c hc),
      hr.ids.trans hi, fun task ht => ?_,
      fun s c hc hs => hr.streams s c (ho' c hc) hs⟩, hr.result.trans hrs⟩
    obtain ⟨acts, hag, hac⟩ := hr.tasks
    rw [hag] at ht
    rw [hil, append_nil] at ht
    obtain ⟨a, ha, rfl⟩ := mem_map.1 ht
    obtain ⟨c, hc, han⟩ := hac a ha
    exact ⟨c, a, (extends_iff htb).2 (hi ▸ hc), rfl, .inl han⟩

lemma execute_concerns_state {a : BridgeAction} (h : Concerns out c a) (o : Outcome) :
    (t.execute A S o a).state = t.state := by
  rcases h with h | rfl
  · cases a with
    | sendToPrev i cell =>
      unfold execute
      split_ifs <;> rfl
    | destroyPrevLink i => rfl
    | performHandshake | openNextHop | sendToNext | destroyNextLink | relayPayloadAtExit
    | forwardExtendFinishToNext | verifyExtendFinish => cases h
  · rfl

lemma Confined.of_effect {o : Order} {r : Reply} (he : t.state.Extends out c)
    (hef : BridgeCircuitState.Effect t.state o c r) (ho : o.disrupts = true → o = .teardown)
    (hst : t'.state = r.2) (ht : ∀ task ∈ t'.agenda, ∃ a, task = .act a ∧ Concerns out c a)
    (hsr : ∀ s i, i ≠ c → t.streamToCirc.lookup s = some i →
      t'.streamToCirc.lookup s = some i) : Confined out t t' := by
  have hne : ∀ i, ¬ t.state.Extends out i → i ≠ c := fun i hi h => hi (h ▸ he)
  refine ⟨fun i hi => ?_, ?_, fun task hts => ?_, fun s i hi hs => hsr s i (hne i hi) hs⟩
  · rw [hst]
    exact hef.lookup_ne (hne i hi)
  · rw [hst]
    exact hef.outToIn_eq ho
  · obtain ⟨a, rfl, ha⟩ := ht task hts
    exact ⟨c, a, he, rfl, ha⟩

lemma reapCircuit_confined (now : Instant) (hid : t.agenda = []) (het : t.state.Extends out c) :
    Confined out t (t.reapCircuit A c now) := by
  unfold reapCircuit
  split
  · refine ⟨fun _ _ => rfl, rfl, fun task ht => ?_, fun s i hi hs => ?_⟩
    · cases ht
    · exact lookup_purgeStreams (fun h => hi (h ▸ het)) hs
  rename_i cell hn
  obtain ⟨-, -, -, rfl⟩ := Cell.new_eq_ok.1 hn
  refine .of_effect het (handleDestroyFromPrev_does now).effect (fun _ => rfl) rfl
    (fun task ht => ?_) fun s i hi hs => lookup_purgeStreams hi hs
  change task ∈ map Task.act (t.state.handleDestroyFromPrev c now).1 ++ t.agenda at ht
  rw [hid, append_nil] at ht
  obtain ⟨a, ha, rfl⟩ := mem_map.1 ht
  refine ⟨a, rfl, ?_⟩
  obtain ⟨e, he, hm⟩ := het
  unfold handleDestroyFromPrev tombstone at ha
  simp only [he] at ha
  unfold destroyActions at ha
  split_ifs at ha
  · cases ha
  rw [hm] at ha
  rcases mem_cons.1 ha with rfl | ha
  · exact .inr rfl
  · obtain rfl := mem_singleton.1 ha
    exact .inl rfl

lemma openNextHop_confined {pk : Bytes32} {endpoint : HopEndpoint} {msg : Bytes}
    (o : Outcome) (hi : t.agenda = []) (he : t.state.Extends out c) :
    Confined out t (t.execute A S o (.openNextHop c out pk endpoint msg)) := by
  unfold execute
  dsimp only
  split
  · rename_i msg2 _
    refine .of_effect he (recordExtendComplete_does msg2).effect
      (by simp [Order.disrupts]) (record_state _) (fun task ht => ?_) fun s i _ hs => ?_
    · have han :
          ∀ a ∈ actionsOf (t.state.recordExtendComplete A c msg2 o.now).1, a.Answers c :=
        (recordExtendComplete_does msg2).answers rfl
      generalize t.state.recordExtendComplete A c msg2 o.now = reply at ht han
      obtain ⟨e | acts, bc⟩ := reply
      · cases ht
      change task ∈ acts.map Task.act ++ t.agenda at ht
      rw [hi, append_nil] at ht
      obtain ⟨a, ha, rfl⟩ := mem_map.1 ht
      exact ⟨a, rfl, .inl (han a ha)⟩
    · rw [record_streamToCirc]
      exact hs
  · have hr := reapCircuit_confined (A := A)
      (t := { t with executor := (t.executor.openNextHop out msg o.answer).2 }) o.now hi he
    exact ⟨hr.entries, hr.ids, hr.tasks, hr.streams⟩

/-- Cells wait under the id of their link. -/
structure Linked (t : SessionTask) : Prop where
  table : t.state.Table
  orderly : t.Orderly
  inbound : ∀ p ∈ t.executor.inbound, p.2.circId = p.1 ∧ p.1 ≠ 0
  outs : ∀ l ∈ t.executor.opened, l.outCircId ≠ 0

lemma Linked.of_keeps (h : Linked t) (ht : t'.state.Table) (ho : t'.Orderly)
    (hk : t.executor.Keeps t'.executor) : Linked t' :=
  ⟨ht, ho, hk.inbound ▸ h.inbound, hk.outs h.outs⟩

lemma Linked.takeArm (h : Linked t) (a : Arm) (ht : (t.takeArm A a).state.Table)
    (ho : (t.takeArm A a).Orderly) : Linked (t.takeArm A a) := by
  cases a with
  | cell buf now =>
    refine h.of_keeps ht ho ?_
    unfold SessionTask.takeArm
    dsimp only
    split
    · rw [handleCell_executor]
      exact .refl
    · exact .refl
  | exitEvent now =>
    refine h.of_keeps ht ho ?_
    change t.executor.Keeps (t.handleExitEvent now).executor
    unfold handleExitEvent
    split
    · exact .refl
    dsimp only
    split
    · exact ⟨rfl, rfl, fun h => h⟩
    · split <;> exact ⟨rfl, rfl, fun h => h⟩
  | nextHopCell now =>
    have hin : ∃ inbound, (∀ p ∈ inbound, p ∈ t.executor.inbound) ∧
        (t.handleNextHopCell A now).executor = { t.executor with inbound := inbound } := by
      unfold handleNextHopCell
      split
      · exact ⟨_, fun p hp => hp, rfl⟩
      rename_i origin cell inbound heq
      refine ⟨inbound, fun p hp => heq ▸ mem_cons_of_mem _ hp, ?_⟩
      dsimp only
      split
      · rfl
      · rw [reapCircuitByOutId_executor]
    obtain ⟨inbound, hs, heq⟩ := hin
    refine ⟨ht, ho, fun p hp => h.inbound p (hs p ?_), ?_⟩
    · change p ∈ (t.handleNextHopCell A now).executor.inbound at hp
      rwa [heq] at hp
    · change ∀ l ∈ (t.handleNextHopCell A now).executor.opened, l.outCircId ≠ 0
      rw [heq]
      exact h.outs
  | delivery now => exact h.of_keeps ht ho (Worked.deliverRendezvous now).keeps
  | tick order now | eof | readFailed | readTimeout => exact h.of_keeps ht ho .refl

lemma Linked.around {e : SessionEvent} (h : Linked t) (how : OwnId t e)
    (ho : (t.around S e).Orderly) : Linked (t.around S e) := by
  have ht : (t.around S e).state.Table := by
    rw [around_state]
    exact h.table
  cases e with
  | arrive k cell =>
    have hc : t.executor.arrive k cell = t.executor ∨ ∃ l, t.executor.opened[k]? = some l ∧
        t.executor.arrive k cell =
          { t.executor with inbound := t.executor.inbound ++ [(l.outCircId, cell)] } := by
      unfold arrive
      split
      · exact .inl rfl
      rename_i l hl
      split_ifs
      · exact .inr ⟨l, hl, rfl⟩
      · exact .inl rfl
    rcases hc with heq | ⟨l, hl, heq⟩
    · refine h.of_keeps ht ho ?_
      change t.executor.Keeps (t.executor.arrive k cell)
      rw [heq]
      exact .refl
    refine ⟨ht, ho, fun p hp => ?_, ?_⟩
    · change p ∈ (t.executor.arrive k cell).inbound at hp
      rw [heq] at hp
      rcases mem_append.1 hp with hp | hp
      · exact h.inbound p hp
      · obtain rfl := mem_singleton.1 hp
        exact ⟨how l hl, h.outs l (mem_of_getElem? hl)⟩
    · change ∀ l ∈ (t.executor.arrive k cell).opened, l.outCircId ≠ 0
      rw [heq]
      exact h.outs
  | linkClosed k =>
    exact h.of_keeps ht ho ⟨rfl, rfl, fun h => outs_modify h fun _ => rfl⟩
  | other c =>
    refine h.of_keeps ht ho ?_
    change t.executor.Keeps (if _ then t else _ : SessionTask).executor
    split_ifs <;> exact .refl
  | exitPump e => exact h.of_keeps ht ho ⟨rfl, rfl, fun h => h⟩
  | arm | next => exact h

lemma Linked.step {e : SessionEvent} (h : Linked t) (how : OwnId t e) : Linked (t.step A S e) := by
  have ht := (step_calls (A := A) (S := S) t e).inv (fun bc c hbc _ => hbc.step c) h.table
  have ho := h.orderly.step (A := A) (S := S) e
  have hs := stepped (A := A) (S := S) t e
  generalize t.step A S e = t' at ht ho hs ⊢
  cases hs with
  | stay => exact h
  | arm a => exact h.takeArm a ht ho
  | next o hr ha =>
    rename_i task rest
    exact h.of_keeps ht ho (Worked.perform (t := { t with agenda := rest }) o task).keeps
  | around => exact h.around how ho

lemma Linked.isolated (h : Linked t) (e : SessionEvent) : LinkIsolated A S t e := by
  cases e with
  | arm a =>
    cases a with
    | nextHopCell now =>
      intro hr hi p hp
      obtain ⟨inbound, hin⟩ := head?_eq_some_iff.1 hp
      have hs : t.step A S (.arm (.nextHopCell now)) = t.handleNextHopCell A now := by
        unfold SessionTask.step
        simp [hr, hi, SessionTask.takeArm]
      have hp' := h.inbound p (hin ▸ mem_cons_self)
      rw [hs]
      exact handleNextHopCell_confined now h.table hr hi hin hp'.1 hp'.2
    | cell | eof | readFailed | readTimeout | exitEvent | delivery | tick => trivial
  | next o =>
    intro hr a hh
    obtain ⟨rest, hag⟩ := head?_eq_some_iff.1 hh
    have hs : t.step A S (.next o) = execute A S { t with agenda := rest } o a := by
      unfold SessionTask.step SessionTask.next
      simp [hr, hag, perform]
    rw [hs]
    refine ⟨fun c out pk endpoint msg ha => ?_, fun c out hc => execute_concerns_state hc o⟩
    subst ha
    obtain ⟨rfl, hrd⟩ := h.orderly.ready hag fun hp => hp
    obtain ⟨e, he, -, ho⟩ := hrd.linked c out pk endpoint msg rfl
    have hcn : Confined out { t with agenda := [] }
        (execute A S { t with agenda := [] } o (.openNextHop c out pk endpoint msg)) :=
      openNextHop_confined o rfl ⟨e, he, ho⟩
    exact ⟨hcn.entries, hcn.ids, hcn.tasks, hcn.streams⟩
  | exitPump | arrive | linkClosed | other => trivial

/-- If cells carry the id their link was opened for, a cell changes only the circuit of its link. -/
theorem link_isolation (A : Aead) (S : Ed25519) (policy : BridgePolicy) (picker : UInt64 → UInt32)
    (seq : UInt64) (relayMode : Bool) (config : TcpStreamDispatcherConfig)
    (dialer tokenVerify : Bool) (router : Option RendezvousRouter) (events : List SessionEvent)
    (h : Along (step A S) OwnId
      (start (.start policy picker seq relayMode) (.new config dialer tokenVerify) router) events) :
    Along (step A S) (LinkIsolated A S)
      (start (.start policy picker seq relayMode) (.new config dialer tokenVerify) router)
      events := by
  refine along_of_inv (fun t e => Linked.step) (fun t e ht _ => ht.isolated e) _
    events ⟨?_, .inl (allLight_of_idle (start_agenda _ _ _)), ?_, ?_⟩ h
  · rw [start_state]
    refine ⟨indexes_empty, rfl, fun _ _ he => ?_⟩
    cases he
  · rw [start_executor]
    simp [BridgeCircuitExecutor.new]
  · rw [start_executor]
    simp [BridgeCircuitExecutor.new]

/-- A `DESTROY` for the id 3 of circuit 2 comes on the link of circuit 1. -/
theorem cell_destroys_other :
    let t := run (step Aead.plain anySignature) plainSession
      (openCircuit 1 ++ openCircuit 2 ++ extendCircuit 1 ++ extendCircuit 2 ++
        [.arrive 0 ⟨3, cmdDestroy, []⟩])
    t.executor.opened.map (·.outCircId) = [2, 3] ∧ t.state.circuitState 2 = some .open ∧
      (t.step Aead.plain anySignature (.arm (.nextHopCell 0))).state.circuitState 2 =
        some .destroyed := by
  decide +kernel

theorem link_isolation_destroy :
    let t := run (step Aead.plain anySignature) plainSession
      (openCircuit 1 ++ openCircuit 2 ++ extendCircuit 1 ++ extendCircuit 2 ++
        [.arrive 0 ⟨2, cmdDestroy, []⟩])
    Confined 2 t (t.step Aead.plain anySignature (.arm (.nextHopCell 0))) := by
  intro t
  have h := link_isolation Aead.plain anySignature .default sequentialOutCircIdPicker 0 false
    .default true false none (openCircuit 1 ++ openCircuit 2 ++ extendCircuit 1 ++
      extendCircuit 2 ++ [.arrive 0 ⟨2, cmdDestroy, []⟩] ++ [.arm (.nextHopCell 0)])
    (by decide +kernel)
  have hl := (along_append.1 h).2.1
  refine (hl ?_ ?_ (2, ⟨2, cmdDestroy, []⟩) ?_).1
  · decide +kernel
  · decide +kernel
  · decide +kernel

end SessionTask

end Mirage.Bridge
