import Mirage.Proofs.ExitReplies
import Mirage.Proofs.NextHop

/-!
# Faults of one circuit

Only a cell that cannot be written to the previous hop is meant to end the session. So does a
circuit whose counter toward the client is used up (`exhausted_ends_session`).
-/

namespace Mirage.Circuits

open Words Maps Records Option
open List hiding Vector

variable {msg : Bytes} {a : BridgeAction}

namespace BridgeCircuitState

variable {A : Aead} {bc : BridgeCircuitState} {id : UInt32}

lemma flight_ok (first cont : UInt8) (bodies : Bytes × List Bytes) (hid : id ≠ 0)
    (hf : first ≠ cmdReserved) (hc : cont ≠ cmdReserved) (hh : bodies.1.length ≤ maxCellPayload)
    (ht : ∀ body ∈ bodies.2, body.length ≤ maxCellPayload) :
    ∃ acts, flight id first cont bodies = .ok acts := by
  refine ⟨_, mapM_eq_ok (g := fun b => .sendToPrev id ⟨id, b.1, b.2⟩) fun b hb => ?_⟩
  have hn : Cell.new id b.1 b.2 = .ok ⟨id, b.1, b.2⟩ := by
    rcases mem_cons.1 hb with rfl | hb
    · exact Cell.new_eq_ok.2 ⟨hid, hh, hf, rfl⟩
    · obtain ⟨body, hbd, rfl⟩ := mem_map.1 hb
      exact Cell.new_eq_ok.2 ⟨hid, ht body hbd, hc, rfl⟩
  rw [hn]

lemma recordCreateComplete_ok (keys : HopKeys) (now : Instant) (hid : id ≠ 0)
    (hs : bc.circuitState id = some .creating) (hm : msg.length ≤ maxHandshakeBodyLen) :
    ∃ acts, (bc.recordCreateComplete id keys msg now).1 = .ok acts := by
  obtain ⟨e, he, hc⟩ := map_eq_some_iff.1 hs
  have hmx : 2 ≤ maxCellPayload := by decide
  obtain ⟨first, conts, hfr, hh, ht⟩ := encodeFragments_spec hm hmx
  obtain ⟨acts, hf⟩ :=
    flight_ok cmdCreated cmdCreatedCont (first, conts) hid (by decide) (by decide) hh ht
  refine ⟨acts, ?_⟩
  unfold recordCreateComplete HandshakeBody.encodeFragmented
  simp [he, hc, hfr, hf]

lemma recordExtendComplete_ok (now : Instant) (hA : A.Lawful) (hk : Keyed bc)
    (hs : bc.circuitState id = some .extending) (hm : msg.length ≤ 65535)
    (hr : ∀ e ∈ bc.circuits.lookup id, e.extendViaRelay = true →
      e.reverseSeq + (flightCells msg).length < 2 ^ 64) :
    ∃ acts, (bc.recordExtendComplete A id msg now).1 = .ok acts := by
  obtain ⟨e, he, het⟩ := map_eq_some_iff.1 hs
  obtain ⟨hid, hky⟩ := hk id e he
  cases hv : e.extendViaRelay with
  | true =>
    obtain ⟨keys, hky⟩ := ne_none_iff_exists'.1 (hky (.inr het))
    rw [recordExtendComplete_eq now hA hid he het hv hky hm (hr e he hv)]
    exact ⟨_, rfl⟩
  | false =>
    have hmx : 2 ≤ maxCellPayload := by decide
    obtain ⟨first, conts, hfr, hh, ht⟩ := encodeFragments_spec hm hmx
    obtain ⟨acts, hf⟩ := flight_ok cmdExtended cmdExtendedCont (first, conts) hid
      (by decide) (by decide) hh ht
    refine ⟨acts, ?_⟩
    unfold recordExtendComplete emitExtended ExtendedBody.encodeFragmented
    simp [he, het, hv, hfr, hf]

end BridgeCircuitState

/-- The state machine waits for what the action brings back, and the id can stand in a cell. -/
def BridgeAction.Due (bc : BridgeCircuitState) : BridgeAction → Prop
  | .performHandshake i _ => bc.circuitState i = some .creating
  | .openNextHop i _ _ _ _ => bc.circuitState i = some .extending
  | .sendToNext out _ => out ≠ 0
  | .forwardExtendFinishToNext out _ => out ≠ 0
  | _ => True

lemma BridgeAction.Passive.due {bc : BridgeCircuitState} (h : a.Passive) : a.Due bc := by
  cases a with
  | sendToPrev | destroyPrevLink | destroyNextLink => trivial
  | performHandshake | openNextHop | sendToNext | relayPayloadAtExit
  | forwardExtendFinishToNext | verifyExtendFinish => cases h

namespace BridgeCircuitState

variable {A : Aead} {bc : BridgeCircuitState} {id : UInt32} {now : Instant} {o : Order} {r : Reply}

/-- A handshake is asked for a circuit that is being created. -/
def AsksInTime (r : Reply) : Prop :=
  ∀ i msg, .performHandshake i msg ∈ actionsOf r.1 → r.2.circuitState i = some .creating

lemma asksInTime_setEntry {e : CircuitEntry} (h : e.state = .creating) :
    AsksInTime (.ok [.performHandshake id msg], bc.setEntry id e) := by
  intro i msg' ha
  obtain ⟨rfl, -⟩ := BridgeAction.performHandshake.inj (mem_singleton.1 ha)
  rw [circuitState, lookup_setEntry_self, map_some, h]

lemma Does.asks (h : Does bc o id r) : AsksInTime r := by
  cases h with
  | refused | idle | linked => simp [AsksInTime, actionsOf]
  | made now ho hnw hc hr hb hac =>
    rcases hac with rfl | ⟨msg, rfl⟩
    · simp [AsksInTime, actionsOf]
    · exact asksInTime_setEntry rfl
  | quiet seq hn => simp [AsksInTime, hn]
  | asked he ht ho hl hs hak =>
    intro i msg ha
    obtain rfl := mem_singleton.1 ha
    obtain rfl : i = id := hs
    exact asksInTime_setEntry (hak i msg rfl) i msg ha
  | answered he ht ho hac => exact fun _ _ ha => (hac _ ha).answers.elim
  | ended he ht ho hac => exact fun _ _ ha => (hac _ ha).1.elim

lemma Table.ne_zero {out : UInt32} {e : CircuitEntry} (h : Table bc)
    (he : bc.circuits.lookup id = some e) (ho : e.outCircId = some out) : out ≠ 0 := by
  rintro rfl
  have hin := (h.inverse 0 id).2 ⟨e, he, ho⟩
  rw [h.zero] at hin
  cases hin

lemma Effect.speaks (h : Effect bc o id r) (ha : a ∈ actionsOf r.1) :
    (∃ msg, a = .performHandshake id msg) ∨
    (∃ out pk endpoint msg, a = .openNextHop id out pk endpoint msg ∧
      r.2.circuitState id = some .extending) ∨
    ∃ e, bc.circuits.lookup id = some e ∧ bc.Speaks o id e.phase a := by
  cases h with
  | idle seq hn => simp [hn] at ha
  | made _ _ _ _ _ _ hac => exact .inl (hac a ha)
  | turned seq he ht hac => exact .inr (.inr ⟨_, he, hac a ha⟩)
  | linked seq pk endpoint msg he hs had hne hf hp =>
    rename_i e' out
    refine .inr (.inl ⟨out, pk, endpoint, msg, mem_singleton.1 ha, ?_⟩)
    change ((bc.setEntry id e').circuits.lookup id).map (·.state) = _
    rw [lookup_setEntry_self, map_some]
    exact congrArg some (congrArg Phase.state hp)

lemma Effect.due (h : Effect bc o id r) (ht : Table bc) (hak : AsksInTime r)
    (ha : a ∈ actionsOf r.1) : a.Due r.2 := by
  rcases h.speaks ha with ⟨msg, rfl⟩ | ⟨out, pk, endpoint, msg, rfl, hst⟩ | ⟨e, he, hs⟩
  · exact hak id msg ha
  · exact hst
  cases a with
  | performHandshake i msg => exact hak i msg ha
  | openNextHop => exact hs.elim
  | sendToNext out cell => exact ht.ne_zero he hs.1
  | forwardExtendFinishToNext out msg => exact ht.ne_zero he hs
  | sendToPrev | destroyPrevLink | destroyNextLink | relayPayloadAtExit | verifyExtendFinish =>
    trivial

end BridgeCircuitState

def BridgeAction.subject (bc : BridgeCircuitState) : BridgeAction → Option UInt32
  | .performHandshake i _ => some i
  | .sendToPrev i _ => some i
  | .openNextHop i _ _ _ _ => some i
  | .sendToNext out _ => bc.inCircIdFor out
  | .destroyPrevLink i => some i
  | .destroyNextLink out => bc.inCircIdFor out
  | .relayPayloadAtExit i _ => some i
  | .forwardExtendFinishToNext out _ => bc.inCircIdFor out
  | .verifyExtendFinish i _ => some i

end Mirage.Circuits

namespace Mirage.Bridge

open Circuits Words Maps Runs

lemma length_readCreatedConts {total : ℕ} : ∀ {cells : List Cell} {msg msg' : Bytes},
    readCreatedConts total msg cells = some msg' → msg.length ≤ total → msg'.length ≤ total
  | [], msg, msg', h, hle => by
    unfold readCreatedConts at h
    split_ifs at h
    obtain rfl := Option.some.inj h
    exact hle
  | cont :: cells, msg, msg', h, hle => by
    unfold readCreatedConts at h
    split_ifs at h with hm hc ho
    · refine length_readCreatedConts h ?_
      rw [List.length_append]
      exact Nat.not_lt.1 ho
    · obtain rfl := Option.some.inj h
      exact hle

lemma length_readCreated {cells : List Cell} {msg : Bytes} (h : readCreated cells = some msg) :
    msg.length ≤ maxHsMsg1Len := by
  unfold readCreated at h
  split at h
  · cases h
  split_ifs at h
  split at h
  · cases h
  · rename_i total chunk hd
    obtain ⟨hc, ht⟩ := HandshakeBody.bounds hd
    exact (length_readCreatedConts h hc).trans ht

variable {out : UInt32} {k : ℕ}

lemma BridgeCircuitExecutor.length_openNextHop {x : BridgeCircuitExecutor} {msg msg2 : Bytes}
    {answer : Option (List Cell)} (h : (x.openNextHop out msg answer).1 = some msg2) :
    msg2.length ≤ maxHsMsg1Len := by
  unfold openNextHop at h
  split_ifs at h
  split at h
  · rename_i hr
    obtain rfl := Option.some.inj h
    obtain ⟨cells, -, hc⟩ := Option.bind_eq_some_iff.1 hr
    exact length_readCreated hc
  · cases h

def Task.subject (bc : BridgeCircuitState) : Task → Option UInt32
  | .act a => a.subject bc
  | .inject c _ _ _ => some c
  | .sweep => none

def Task.Due (bc : BridgeCircuitState) : Task → Prop
  | .act a => a.Due bc
  | _ => True

lemma Task.Light.due {bc : BridgeCircuitState} {task : Task} (h : task.Light) : task.Due bc := by
  cases task with
  | act a => exact BridgeAction.Passive.due h
  | inject | sweep => trivial

namespace SessionTask

variable {A : Aead} {S : Ed25519} {t t' : SessionTask} {c : UInt32} {now : Instant}

/-- The session goes on, and only circuit `c` changes. -/
structure Spares (c : Option UInt32) (t t' : SessionTask) : Prop where
  result : t'.result = t.result
  entries : ∀ i, c ≠ some i → t'.state.circuits.lookup i = t.state.circuits.lookup i

lemma Spares.of_state {c : Option UInt32} (hr : t'.result = t.result)
    (hs : t'.state = t.state) : Spares c t t' :=
  ⟨hr, fun i _ => by rw [hs]⟩

variable {o : Order} {r : Reply} {cell : Cell}

lemma Spares.of_effect (he : BridgeCircuitState.Effect t.state o c r)
    (hr : t'.result = t.result) (hs : t'.state = r.2) : Spares (some c) t t' := by
  refine ⟨hr, fun i hi => ?_⟩
  rw [hs]
  exact he.lookup_ne fun h => hi (h ▸ rfl)

lemma Spares.of_same {t₀ : SessionTask} {c : Option UInt32} (h : Spares c t₀ t')
    (hr : t₀.result = t.result) (hs : t₀.state = t.state) : Spares c t t' :=
  ⟨h.result.trans hr, fun i hi => (h.entries i hi).trans (by rw [hs])⟩

lemma Spares.record {acts : List BridgeAction} (he : BridgeCircuitState.Effect t.state o c r)
    (hok : r.1 = .ok acts) : Spares (some c) t (t.record r) := by
  obtain ⟨_, bc⟩ := r
  obtain rfl := hok
  exact .of_effect he rfl rfl

lemma Spares.reapCircuit (hc : c ≠ 0) (now : Instant) :
    Spares (some c) t (t.reapCircuit A c now) := by
  have hn : Cell.new c cmdDestroy [] = .ok ⟨c, cmdDestroy, []⟩ :=
    Cell.new_eq_ok.2 ⟨hc, by simp, by decide, rfl⟩
  unfold SessionTask.reapCircuit
  simp only [hn]
  have he : BridgeCircuitState.Effect t.state _ c
      (t.state.processInboundFromPrev A ⟨c, cmdDestroy, []⟩ now) :=
    (BridgeCircuitState.processInboundFromPrev_does ⟨c, cmdDestroy, []⟩ now).effect
  exact .of_effect he rfl rfl

lemma Spares.reapCircuitByOutId {c : Option UInt32} (ho : out ≠ 0)
    (hc : t.state.inCircIdFor out = c) (now : Instant) :
    Spares c t (t.reapCircuitByOutId A out now) := by
  have hr := reaped (A := A) (t := t) ho now
  exact ⟨hr.result, fun i hi => hr.entries i fun h => hi (hc.symm.trans h)⟩

lemma Spares.sendRendezvousSub (cmd : UInt8) (body : Bytes) :
    Spares (some c) t (t.sendRendezvousSub A c cmd body now) := by
  unfold SessionTask.sendRendezvousSub
  split
  · exact .of_state rfl rfl
  · rename_i payload _
    exact .of_effect BridgeCircuitState.handleRelayFromNext_does.effect rfl rfl

lemma Spares.handleRendezvous (cmd : UInt8) (body : Bytes) :
    Spares (some c) t (t.handleRendezvous A S c cmd body now) := by
  unfold SessionTask.handleRendezvous
  split
  · exact .of_state rfl rfl
  dsimp only
  split_ifs
  · split
    · exact .of_same (.sendRendezvousSub _ _) rfl rfl
    · exact .of_state rfl rfl
  · split
    · exact .of_same (.sendRendezvousSub _ _) rfl rfl
    · exact .of_state rfl rfl
  · exact .of_state rfl rfl
  · exact .of_state rfl rfl
  · split <;> exact .of_state rfl rfl
  · exact .of_state rfl rfl

lemma Spares.exitPayload (hc : c ≠ 0) (payload : Bytes) (o : Outcome) :
    Spares (some c) t (t.exitPayload A c payload o) := by
  unfold SessionTask.exitPayload
  dsimp only
  split
  · exact .of_state rfl rfl
  · exact .of_same (.reapCircuit hc o.now) rfl rfl

lemma Spares.relayPayloadAtExit (hc : c ≠ 0) (payload : Bytes) (o : Outcome) :
    Spares (some c) t (t.relayPayloadAtExit A S c payload o) := by
  unfold SessionTask.relayPayloadAtExit
  split
  · exact .exitPayload hc payload o
  rename_i sub _
  split_ifs
  · exact .handleRendezvous _ _
  · exact .of_state rfl rfl
  have ht : (t.trackStream c sub).result = t.result := by
    obtain ⟨m, hm⟩ := t.trackStream_eq_with c sub
    rw [hm]
  exact .of_same (.exitPayload hc payload o) ht (trackStream_state c sub)

/-- The responder's own message, of 1189 bytes, is one that a `CREATED` can carry. -/
def OwnMessageFits : SessionEvent → Prop
  | .next o => ∀ p ∈ o.handshake, p.2.length ≤ maxHandshakeBodyLen
  | _ => True

/-- The answer of a next hop finds a count for each of its fragments. -/
def AnswerHasCounts (t : SessionTask) (o : Outcome) : Task → Prop
  | .act (.openNextHop c out _ _ msg) =>
    ∀ msg2 ∈ (t.executor.openNextHop out msg o.answer).1, ∀ e ∈ t.state.circuits.lookup c,
      e.extendViaRelay = true → e.reverseSeq + (flightCells msg2).length < 2 ^ 64
  | _ => True

/-- The answer to the next task finds counts left. -/
def CountsLeft (t : SessionTask) : SessionEvent → Prop
  | .next o => ∀ task ∈ t.agenda.head?, AnswerHasCounts t o task
  | _ => True

instance : DecidablePred OwnMessageFits := fun e => by
  induction e using SessionEvent.casesOn <;> delta OwnMessageFits <;> infer_instance

instance (t : SessionTask) (o : Outcome) : DecidablePred (AnswerHasCounts t o) := fun _ => by
  unfold AnswerHasCounts
  split <;> infer_instance

instance (t : SessionTask) : DecidablePred (CountsLeft t) := fun e => by
  induction e using SessionEvent.casesOn <;> delta CountsLeft <;> infer_instance

/-- What is on the agenda can be done. -/
structure Prompt (t : SessionTask) : Prop where
  table : t.state.Table
  keyed : t.state.Keyed
  orderly : t.Orderly
  due : ∀ task ∈ t.agenda, task.Due t.state

lemma due_of_light (h : t.AllLight) : ∀ task ∈ t.agenda, task.Due t.state :=
  fun task ht => (h task ht).due

lemma handleCell_due (htb : t.state.Table) (hi : t.agenda = []) (cell : Cell) :
    ∀ task ∈ (t.handleCell A cell now).agenda, task.Due (t.handleCell A cell now).state := by
  unfold handleCell
  split
  · rename_i acts bc heq
    intro task ht
    change task ∈ acts.map Task.act ++ t.agenda at ht
    rw [hi, List.append_nil] at ht
    obtain ⟨a, ha, rfl⟩ := List.mem_map.1 ht
    have he : BridgeCircuitState.Effect t.state _ cell.circId
        (t.state.processInboundFromPrev A cell now) :=
      (BridgeCircuitState.processInboundFromPrev_does cell now).effect
    have hak : BridgeCircuitState.AsksInTime (t.state.processInboundFromPrev A cell now) :=
      (BridgeCircuitState.processInboundFromPrev_does cell now).asks
    rw [heq] at he hak
    exact he.due htb hak ha
  · exact due_of_light (.executeActions (allLight_of_idle hi)
      BridgeCircuitState.reapCircuit_passive)

lemma Prompt.step (h : Prompt t) (e : SessionEvent) : Prompt (t.step A S e) := by
  have hcl := step_calls (A := A) (S := S) t e
  refine ⟨hcl.inv (fun bc c hbc _ => hbc.step c) h.table,
    hcl.inv (fun bc c hbc hc => hbc.step hc) h.keyed, h.orderly.step e, ?_⟩
  have hs := stepped (A := A) (S := S) t e
  generalize t.step A S e = t' at hs ⊢
  cases hs with
  | stay => exact h.due
  | arm a hr hi =>
    cases a with
    | cell buf now =>
      unfold takeArm
      dsimp only
      split
      · exact handleCell_due h.table hi _
      · exact due_of_light (.finish _)
    | eof | readFailed | readTimeout | exitEvent | nextHopCell | delivery | tick =>
      exact due_of_light (takeArm_light hi (by simp))
  | next o hr ha => exact due_of_light ((Worked.perform o _).light (h.orderly.rest ha))
  | around =>
    rw [around_agenda, around_state]
    exact h.due

lemma Spares.execute (hA : A.Lawful) (hk : t.state.Keyed) {a : BridgeAction} {o : Outcome}
    (hd : a.Due t.state) (ha : ∀ i ∈ a.actor, ∃ e, t.state.circuits.lookup i = some e)
    (ho : OwnMessageFits (.next o))
    (hc : ∀ i out pk endpoint msg, a = .openNextHop i out pk endpoint msg →
      ∀ msg2 ∈ (t.executor.openNextHop out msg o.answer).1, ∀ e ∈ t.state.circuits.lookup i,
        e.extendViaRelay = true → e.reverseSeq + (flightCells msg2).length < 2 ^ 64)
    (hw : ∀ i cell, a = .sendToPrev i cell → o.written = true) :
    Spares (a.subject t.state) t (t.execute A S o a) := by
  have hne : ∀ i ∈ a.actor, i ≠ 0 := by
    intro i hi
    obtain ⟨e, he⟩ := ha i hi
    exact (hk i e he).1
  cases a with
  | performHandshake i msg =>
    have hi := hne i rfl
    unfold SessionTask.execute
    cases hhs : o.handshake with
    | none => exact .of_same (.reapCircuit hi o.now) rfl rfl
    | some p =>
      obtain ⟨acts, hok⟩ :=
        BridgeCircuitState.recordCreateComplete_ok p.1 o.now hi hd (ho p hhs)
      exact .of_same (.record (BridgeCircuitState.recordCreateComplete_does _ _).effect hok) rfl rfl
  | sendToPrev i cell =>
    change Spares _ t (if o.written then _ else _)
    rw [if_pos (hw i cell rfl)]
    exact .of_state rfl rfl
  | openNextHop i out pk endpoint msg =>
    unfold SessionTask.execute
    dsimp only
    split
    · rename_i msg2 hm2
      have hl : msg2.length ≤ 65535 :=
        (BridgeCircuitExecutor.length_openNextHop hm2).trans (by decide)
      obtain ⟨acts, hok⟩ := BridgeCircuitState.recordExtendComplete_ok o.now hA hk hd hl
        (hc i out pk endpoint msg rfl msg2 hm2)
      exact .of_same (.record (BridgeCircuitState.recordExtendComplete_does _).effect hok) rfl rfl
    · exact .of_same (.reapCircuit (hne i rfl) o.now) rfl rfl
  | sendToNext out cell | forwardExtendFinishToNext out msg =>
    unfold SessionTask.execute
    dsimp only
    split_ifs
    · exact .of_state rfl rfl
    · exact .of_same (.reapCircuitByOutId hd (by rfl) o.now) rfl rfl
  | verifyExtendFinish i msg =>
    obtain ⟨e, he⟩ := ha i rfl
    unfold SessionTask.execute BridgeCircuitState.recordTokenVerified
    simp only [he]
    split_ifs
    · exact ⟨rfl, fun j hj =>
        BridgeCircuitState.lookup_setEntry_ne (fun hji => hj (congrArg some hji.symm))⟩
    · exact .of_same (.reapCircuit (hne i rfl) o.now) rfl rfl
  | destroyPrevLink | destroyNextLink => exact .of_state rfl rfl
  | relayPayloadAtExit i payload => exact .relayPayloadAtExit (hne i rfl) payload o

lemma Spares.injectNext (u : ℕ) (payloads : List Bytes) :
    Spares (some c) t (t.injectNext A c u now payloads) := by
  cases payloads with
  | nil => exact .of_state rfl rfl
  | cons p ps =>
    have he : BridgeCircuitState.Effect t.state .reply c
        (t.state.injectExitResponse A c p now) :=
      BridgeCircuitState.handleRelayFromNext_does.effect
    unfold SessionTask.injectNext
    dsimp only
    split
    · rename_i hr
      refine .of_effect he rfl ?_
      exact (congrArg Prod.snd hr).symm
    · rename_i hr
      exact .of_effect he rfl (congrArg Prod.snd hr).symm

lemma Spares.handleCell (cell : Cell) : Spares (some cell.circId) t (t.handleCell A cell now) := by
  have he : BridgeCircuitState.Effect t.state _ cell.circId
      (t.state.processInboundFromPrev A cell now) :=
    (BridgeCircuitState.processInboundFromPrev_does cell now).effect
  unfold SessionTask.handleCell
  split
  · rename_i hr
    exact .of_effect he rfl (congrArg Prod.snd hr).symm
  rename_i err bc hr
  rw [hr] at he
  refine ⟨rfl, fun i hi => ?_⟩
  have hne : i ≠ cell.circId := fun h => hi (congrArg some h.symm)
  refine .trans ?_ (he.lookup_ne hne)
  exact (BridgeCircuitState.reapCircuit_does now).effect.lookup_ne hne

lemma Spares.handleNextHopCell {inbound : List (UInt32 × Cell)}
    (hin : t.executor.inbound = (out, cell) :: inbound) (hid : cell.circId ≠ 0) (now : Instant) :
    Spares (t.state.inCircIdFor cell.circId) t (t.handleNextHopCell A now) := by
  have he : ∀ i, t.state.inCircIdFor cell.circId ≠ some i →
      (t.state.processInboundFromNext A cell now).2.circuits.lookup i =
        t.state.circuits.lookup i := fun i hi => lookup_of_next hi
  have hix : (t.state.processInboundFromNext A cell now).2.outToIn = t.state.outToIn :=
    BridgeCircuitState.outToIn_of_next
  unfold SessionTask.handleNextHopCell
  rw [hin]
  dsimp only
  split
  · rename_i hr
    rw [hr] at he
    exact ⟨rfl, he⟩
  rename_i err bc hr
  rw [hr] at he hix
  have hrp : Spares (t.state.inCircIdFor cell.circId)
      { t with executor := { t.executor with inbound := inbound }, state := bc } _ :=
    .reapCircuitByOutId (A := A) hid (congrArg (AList.lookup cell.circId) hix) now
  exact ⟨hrp.result, fun i hi => (hrp.entries i hi).trans (he i hi)⟩

lemma handleExitEvent_result : (t.handleExitEvent now).result = t.result := by
  unfold handleExitEvent
  split
  · rfl
  dsimp only
  split
  · rfl
  · rw [encodeExitEventChunked_eq]

/-- Only a cell that cannot be written back ends the session, and only one circuit changes. -/
def FaultsLocal (A : Aead) (S : Ed25519) (t : SessionTask) (e : SessionEvent) : Prop :=
  t.result = none → match e with
    | .next o => ∀ task rest, t.agenda = task :: rest →
      ((t.step A S e).result = none ∨
        (∃ i cell, task = .act (.sendToPrev i cell)) ∧ o.written = false ∧
          (t.step A S e).result = some (.error .io)) ∧
      ∀ i, task.subject t.state ≠ some i →
        (t.step A S e).state.circuits.lookup i = t.state.circuits.lookup i
    | .arm (.exitEvent _) =>
      (t.step A S e).result = none ∧ (t.step A S e).state = t.state
    | .arm (.cell buf _) => t.agenda = [] → ∀ cell, Cell.decode buf = .ok cell →
      Spares (some cell.circId) t (t.step A S e)
    | .arm (.nextHopCell _) => t.agenda = [] → ∀ p ∈ t.executor.inbound.head?, p.2.Valid →
      Spares (t.state.inCircIdFor p.2.circId) t (t.step A S e)
    | _ => True

lemma Prompt.next (hA : A.Lawful) (h : Prompt t) {task : Task} {rest : List Task}
    (hag : t.agenda = task :: rest) {o : Outcome} (ho : OwnMessageFits (.next o))
    (hc : CountsLeft t (.next o)) :
    Spares (task.subject t.state) t (perform A S { t with agenda := rest } o task) ∨
      (∃ i cell, task = .act (.sendToPrev i cell)) ∧ o.written = false ∧
        perform A S { t with agenda := rest } o task =
          { t with agenda := rest }.finish (.error .io) := by
  cases task with
  | inject c u now payloads => exact .inl (.of_same (.injectNext u payloads) rfl rfl)
  | sweep => exact .inl (.of_state rfl rfl)
  | act a =>
    by_cases hw : ∀ i cell, a = .sendToPrev i cell → o.written = true
    · refine .inl (.of_same (.execute (t := { t with agenda := rest }) hA h.keyed ?_ ?_ ho ?_
        hw) rfl rfl)
      · exact h.due (.act a) (hag ▸ List.mem_cons_self)
      · intro i hi
        have ha : ¬ a.Passive := by
          intro hp
          cases a with
          | sendToPrev | destroyPrevLink | destroyNextLink => cases hi
          | performHandshake | openNextHop | sendToNext | relayPayloadAtExit
          | forwardExtendFinishToNext | verifyExtendFinish => exact hp
        obtain ⟨e, he, -⟩ := (h.orderly.ready hag ha).2.alive i hi
        exact ⟨e, he⟩
      · rintro i out pk endpoint msg rfl
        exact hc _ (by rw [hag]; rfl)
    · push Not at hw
      obtain ⟨i, cell, rfl, hf⟩ := hw
      refine .inr ⟨⟨i, cell, rfl⟩, by simpa using hf, ?_⟩
      change (if o.written then _ else _) = _
      rw [if_neg hf]

lemma Prompt.faultsLocal (hA : A.Lawful) (h : Prompt t) {e : SessionEvent}
    (ho : OwnMessageFits e) (hc : CountsLeft t e) : FaultsLocal A S t e := by
  intro hr
  cases e with
  | next o =>
    intro task rest ha
    have hs : t.step A S (.next o) = perform A S { t with agenda := rest } o task := by
      unfold SessionTask.step SessionTask.next
      simp [hr, ha]
    rw [hs]
    rcases h.next hA ha ho hc with hsp | ⟨hsn, hf, he⟩
    · exact ⟨.inl (hsp.result.trans hr), hsp.entries⟩
    · rw [he]
      exact ⟨.inr ⟨hsn, hf, rfl⟩, fun _ _ => rfl⟩
  | arm a =>
    have hs : t.agenda = [] → t.step A S (.arm a) = t.takeArm A a := by
      intro hi
      unfold SessionTask.step
      simp [hr, hi]
    cases a with
    | cell buf now =>
      intro hi cell hcl
      have har : t.takeArm A (.cell buf now) = t.handleCell A cell now := by
        unfold takeArm
        simp [hcl]
      rw [hs hi, har]
      exact .handleCell cell
    | nextHopCell now =>
      intro hi p hp hv
      obtain ⟨inbound, hin⟩ := List.head?_eq_some_iff.1 hp
      rw [hs hi]
      exact .handleNextHopCell hin hv.circId_ne now
    | exitEvent now =>
      by_cases hi : t.agenda = []
      · rw [hs hi]
        exact ⟨(handleExitEvent_result).trans hr, handleExitEvent_state now⟩
      have hst : t.step A S (.arm (.exitEvent now)) = t := by
        unfold SessionTask.step
        simp [hr, hi]
      rw [hst]
      exact ⟨hr, rfl⟩
    | eof | readFailed | readTimeout | delivery | tick => trivial
  | exitPump | arrive | linkClosed | other => trivial

lemma prompt_start (policy : BridgePolicy) (picker : UInt64 → UInt32) (seq : UInt64)
    (relayMode : Bool) (executor : BridgeCircuitExecutor) (router : Option RendezvousRouter) :
    Prompt (start (.start policy picker seq relayMode) executor router) := by
  have hl : (start (.start policy picker seq relayMode) executor router).AllLight :=
    allLight_of_idle (start_agenda _ _ _)
  refine ⟨?_, ?_, .inl hl, due_of_light hl⟩
  · rw [start_state]
    exact ⟨indexes_empty, rfl, fun _ _ he => by cases he⟩
  · rw [start_state]
    exact fun _ _ he => by cases he

/-- If answers find counts left, only a cell that cannot be written back ends the session. -/
theorem faults_local (A : Aead) (hA : A.Lawful) (S : Ed25519) (policy : BridgePolicy)
    (picker : UInt64 → UInt32) (seq : UInt64) (relayMode : Bool)
    (executor : BridgeCircuitExecutor) (router : Option RendezvousRouter)
    (events : List SessionEvent) (hown : ∀ e ∈ events, OwnMessageFits e)
    (hcounts : Along (step A S) CountsLeft
      (start (.start policy picker seq relayMode) executor router) events) :
    Along (step A S) (FaultsLocal A S)
      (start (.start policy picker seq relayMode) executor router) events :=
  along_of_inv (fun _ e ht _ => ht.step e)
    (fun _ _ ht he => ht.faultsLocal hA he.1 he.2) _ events
    (prompt_start policy picker seq relayMode executor router) (along_and_of_forall hown hcounts)

open TcpStreamDispatcher (beginPayload)

def oneStream : List SessionEvent := openCircuit 1 ++ relayIn 1 (beginPayload 1)

def servedEntry (k : ℕ) : CircuitEntry :=
  ⟨none, .open, some HopKeys.blank, 1, k, 0, 0, none, none, none, true, false⟩

def servedBridge (k : ℕ) : BridgeCircuitState :=
  (run (step Aead.plain anySignature) plainSession oneStream).state.setEntry 1 (servedEntry k)

structure Serving (t : SessionTask) (k : ℕ) : Prop where
  running : t.result = none
  idle : t.agenda = []
  state : t.state = servedBridge k
  stream : t.streamToCirc.lookup 1 = some 1
  upstream : ∃ up, t.executor.dispatcher.upstreams[0]? = some up ∧ up.pump = .running ∧
    up.streamId = 1
  listening : t.executor.dispatcher.listening = true
  events : t.executor.dispatcher.events = []
  dialer : t.executor.dialer = true

lemma serving_oneStream :
    Serving (run (step Aead.plain anySignature) plainSession oneStream) 0 := by
  have he :
      (run (step Aead.plain anySignature) plainSession oneStream).state.circuits.entries =
        [⟨1, servedEntry 0⟩] := by decide +kernel
  have hs : (servedBridge 0).circuits.entries = [⟨1, servedEntry 0⟩] := by decide +kernel
  have hc : (servedBridge 0).circuits =
      (run (step Aead.plain anySignature) plainSession oneStream).state.circuits :=
    AList.ext (hs.trans he.symm)
  have hu : ((run (step Aead.plain anySignature) plainSession
      oneStream).executor.dispatcher.upstreams[0]?.map fun up => (up.pump, up.streamId)) =
      some (.running, 1) := by decide +kernel
  refine ⟨by decide +kernel, by decide +kernel, ?_, by decide +kernel, ?_, by decide +kernel,
    by decide +kernel, by decide +kernel⟩
  · change _ = { (run (step Aead.plain anySignature) plainSession oneStream).state with
      circuits := (servedBridge 0).circuits }
    rw [hc]
  · obtain ⟨up, hup, heq⟩ := Option.map_eq_some_iff.1 hu
    exact ⟨up, hup, (Prod.mk.inj heq).1, (Prod.mk.inj heq).2⟩

def oneReply : List SessionEvent :=
  [.exitPump (.read 0 [0]), .arm (.exitEvent 0), .next fine, .next fine, .next fine]

def bytePayload : Bytes := [cmdData, 0, 3, 0, 1, 0]

lemma injectExitResponse_served (hk : k + 1 < 2 ^ 64) :
    ∃ cell, (servedBridge k).injectExitResponse Aead.plain 1 bytePayload 0 =
      (.ok [.sendToPrev 1 cell], servedBridge (k + 1)) := by
  have hl : (servedBridge k).circuits.lookup 1 = some (servedEntry k) :=
    BridgeCircuitState.lookup_setEntry_self
  have hn : (servedBridge k).setEntry 1
      { servedEntry k with reverseSeq := k + 1, lastActivity := 0 } = servedBridge (k + 1) := by
    exact BridgeCircuitState.setEntry_setEntry
  rw [← hn]
  exact ⟨_, BridgeCircuitState.handleRelayFromNext_eq Aead.plain_lawful (by decide) hl rfl rfl hk
    (by decide)⟩

lemma inject_served (hk : k + 1 < 2 ^ 64) (hr : t.result = none)
    (ha : t.agenda = [.inject 1 0 0 [bytePayload]]) (hs : t.state = servedBridge k) :
    ∃ written injected, run (step Aead.plain anySignature) t [.next fine, .next fine, .next fine] =
      { t with
        state := servedBridge (k + 1)
        agenda := []
        written := written
        injected := injected } := by
  obtain ⟨cell, hc⟩ := injectExitResponse_served hk
  refine ⟨t.written ++ [cell], t.injected ++ [⟨1, 0, bytePayload⟩], ?_⟩
  have hsl : t.step Aead.plain anySignature (.next fine) =
      { t with
        agenda := [.act (.sendToPrev 1 cell), .inject 1 0 0 []]
        state := servedBridge (k + 1)
        injected := t.injected ++ [⟨1, 0, bytePayload⟩] } := by
    unfold step next
    simp only [hr, ha, perform, injectNext, hs, hc]
    rfl
  rw [run_cons, hsl]
  cases t
  cases hr
  rfl

lemma Serving.pump (h : Serving t k) : t.executor.dispatcher.pump (.read 0 [0]) =
      { t.executor.dispatcher.setUpstream 0 (fun up => { up with read := up.read ++ [[0]] }) with
        events := [(0, .data 1 [0])] } := by
  obtain ⟨up, hup, hp, hid⟩ := h.upstream
  have hat : t.executor.dispatcher.pumpAt 0 .running = some up := by
    unfold TcpStreamDispatcher.pumpAt
    rw [hup, Option.filter_eq_some_iff]
    exact ⟨rfl, by simp [hp]⟩
  have hem : ∀ d : TcpStreamDispatcher, d.listening = true → d.events = [] →
      d.emit 0 (.data 1 [0]) = { d with events := [(0, .data 1 [0])] } := by
    intro d hl he
    unfold TcpStreamDispatcher.emit
    rw [if_pos hl, he, List.nil_append]
  change t.executor.dispatcher.pumpRead 0 [0] = _
  unfold TcpStreamDispatcher.pumpRead
  rw [hat]
  dsimp only
  rw [if_neg (by decide), if_pos h.listening, hid]
  exact hem _ h.listening h.events

lemma Serving.reply (h : Serving t k) (hk : k + 1 < 2 ^ 64) :
    Serving (run (step Aead.plain anySignature) t oneReply) (k + 1) := by
  have hp : t.step Aead.plain anySignature (.exitPump (.read 0 [0])) =
      { t with executor := { t.executor with
        dispatcher := t.executor.dispatcher.pump (.read 0 [0]) } } := by
    unfold step
    rw [if_neg (by simp [h.running])]
    rfl
  let d := t.executor.dispatcher.setUpstream 0 fun up => { up with read := up.read ++ [[0]] }
  let t' : SessionTask := { t with
    executor := { t.executor with dispatcher := { d with events := [] } }
    agenda := [.inject 1 0 0 [bytePayload]] }
  have he : run (step Aead.plain anySignature) t
      [.exitPump (.read 0 [0]), .arm (.exitEvent 0)] = t' := by
    rw [run_cons, run_cons, run_nil, hp, h.pump]
    unfold step
    rw [if_neg (by simp [h.running])]
    dsimp only
    rw [if_pos h.idle]
    unfold takeArm handleExitEvent
    simp only [StreamEvent.streamId, h.stream, encodeExitEventChunked_eq]
    rfl
  obtain ⟨written, injected, hr⟩ := inject_served (t := t') hk h.running rfl h.state
  have ha : run (step Aead.plain anySignature) t oneReply =
      { t' with
        state := servedBridge (k + 1)
        agenda := []
        written := written
        injected := injected } := by
    rw [← hr, ← he, ← run_append]
    rfl
  rw [ha]
  obtain ⟨up, hup, hu'⟩ := h.upstream
  refine ⟨h.running, rfl, rfl, h.stream, ?_, h.listening, rfl, h.dialer⟩
  refine ⟨{ up with read := up.read ++ [[0]] }, ?_, hu'⟩
  change (t.executor.dispatcher.upstreams.modify 0 _)[0]? = _
  rw [List.getElem?_modify, hup]
  rfl

lemma serving_reachable : ∀ k, k < 2 ^ 64 →
    ∃ events, Serving (run (step Aead.plain anySignature) plainSession events) k
  | 0, _ => ⟨oneStream, serving_oneStream⟩
  | k + 1, hk => by
    obtain ⟨events, h⟩ := serving_reachable k (by omega)
    refine ⟨events ++ oneReply, ?_⟩
    rw [run_append]
    exact h.reply hk

def extendRelayed : Cell :=
  ⟨1, cmdRelay, [cmdExtend, 0, 41] ++ List.replicate 32 0 ++ [1, 127, 0, 0, 1, 0, 80, 0, 0] ++
    List.replicate 16 0⟩

lemma extendRelayed_asks :
    ((servedBridge (2 ^ 64 - 1)).processInboundFromPrev Aead.plain extendRelayed 0).1 =
      .ok [.openNextHop 1 2 (Vector.replicate 32 0) (.ipv4 ⟨#[127, 0, 0, 1], rfl⟩ 80) []] := by
  decide +kernel

lemma extendRelayed_exhausted :
    (((servedBridge (2 ^ 64 - 1)).processInboundFromPrev Aead.plain extendRelayed
      0).2.recordExtendComplete Aead.plain 1 [] 0).1 = .error (.seqExhausted 1) := by
  decide +kernel

lemma openNextHop_fine {x : BridgeCircuitExecutor} (h : x.dialer = true) :
    (x.openNextHop 2 [] fine.answer).1 = some [] := by
  obtain ⟨cells, hc⟩ : ∃ cells, createFlight 2 [] = some cells := ⟨_, rfl⟩
  have hr : fine.answer.bind readCreated = some [] := by decide
  unfold BridgeCircuitExecutor.openNextHop
  simp [h, hc, hr]

lemma record_error {err : BridgeCircuitError} (h : r.1 = .error err) :
    (t.record r).result = some (.error (.bridge err)) := by
  obtain ⟨_, bc⟩ := r
  obtain rfl := h
  rfl

lemma step_cellIn (hv : cell.Valid) (hr : t.result = none) (hi : t.agenda = []) :
    t.step A S (cellIn cell.circId cell.command cell.body) = t.handleCell A cell 0 := by
  have hd : Cell.decode (Cell.encode ⟨cell.circId, cell.command, cell.body⟩
      (List.replicate (maxCellPayload - cell.body.length) 0)) = .ok cell :=
    Cell.decode_encode hv (by simp)
  unfold step cellIn
  rw [if_neg (by simp [hr])]
  dsimp only
  rw [if_pos hi]
  unfold takeArm
  simp [hd]

lemma Serving.extend (h : Serving t (2 ^ 64 - 1)) :
    t.step Aead.plain anySignature (cellIn 1 cmdRelay extendRelayed.body) =
      { t with
        state := ((servedBridge (2 ^ 64 - 1)).processInboundFromPrev Aead.plain extendRelayed 0).2
        agenda :=
          [.act (.openNextHop 1 2 (Vector.replicate 32 0) (.ipv4 ⟨#[127, 0, 0, 1], rfl⟩ 80) [])]
        lives := t.countLife 1
          ((servedBridge (2 ^ 64 - 1)).processInboundFromPrev Aead.plain extendRelayed 0).2 } := by
  have hv : extendRelayed.Valid := ⟨by decide, by decide, by decide⟩
  have ha := extendRelayed_asks
  refine (step_cellIn hv h.running h.idle).trans ?_
  unfold handleCell
  rw [h.state]
  generalize (servedBridge (2 ^ 64 - 1)).processInboundFromPrev Aead.plain extendRelayed 0 = r at *
  obtain ⟨_, bc⟩ := r
  obtain rfl := ha
  rw [h.idle]
  rfl

lemma Serving.ends (h : Serving t (2 ^ 64 - 1)) :
    ((t.step Aead.plain anySignature (cellIn 1 cmdRelay extendRelayed.body)).step Aead.plain
      anySignature (.next fine)).result = some (.error (.bridge (.seqExhausted 1))) := by
  rw [h.extend]
  unfold step next
  rw [if_neg (by simp [h.running])]
  dsimp only [perform, execute]
  rw [openNextHop_fine h.dialer]
  exact record_error extendRelayed_exhausted

/-- After `2 ^ 64 - 1` answers the circuit is extended, and the session ends for want of a count. -/
theorem exhausted_ends_session : ∃ events : List SessionEvent,
    (run (step Aead.plain anySignature) plainSession events).result = none ∧
    (run (step Aead.plain anySignature) plainSession (events ++ [.next fine])).result =
      some (.error (.bridge (.seqExhausted 1))) := by
  obtain ⟨events, h⟩ := serving_reachable (2 ^ 64 - 1) (by decide)
  refine ⟨events ++ [cellIn 1 cmdRelay extendRelayed.body], ?_, ?_⟩
  · rw [run_append, run_cons, run_nil, h.extend]
    exact h.running
  · rw [run_append, run_append]
    exact h.ends

def oneExtended : List SessionEvent :=
  openCircuit 1 ++ openCircuit 2 ++
    [cellIn 1 cmdRelay extendRelayed.body, .next fine, .next fine,
      cellIn 2 cmdExtend (List.replicate 32 0 ++ [1, 127, 0, 0, 1, 0, 80, 0, 0])]

theorem faults_local_undialed :
    let t := run (step Aead.plain anySignature) plainSession oneExtended
    t.state.circuitState 1 = some .open ∧ t.state.circuitState 2 = some .extending ∧
      FaultsLocal Aead.plain anySignature t (.next { fine with answer := none }) := by
  intro t
  have h := faults_local Aead.plain Aead.plain_lawful anySignature .default
    sequentialOutCircIdPicker 0 false (.new .default true false) none
    (oneExtended ++ [.next { fine with answer := none }]) (by decide +kernel) (by decide +kernel)
  exact ⟨by decide +kernel, by decide +kernel, (along_append.1 h).2.1⟩

end SessionTask

end Mirage.Bridge
