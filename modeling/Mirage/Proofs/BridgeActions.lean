import Mirage.Proofs.BridgeSteps

/-!
# The actions of one call

A reply is one action that its circuit is ready for, or actions that ask nothing of the state
machine again (`Tame`).
-/

namespace Mirage.Circuits

open Words Maps Option

/-- The action is for the previous hop and about circuit `id`. -/
def BridgeAction.Answers (id : UInt32) : BridgeAction → Prop
  | .sendToPrev i cell => i = id ∧ cell.circId = id
  | .destroyPrevLink i => i = id
  | _ => False

variable {a : BridgeAction} {now : Instant} {actions : CircuitEntry → List BridgeAction}
  {cell : Cell} {i : UInt32}

lemma BridgeAction.Answers.passive {id : UInt32} (h : a.Answers id) : a.Passive := by
  cases a with
  | sendToPrev | destroyPrevLink | destroyNextLink => trivial
  | performHandshake | openNextHop | sendToNext | relayPayloadAtExit
  | forwardExtendFinishToNext | verifyExtendFinish => cases h

def BridgeAction.actor : BridgeAction → Option UInt32
  | .performHandshake id _ => some id
  | .openNextHop id _ _ _ _ => some id
  | .relayPayloadAtExit id _ => some id
  | .verifyExtendFinish id _ => some id
  | _ => none

/-- The id toward the next hop of an action that goes there for a circuit. -/
def BridgeAction.onward : BridgeAction → Option UInt32
  | .sendToNext out _ => some out
  | .forwardExtendFinishToNext out _ => some out
  | _ => none

namespace BridgeCircuitState

variable {A : Aead} {bc : BridgeCircuitState} {o : Order} {id : UInt32} {r : Reply}

/-- The circuit is in the table and has not been torn down. -/
def Alive (bc : BridgeCircuitState) (id : UInt32) : Prop :=
  ∃ e, bc.circuits.lookup id = some e ∧ e.state ≠ .destroyed

instance (bc : BridgeCircuitState) (id : UInt32) : Decidable (bc.Alive id) :=
  match h : bc.circuits.lookup id with
  | none => isFalse fun ⟨e, he, _⟩ => by rw [h] at he; cases he
  | some e =>
    decidable_of_iff (e.state ≠ .destroyed)
      ⟨fun hs => ⟨e, h, hs⟩, fun ⟨e', he', hs⟩ => by rw [h] at he'; cases he'; exact hs⟩

/-- The circuit goes on under `out`. -/
def Extends (bc : BridgeCircuitState) (out id : UInt32) : Prop :=
  ∃ e, bc.circuits.lookup id = some e ∧ e.outCircId = some out

/-- A link is being opened for the circuit under that id. -/
def Dials (bc : BridgeCircuitState) (out id : UInt32) : Prop :=
  ∃ e, bc.circuits.lookup id = some e ∧ e.state = .extending ∧ e.outCircId = some out

/-- The circuit is there, and that is its id toward the next hop. -/
def Leads (bc : BridgeCircuitState) (out id : UInt32) : Prop :=
  ∃ e, bc.circuits.lookup id = some e ∧ e.state ≠ .destroyed ∧ e.outCircId = some out

/-- The circuit of an action is there, waits for the id of the link, and has the id it sends to. -/
structure Ready (bc : BridgeCircuitState) (a : BridgeAction) : Prop where
  alive : ∀ i ∈ a.actor, bc.Alive i
  linked : ∀ i out pk endpoint msg, a = .openNextHop i out pk endpoint msg → bc.Dials out i
  onward : ∀ out ∈ a.onward, ∃ i, bc.Leads out i

/-- The actions ask nothing of the state machine again, or the only one is ready. -/
def Tame (r : Reply) : Prop :=
  (∀ a ∈ actionsOf r.1, a.Passive) ∨ ∃ a, actionsOf r.1 = [a] ∧ r.2.Ready a

lemma tame_nil : Tame (.ok [], bc) := .inl (by simp [actionsOf])

variable {e : CircuitEntry} {p : Phase} {order : List UInt32}

lemma tame_setEntry (hac : ∀ i ∈ a.actor, i = id)
    (ho : ∀ i out pk endpoint msg, a ≠ .openNextHop i out pk endpoint msg)
    (hon : ∀ out ∈ a.onward, e.outCircId = some out)
    (he : e.state ≠ .destroyed) : Tame (.ok [a], bc.setEntry id e) := by
  refine .inr ⟨a, rfl, fun i hi => ?_, fun i out pk endpoint msg ha => ?_, fun out hout => ?_⟩
  · rw [hac i hi]
    exact ⟨e, lookup_setEntry_self, he⟩
  · exact absurd ha (ho i out pk endpoint msg)
  · exact ⟨id, e, lookup_setEntry_self, he, hon out hout⟩

lemma Speaks.actor (h : bc.Speaks o id p a) : ∀ i ∈ a.actor, i = id := by
  rintro i hi
  cases a with
  | performHandshake | verifyExtendFinish => exact (some.inj hi).symm.trans h
  | relayPayloadAtExit => exact (some.inj hi).symm.trans h.1
  | openNextHop => exact h.elim
  | sendToPrev | sendToNext | destroyPrevLink | destroyNextLink | forwardExtendFinishToNext =>
    cases hi

lemma Speaks.onward (h : bc.Speaks o id p a) : ∀ out ∈ a.onward, p.out = some out := by
  rintro out hout
  cases a with
  | sendToNext => exact h.1.trans hout
  | forwardExtendFinishToNext => exact h.trans hout
  | performHandshake | openNextHop | sendToPrev | destroyPrevLink | destroyNextLink
  | relayPayloadAtExit | verifyExtendFinish => cases hout

lemma Turn.out_eq {p' : Phase} (h : Turn bc o p p') : p'.out = p.out := by cases h <;> rfl

lemma Returns.answers (h : Returns id a) : a.Answers id := by
  obtain ⟨cell, rfl, hid⟩ := h
  exact ⟨rfl, hid⟩

lemma Does.tame (h : Does bc o id r) : Tame r := by
  cases h with
  | refused err => exact .inl (by simp [actionsOf])
  | idle => exact tame_nil
  | made now ho hnw hc hr hb hac =>
    rcases hac with rfl | ⟨msg, rfl⟩
    · exact tame_nil
    · exact tame_setEntry (by simp [BridgeAction.actor]) (by simp) (by simp [BridgeAction.onward])
        (by simp [freshEntry])
  | quiet seq hn => exact .inl (by simp [hn])
  | asked he ht ho hl hs =>
    refine tame_setEntry hs.actor ?_ (fun out hout => ht.out_eq.trans (hs.onward out hout)) hl
    rintro i out pk endpoint msg rfl
    exact hs
  | answered he ht ho hac => exact .inl fun a ha => (hac a ha).answers.passive
  | ended he ht ho hac => exact .inl fun a ha => (hac a ha).1
  | linked seq pk endpoint msg he hst had hne hf hp =>
    have het := congrArg Phase.state hp
    refine .inr ⟨_, rfl, fun i hi => ?_, fun i out pk endpoint msg ha => ?_, fun _ ho => ?_⟩
    · obtain rfl := some.inj hi
      exact ⟨_, lookup_setEntry_self, fun hd => absurd (het.symm.trans hd) (by simp)⟩
    · obtain ⟨rfl, rfl, -⟩ := BridgeAction.openNextHop.inj ha
      exact ⟨_, lookup_setEntry_self, het, congrArg Phase.out hp⟩
    · cases ho

lemma Does.answers (h : Does bc o id r) (ho : o.answers = true) :
    ∀ a ∈ actionsOf r.1, a.Answers id := by
  cases h with
  | refused | idle => simp [actionsOf]
  | made now hc =>
    subst hc
    cases ho
  | quiet seq hn => simp [hn]
  | asked he ht hno => exact absurd (ho.symm.trans hno) (by simp)
  | answered he ht _ hac => exact fun a ha => (hac a ha).answers
  | ended he ht hen =>
    subst hen
    cases ho
  | linked seq pk endpoint msg he hs had =>
    have hno := Order.not_answers (had.elim (fun h => by rw [h.1]; rfl) Completes.disrupts)
    exact absurd (ho.symm.trans hno) (by simp)

lemma tombstone_passive (h : ∀ e, ∀ a ∈ actions e, a.Passive) :
    ∀ a ∈ (bc.tombstone id now actions).1, a.Passive := by
  unfold tombstone
  split
  · simp
  · exact h _

lemma handleDestroyFromPrev_passive : ∀ a ∈ (bc.handleDestroyFromPrev id now).1, a.Passive := by
  refine tombstone_passive fun e a ha => ?_
  have hs : a.Passive ∧ bc.Speaks .teardown id e.phase a := destroyActions_speaks e a ha
  exact hs.1

lemma reapCircuit_passive : ∀ a ∈ (bc.reapCircuit id now).1, a.Passive :=
  handleDestroyFromPrev_passive

lemma handleDestroyFromNext_answers : ∀ a ∈ (bc.handleDestroyFromNext id now).1, a.Answers id := by
  intro a ha
  unfold handleDestroyFromNext tombstone at ha
  split at ha
  · cases ha
  dsimp only at ha
  split_ifs at ha
  · cases ha
  · obtain rfl := List.mem_singleton.1 ha
    rfl

lemma tick_passive : ∀ a ∈ (bc.tick order now).1, a.Passive := by
  intro a ha
  rcases tick_actions a ha with ⟨i, rfl⟩ | ⟨out, rfl⟩ <;> trivial

lemma processInboundFromNext_none (now : Instant) (hid : bc.outToIn.lookup cell.circId = none) :
    bc.processInboundFromNext A cell now = (.error (.unknownCircuit cell.circId), bc) :=
  call_fromNext_none hid

lemma processInboundFromNext_destroy (hid : bc.outToIn.lookup cell.circId = some id)
    (hc : cell.command = cmdDestroy) : bc.processInboundFromNext A cell now =
      (.ok (bc.handleDestroyFromNext id now).1, (bc.handleDestroyFromNext id now).2) := by
  unfold processInboundFromNext
  simp only [hid, hc]
  rfl

lemma processInboundFromNext_answers (now : Instant)
    (hid : bc.outToIn.lookup cell.circId = some id) :
    ∀ a ∈ actionsOf (bc.processInboundFromNext A cell now).1, a.Answers id := by
  by_cases hc : cell.command = cmdDestroy
  · rw [processInboundFromNext_destroy hid hc]
    exact handleDestroyFromNext_answers
  · refine (processInboundFromNext_does cell now hid).answers ?_
    unfold nextOrder
    split_ifs <;> rfl

lemma processInboundFromNext_passive :
    ∀ a ∈ actionsOf (bc.processInboundFromNext A cell now).1, a.Passive := by
  cases hid : bc.outToIn.lookup cell.circId with
  | none => simp [processInboundFromNext_none now hid, actionsOf]
  | some i => exact fun a ha => (processInboundFromNext_answers now hid a ha).passive

lemma Effect.outToIn_eq (h : Effect bc o id r) (ho : o.disrupts = true → o = .teardown) :
    r.2.outToIn = bc.outToIn := by
  cases h with
  | idle | made | turned => rfl
  | linked seq pk endpoint msg he hs ha =>
    rcases ha with ⟨rfl, -⟩ | hc
    · exact absurd (ho rfl) (by simp)
    · obtain rfl := ho hc.disrupts
      cases hc

lemma prev_makes (hn : bc.circuits.lookup cell.circId = none)
    (hm : ((bc.processInboundFromPrev A cell now).2.circuits.lookup cell.circId).isSome = true) :
    cell.command = cmdCreate := by
  have hc : bc.prevOrder A cell now = .create := by
    have hef : Effect bc (bc.prevOrder A cell now) cell.circId
        (bc.processInboundFromPrev A cell now) := (processInboundFromPrev_does cell now).effect
    generalize bc.processInboundFromPrev A cell now = r at hef hm
    cases hef with
    | idle =>
      rw [hn] at hm
      cases hm
    | made now ho => exact ho
    | turned seq he | linked seq pk endpoint msg he => exact absurd (hn.symm.trans he) (by simp)
  have hr : bc.relayOrder A cell.circId cell.body now = .pass := by
    unfold relayOrder peelRelay
    rw [hn]
  unfold prevOrder at hc
  split_ifs at hc with hcm
  · exact hcm
  · rw [hr] at hc
    cases hc

lemma tombstone_makes (h : ((bc.tombstone id now actions).2.circuits.lookup id).isSome = true) :
    (bc.circuits.lookup id).isSome = true := by
  unfold tombstone at h
  split at h
  · exact h
  · rename_i he
    rw [he]
    rfl

lemma Turn.alive {p' : Phase} (h : Turn bc o p p') (ho : o ≠ .teardown)
    (hp : p.state ≠ .destroyed) : p'.state ≠ .destroyed := by
  cases h with
  | stay | createCont | extend | noId | extendCont | createdPiece | reply | verify => exact hp
  | extended | opened => simp
  | teardown => exact absurd rfl ho

lemma Effect.alive (h : Effect bc o id r) (ho : o ≠ .teardown) (hi : bc.Alive i) : r.2.Alive i := by
  obtain ⟨e, he, hs⟩ := hi
  by_cases hne : i = id
  · subst hne
    cases h with
    | idle => exact ⟨e, he, hs⟩
    | made now hc hn => exact absurd (hn.symm.trans he) (by simp)
    | turned seq he' ht =>
      obtain rfl := some.inj (he'.symm.trans he)
      exact ⟨_, lookup_setEntry_self, ht.alive ho hs⟩
    | linked seq pk endpoint msg he' hon ha hne hf hp =>
      have het := congrArg Phase.state hp
      exact ⟨_, lookup_setEntry_self, fun hd => absurd (het.symm.trans hd) (by simp)⟩
  · exact ⟨e, (h.lookup_ne hne).trans he, hs⟩

lemma Effect.alive_ne (h : Effect bc o id r) (hne : i ≠ id) : r.2.Alive i ↔ bc.Alive i := by
  unfold Alive
  rw [h.lookup_ne hne]

lemma tombstone_not_alive : ¬ (bc.tombstone id now actions).2.Alive id := by
  rintro ⟨e, he, hs⟩
  unfold tombstone at he
  split at he
  · rename_i hn
    rw [hn] at he
    cases he
  · rw [lookup_setEntry_self] at he
    obtain rfl := some.inj he
    exact hs rfl

lemma Alive.tombstone_emits (h : bc.Alive id)
    (ha : ∀ e, e.state ≠ .destroyed → .destroyPrevLink id ∈ actions e) :
    .destroyPrevLink id ∈ (bc.tombstone id now actions).1 := by
  obtain ⟨e, he, hs⟩ := h
  unfold tombstone
  simp only [he]
  exact ha e hs

lemma destroyPrevLink_mem (h : e.state ≠ .destroyed) :
    .destroyPrevLink id ∈ destroyActions id e := by
  simp [destroyActions, h]

lemma Alive.prev_emits (h : bc.Alive cell.circId) (ho : bc.prevOrder A cell now = .teardown) :
    .destroyPrevLink cell.circId ∈ actionsOf (bc.processInboundFromPrev A cell now).1 := by
  unfold prevOrder at ho
  unfold processInboundFromPrev
  dsimp only
  split_ifs at ho ⊢
  · exact h.tombstone_emits fun _ => destroyPrevLink_mem
  unfold relayOrder at ho
  unfold handleRelayFromPrev
  cases hp : bc.peelRelay A cell.circId cell.body now with
  | error e =>
    rw [hp] at ho
    cases ho
  | ok p =>
    obtain ⟨e', peeled⟩ := p
    obtain ⟨e, -, hon, hph⟩ := peelRelay_eq_ok hp
    have hl : (bc.setEntry cell.circId e').Alive cell.circId := by
      have hs : e'.state = .open := (congrArg Phase.state hph).trans hon
      exact ⟨e', lookup_setEntry_self, by simp [hs]⟩
    rw [hp] at ho
    unfold innerOrder at ho
    dsimp only at ho ⊢
    cases hdc : RelaySubCell.decode peeled with
    | error err =>
      rw [hdc] at ho
      cases ho
    | ok sub =>
      rw [hdc] at ho
      dsimp only at ho ⊢
      split_ifs at ho with he hc hd
      have hf : sub.command ≠ cmdExtendFinish := hd ▸ by decide
      rw [if_neg he, if_neg hc, if_neg hf, if_pos hd]
      exact hl.tombstone_emits fun _ => destroyPrevLink_mem

/-- Only a `DESTROY` ends a circuit, be it in a `RELAY`. -/
lemma prev_ends (h : bc.Alive i) (h' : ¬ (bc.processInboundFromPrev A cell now).2.Alive i) :
    i = cell.circId ∧ bc.prevOrder A cell now = .teardown := by
  have he : Effect bc (bc.prevOrder A cell now) cell.circId
      (bc.processInboundFromPrev A cell now) := (processInboundFromPrev_does cell now).effect
  refine ⟨?_, ?_⟩
  · by_contra hne
    exact h' ((he.alive_ne hne).2 h)
  · by_contra ho
    exact h' (he.alive ho h)

/-- A circuit that ends under a cell of the previous hop is reported to it. -/
theorem prev_ends_emits (h : bc.Alive i) (h' : ¬ (bc.processInboundFromPrev A cell now).2.Alive i) :
    .destroyPrevLink i ∈ actionsOf (bc.processInboundFromPrev A cell now).1 := by
  obtain ⟨rfl, ho⟩ := prev_ends h h'
  exact h.prev_emits ho

lemma next_ends_emits (h : bc.Alive i) (h' : ¬ (bc.processInboundFromNext A cell now).2.Alive i) :
    bc.outToIn.lookup cell.circId = some i ∧ cell.command = cmdDestroy ∧
      .destroyPrevLink i ∈ actionsOf (bc.processInboundFromNext A cell now).1 := by
  cases hid : bc.outToIn.lookup cell.circId with
  | none =>
    rw [processInboundFromNext_none now hid] at h'
    exact absurd h h'
  | some id =>
    have he := (processInboundFromNext_does (A := A) cell now hid).effect
    by_cases ho : nextOrder cell = .teardown
    · obtain rfl : i = id := by
        by_contra hne
        exact h' ((he.alive_ne hne).2 h)
      unfold nextOrder at ho
      split_ifs at ho with hc hd
      refine ⟨rfl, hd, ?_⟩
      rw [processInboundFromNext_destroy hid hd]
      exact h.tombstone_emits fun _ hs => by simp [hs]
    · exact absurd (he.alive ho h) h'

lemma nextOrder_disrupts (h : (nextOrder cell).disrupts = true) : nextOrder cell = .teardown := by
  unfold nextOrder at h ⊢
  split_ifs at h ⊢
  · cases h
  · rfl
  · cases h

lemma outToIn_of_next : (bc.processInboundFromNext A cell now).2.outToIn = bc.outToIn := by
  cases hid : bc.outToIn.lookup cell.circId with
  | none => rw [processInboundFromNext_none now hid]
  | some id =>
    exact (processInboundFromNext_does cell now hid).effect.outToIn_eq nextOrder_disrupts

lemma reapCircuit_ends_emits (h : bc.Alive i) (h' : ¬ (bc.reapCircuit id now).2.Alive i) :
    .destroyPrevLink i ∈ (bc.reapCircuit id now).1 := by
  obtain rfl : i = id := by
    by_contra hne
    exact h' ((reapCircuit_does now).effect.alive_ne hne |>.2 h)
  exact h.tombstone_emits fun _ => destroyPrevLink_mem

/-- A circuit that a tick ends is reported, and was past a deadline. -/
lemma tick_ends_emits (h : bc.Alive i) (h' : ¬ (bc.tick order now).2.Alive i) :
    .destroyPrevLink i ∈ (bc.tick order now).1 ∧
      (bc.circuits.lookup i).any (bc.expired now) = true := by
  have hst : ∀ (P : Prop) (l : List (UInt32 × CircuitEntryState))
      (p : List BridgeAction × BridgeCircuitState),
      (∀ v ∈ l, v.1 = i → v.2 ≠ .destroyed ∧ P) →
      (p.2.Alive i ∨ .destroyPrevLink i ∈ p.1 ∧ P) →
      (l.foldl removeVictim p).2.Alive i ∨ .destroyPrevLink i ∈ (l.foldl removeVictim p).1 ∧ P := by
    intro P l
    induction l with
    | nil => exact fun p _ hp => hp
    | cons v l ih =>
      intro p hl hp
      refine ih _ (fun w hw => hl w (List.mem_cons_of_mem _ hw)) ?_
      have hm : ∀ a ∈ p.1, a ∈ (removeVictim p v).1 := by
        intro a ha
        unfold removeVictim
        dsimp only
        split_ifs
        · exact ha
        · exact List.mem_append_left _ ha
      rcases hp with ⟨e, he, hs⟩ | hp
      · by_cases hv : v.1 = i
        · obtain ⟨hd, hP⟩ := hl v List.mem_cons_self hv
          unfold removeVictim
          dsimp only
          rw [if_neg hd, hv]
          exact .inr ⟨by simp, hP⟩
        · exact .inl ⟨e, (AList.lookup_erase_ne (Ne.symm hv)).trans he, hs⟩
      · exact .inr (hp.imp_left (hm _))
  refine (hst _ (bc.victims order now) ([], bc) (fun v hv hi => ?_) (.inl h)).resolve_left h'
  -- The walk read the state of the entry, and that was not a tombstone.
  obtain ⟨e, he, hs⟩ := h
  obtain ⟨j, -, hj⟩ := List.mem_filterMap.1 hv
  split at hj
  · rename_i e' he'
    split_ifs at hj with hex
    obtain rfl := some.inj hj
    obtain rfl : j = i := hi
    obtain rfl := some.inj (he.symm.trans he')
    exact ⟨hs, by rw [he]; exact hex⟩
  · cases hj

end BridgeCircuitState

end Mirage.Circuits
