import Mirage.Circuit.Bridge

/-!
# What one call of the bridge does

A call other than `tick` is an order for one circuit (`order`), and it does one of four things there
(`Effect`).
-/

namespace Mirage.Circuits

open Words Maps CircuitEntry HandshakeBody Option AList
open List hiding Vector

structure Phase where
  out : Option UInt32
  state : CircuitEntryState
  pendingExtend : Option PendingExtend
  pendingCreate : Option PendingCreate
  pendingCreated : Option PendingCreated
  tokenVerified : Bool
  keys : Option HopKeys
  reverseSeq : ℕ
  via : Bool

def CircuitEntry.phase (e : CircuitEntry) : Phase where
  out := e.outCircId
  state := e.state
  pendingExtend := e.pendingExtend
  pendingCreate := e.pendingCreate
  pendingCreated := e.pendingCreated
  tokenVerified := e.tokenVerified
  keys := e.prevKeys
  reverseSeq := e.reverseSeq
  via := e.extendViaRelay

section

variable (e : CircuitEntry)

@[simp]
lemma CircuitEntry.phase_out : e.phase.out = e.outCircId := rfl

@[simp]
lemma CircuitEntry.phase_state : e.phase.state = e.state := rfl

@[simp]
lemma CircuitEntry.phase_pendingExtend : e.phase.pendingExtend = e.pendingExtend := rfl

@[simp]
lemma CircuitEntry.phase_pendingCreate : e.phase.pendingCreate = e.pendingCreate := rfl

@[simp]
lemma CircuitEntry.phase_pendingCreated : e.phase.pendingCreated = e.pendingCreated := rfl

@[simp]
lemma CircuitEntry.phase_tokenVerified : e.phase.tokenVerified = e.tokenVerified := rfl

end

variable {body : Bytes} {p : Phase} {e e' : CircuitEntry} {j : UInt32} {cell : Cell} {now : Instant}

namespace Reassembly

/-- Pieces are still missing, and the whole is not too long. -/
def Partial (r : Reassembly) : Prop := r.accumulated.length < r.total ∧ r.total ≤ maxHsMsg1Len

def Grows (r₀ r : Reassembly) : Prop := r.total = r₀.total ∧ r.accumulated.length < r.total

variable {r₀ r : Reassembly}

lemma Partial.grows (h : r₀.Partial) (hg : r₀.Grows r) : r.Partial :=
  ⟨hg.2, hg.1 ▸ h.2⟩

lemma grows_of_push (h : r₀.push body = some r) (hc : r.complete = false) : r₀.Grows r := by
  unfold push at h
  split_ifs at h with hl
  obtain rfl := some.inj h
  refine ⟨rfl, ?_⟩
  simp only [complete, length_append, decide_eq_false_iff_not] at hc ⊢
  omega

end Reassembly

lemma HandshakeBody.bounds {buf chunk : Bytes} {total : ℕ}
    (h : decodePartial buf = .ok (total, chunk)) : chunk.length ≤ total ∧ total ≤ maxHsMsg1Len := by
  unfold decodePartial decodeFragment at h
  split_ifs at h with _ hc ho
  cases h
  exact ⟨Nat.not_lt.1 ho, Nat.not_lt.1 hc⟩

lemma ExtendHeader.bounds {buf chunk : Bytes} {header : ExtendHeader}
    (h : ExtendHeader.decodePartial buf = .ok (header, chunk)) :
    chunk.length ≤ header.totalHsMsg1Len ∧ header.totalHsMsg1Len ≤ maxHsMsg1Len := by
  unfold ExtendHeader.decodePartial at h
  split_ifs at h
  split at h
  · cases h
  dsimp only at h
  split_ifs at h with _ hc ho
  rw [Except.ok.injEq, Prod.mk.injEq] at h
  obtain ⟨rfl, rfl⟩ := h
  exact ⟨Nat.not_lt.1 ho, Nat.not_lt.1 hc⟩

/-- What a call asks of a circuit. `pass` moves bytes through it toward the exit and `reply` toward
the client. -/
inductive Order
  | create
  | createCont
  | extend
  | extendCont (body : Bytes)
  | created
  | opened
  | pass
  | reply
  | teardown
  | verify
  deriving DecidableEq

def Order.answers : Order → Bool
  | .created => true
  | .opened => true
  | .reply => true
  | _ => false

def Order.disrupts : Order → Bool
  | .extend => true
  | .extendCont _ => true
  | .teardown => true
  | _ => false

lemma Order.not_answers {o : Order} (h : o.disrupts = true) : o.answers = false := by
  cases o <;> first | rfl | cases h

/-- The action asks nothing of the state machine again. -/
def BridgeAction.Passive : BridgeAction → Prop
  | .sendToPrev _ _ => True
  | .destroyPrevLink _ => True
  | .destroyNextLink _ => True
  | _ => False

namespace BridgeCircuitState

def innerOrder (peeled : Bytes) : Order :=
  match RelaySubCell.decode peeled with
  | .error _ => .pass
  | .ok sub =>
    if sub.command = cmdExtend then .extend
    else if sub.command = cmdExtendCont then .extendCont sub.body
    else if sub.command = cmdDestroy then .teardown
    else .pass

def relayOrder (A : Aead) (bc : BridgeCircuitState) (id : UInt32) (body : Bytes) (now : Instant) :
    Order :=
  match bc.peelRelay A id body now with
  | .error _ => .pass
  | .ok (_, peeled) => innerOrder peeled

def prevOrder (A : Aead) (bc : BridgeCircuitState) (cell : Cell) (now : Instant) : Order :=
  if cell.command = cmdCreate then .create
  else if cell.command = cmdCreateCont then .createCont
  else if cell.command = cmdExtend then .extend
  else if cell.command = cmdExtendCont then .extendCont cell.body
  else if cell.command = cmdExtendFinish then .pass
  else if cell.command = cmdDestroy then .teardown
  else if cell.command = cmdRelay then bc.relayOrder A cell.circId cell.body now
  else .pass

def nextOrder (cell : Cell) : Order :=
  if cell.command = cmdCreated ∨ cell.command = cmdCreatedCont then .created
  else if cell.command = cmdDestroy then .teardown
  else .reply

def failureOrder (bc : BridgeCircuitState) (id : UInt32) (state : CircuitEntryState) : Order :=
  if bc.circuitState id = some state then .teardown else .pass

def order (A : Aead) (bc : BridgeCircuitState) : BridgeCall → Option (UInt32 × Order)
  | .fromPrev cell now => some (cell.circId, bc.prevOrder A cell now)
  | .fromNext cell _ => (bc.outToIn.lookup cell.circId).map fun id => (id, nextOrder cell)
  | .createComplete id _ _ _ => some (id, .opened)
  | .createFailure id _ => some (id, bc.failureOrder id .creating)
  | .extendComplete id _ _ => some (id, .created)
  | .extendFailure id _ => some (id, bc.failureOrder id .extending)
  | .injectExitResponse id _ _ => some (id, .reply)
  | .tokenVerified id => some (id, .verify)
  | .reap id _ => some (id, .teardown)
  | .tick _ _ => none

variable {A : Aead} {bc : BridgeCircuitState} {o : Order} {id : UInt32} {r : Reply}

def Authorised (bc : BridgeCircuitState) (p : Phase) : Prop :=
  bc.relayMode = true → p.tokenVerified = true

/-- `EXTEND` passes its checks. -/
structure Admitted (bc : BridgeCircuitState) (p : Phase) : Prop where
  out : p.out = none
  auth : bc.Authorised p
  room : bc.pendingCount < bc.policy.maxPendingHandshakes

/-- The piece is the last one of a fragmented `EXTEND`. -/
def Completes : Order → Phase → Prop
  | .extendCont body, p => ∃ r₀ ∈ p.pendingExtend, ∃ r ∈ r₀.toReassembly.push body,
      r.complete = true
  | _, _ => False

instance decidableCompletes (o : Order) (p : Phase) : Decidable (Completes o p) := by
  unfold Completes
  split <;> infer_instance

lemma Completes.isSome (h : Completes o p) : p.pendingExtend.isSome = true := by
  cases o with
  | extendCont body =>
    obtain ⟨r₀, hr₀, -⟩ := h
    exact isSome_iff_exists.2 ⟨r₀, hr₀⟩
  | create | createCont | extend | created | opened | pass | reply | teardown | verify => cases h

lemma Completes.disrupts (h : Completes o p) : o.disrupts = true := by
  cases o with
  | extendCont body => rfl
  | create | createCont | extend | created | opened | pass | reply | teardown | verify => cases h

/-- From one phase of an entry to another under an order. -/
inductive Turn (bc : BridgeCircuitState) : Order → Phase → Phase → Prop
  | stay (o : Order) (p : Phase) : Turn bc o p p
  | createCont {p : Phase} {b : Option PendingCreate} (hstate : p.state = .creating)
    (hb : ∀ r ∈ b, ∃ r₀ ∈ p.pendingCreate, r₀.Grows r) :
    Turn bc .createCont p { p with pendingCreate := b }
  | extend {p : Phase} {b : PendingExtend} {via : Bool} (hstate : p.state = .open)
    (hadm : bc.Admitted p) (hb : b.Partial) :
    Turn bc .extend p { p with pendingExtend := some b, via := via }
  | noId {p : Phase} {via : Bool} (hstate : p.state = .open) :
    Turn bc .extend p { p with via := via }
  | extendCont {p : Phase} {b : Option PendingExtend} (body : Bytes) (hstate : p.state = .open)
    (hb : ∀ r ∈ b, ∃ r₀ ∈ p.pendingExtend, r₀.toReassembly.Grows r.toReassembly) :
    Turn bc (.extendCont body) p { p with pendingExtend := b }
  | createdPiece {p : Phase} {b : Option PendingCreated} (hstate : p.state = .extending)
    (hb : ∀ r ∈ b, r.Partial ∨ ∃ r₀ ∈ p.pendingCreated, r₀.Grows r) :
    Turn bc .created p { p with pendingCreated := b }
  | extended {p : Phase} {seq : ℕ} (hstate : p.state = .extending) :
    Turn bc .created p { p with state := .open, pendingCreated := none, reverseSeq := seq }
  | opened {p : Phase} {keys : Option HopKeys} (hstate : p.state = .creating) :
    Turn bc .opened p { p with state := .open, keys := keys }
  | reply {p : Phase} {seq : ℕ} (hstate : p.state = .open) :
    Turn bc .reply p { p with reverseSeq := seq }
  | teardown (p : Phase) : Turn bc .teardown p { p with state := .destroyed }
  | verify (p : Phase) : Turn bc .verify p { p with tokenVerified := true }

variable {p' : Phase} {c : BridgeCall}

lemma Turn.mono {bc' : BridgeCircuitState}
    (had : ∀ p, bc.Admitted p → bc'.Admitted p) (h : Turn bc o p p') : Turn bc' o p p' := by
  cases h with
  | stay => exact .stay o p
  | createCont hs hb => exact .createCont hs hb
  | extend hs ha hb => exact .extend hs (had _ ha) hb
  | noId hs => exact .noId hs
  | extendCont body hs hb => exact .extendCont body hs hb
  | createdPiece hs hb => exact .createdPiece hs hb
  | extended hs => exact .extended hs
  | opened hs => exact .opened hs
  | reply hs => exact .reply hs
  | teardown => exact .teardown p
  | verify => exact .verify p

lemma Turn.steady (h : Turn bc o p p') (hd : o.disrupts = false) (ha : o.answers = false) :
    p'.state = p.state ∧ p'.keys = p.keys ∧ p'.reverseSeq = p.reverseSeq ∧ p'.via = p.via := by
  cases h with
  | stay | createCont | verify => exact ⟨rfl, rfl, rfl, rfl⟩
  | extend | noId | extendCont | teardown => cases hd
  | createdPiece | extended | opened | reply => cases ha

/-- What an action may be about when the circuit is in phase `p`. -/
def Speaks (bc : BridgeCircuitState) (o : Order) (id : UInt32) (p : Phase) : BridgeAction → Prop
  | .performHandshake i _ => i = id
  | .sendToPrev i cell => i = id ∧ cell.circId = id ∧ o.answers = true
  | .openNextHop _ _ _ _ _ => False
  | .sendToNext out _ => p.out = some out ∧ bc.Authorised p
  | .destroyPrevLink i => i = id
  | .destroyNextLink out => p.out = some out
  | .relayPayloadAtExit i _ => i = id ∧ bc.Authorised p
  | .forwardExtendFinishToNext out _ => p.out = some out
  | .verifyExtendFinish i _ => i = id

/-- What an order does to the table: nothing, or it makes, turns or links the entry. -/
inductive Effect (bc : BridgeCircuitState) (o : Order) (id : UInt32) : Reply → Prop
  | idle {reply : Except BridgeCircuitError (List BridgeAction)} (seq : UInt64)
    (hnone : actionsOf reply = []) : Effect bc o id (reply, { bc with outCircIdSeq := seq })
  | made {reply : Except BridgeCircuitError (List BridgeAction)} {b : Option PendingCreate}
    (now : Instant) (ho : o = .create) (hnew : bc.circuits.lookup id = none)
    (hcap : UInt32.ofNat (size bc.circuits) < bc.policy.maxCircuits)
    (hroom : bc.pendingCount < bc.policy.maxPendingHandshakes) (hb : ∀ r ∈ b, r.Partial)
    (hacts : ∀ a ∈ actionsOf reply, ∃ msg, a = .performHandshake id msg) :
    Effect bc o id (reply, bc.setEntry id (bc.freshEntry b now))
  | turned {reply : Except BridgeCircuitError (List BridgeAction)} {e e' : CircuitEntry}
    (seq : UInt64) (he : bc.circuits.lookup id = some e) (hturn : Turn bc o e.phase e'.phase)
    (hacts : ∀ a ∈ actionsOf reply, bc.Speaks o id e.phase a) :
    Effect bc o id (reply, { bc.setEntry id e' with outCircIdSeq := seq })
  | linked {e e' : CircuitEntry} {out : UInt32} (seq : UInt64) (pk : Bytes32)
    (endpoint : HopEndpoint) (msg : Bytes) (he : bc.circuits.lookup id = some e)
    (hstate : e.state = .open)
    (hadm : o = .extend ∧ bc.Admitted e.phase ∨ Completes o e.phase)
    (hne : out ≠ 0) (hfree : bc.outToIn.lookup out = none)
    (hphase : e'.phase =
      { e.phase with
        state := .extending, out := some out, pendingExtend := none, via := e'.phase.via }) :
    Effect bc o id (.ok [.openNextHop id out pk endpoint msg],
      { bc.setEntry id e' with
        outToIn := bc.outToIn.insert out id, outCircIdSeq := seq })

def Returns (id : UInt32) (a : BridgeAction) : Prop :=
  ∃ cell : Cell, a = .sendToPrev id cell ∧ cell.circId = id

/-- As `Effect`, with the actions of the reply. -/
inductive Does (bc : BridgeCircuitState) (o : Order) (id : UInt32) : Reply → Prop
  | refused (err : BridgeCircuitError) : Does bc o id (.error err, bc)
  | idle : Does bc o id (.ok [], bc)
  | made {b : Option PendingCreate} {acts : List BridgeAction} (now : Instant) (ho : o = .create)
    (hnew : bc.circuits.lookup id = none)
    (hcap : UInt32.ofNat (size bc.circuits) < bc.policy.maxCircuits)
    (hroom : bc.pendingCount < bc.policy.maxPendingHandshakes) (hb : ∀ r ∈ b, r.Partial)
    (hacts : acts = [] ∨ ∃ msg, acts = [.performHandshake id msg]) :
    Does bc o id (.ok acts, bc.setEntry id (bc.freshEntry b now))
  | quiet {reply : Except BridgeCircuitError (List BridgeAction)} {e e' : CircuitEntry}
    (seq : UInt64) (hnone : actionsOf reply = []) (he : bc.circuits.lookup id = some e)
    (hturn : Turn bc o e.phase e'.phase) :
    Does bc o id (reply, { bc.setEntry id e' with outCircIdSeq := seq })
  | asked {a : BridgeAction} {e e' : CircuitEntry} (he : bc.circuits.lookup id = some e)
    (hturn : Turn bc o e.phase e'.phase) (ho : o.answers = false)
    (hlive : e'.phase.state ≠ .destroyed) (hspeaks : bc.Speaks o id e.phase a)
    (hask : ∀ i msg, a = .performHandshake i msg → e'.phase.state = .creating) :
    Does bc o id (.ok [a], bc.setEntry id e')
  | answered {reply : Except BridgeCircuitError (List BridgeAction)} {e e' : CircuitEntry}
    (he : bc.circuits.lookup id = some e) (hturn : Turn bc o e.phase e'.phase)
    (ho : o.answers = true) (hacts : ∀ a ∈ actionsOf reply, Returns id a) :
    Does bc o id (reply, bc.setEntry id e')
  | ended {acts : List BridgeAction} {e e' : CircuitEntry} (he : bc.circuits.lookup id = some e)
    (hturn : Turn bc o e.phase e'.phase) (ho : o = .teardown)
    (hacts : ∀ a ∈ acts, a.Passive ∧ bc.Speaks o id e.phase a) :
    Does bc o id (.ok acts, bc.setEntry id e')
  | linked {e e' : CircuitEntry} {out : UInt32} (seq : UInt64) (pk : Bytes32)
    (endpoint : HopEndpoint) (msg : Bytes) (he : bc.circuits.lookup id = some e)
    (hstate : e.state = .open)
    (hadm : o = .extend ∧ bc.Admitted e.phase ∨ Completes o e.phase)
    (hne : out ≠ 0) (hfree : bc.outToIn.lookup out = none)
    (hphase : e'.phase =
      { e.phase with
        state := .extending, out := some out, pendingExtend := none, via := e'.phase.via }) :
    Does bc o id (.ok [.openNextHop id out pk endpoint msg],
      { bc.setEntry id e' with
        outToIn := bc.outToIn.insert out id, outCircIdSeq := seq })

namespace Does

lemma ite {c : Prop} [Decidable c] {o' : Order} {r' : Reply} (hp : c → Does bc o id r)
    (hn : ¬c → Does bc o' id r') :
    Does bc (if c then o else o') id (if c then r else r') := by
  by_cases h : c
  · rw [if_pos h, if_pos h]
    exact hp h
  · rw [if_neg h, if_neg h]
    exact hn h

variable {reply : Except BridgeCircuitError (List BridgeAction)}

lemma turn (hn : actionsOf reply = []) (he : bc.circuits.lookup id = some e)
    (ht : Turn bc o e.phase e'.phase) : Does bc o id (reply, bc.setEntry id e') :=
  .quiet bc.outCircIdSeq hn he ht

lemma touch (hn : actionsOf reply = []) (he : bc.circuits.lookup id = some e)
    (hp : e'.phase = e.phase) : Does bc o id (reply, bc.setEntry id e') :=
  .turn hn he (hp ▸ .stay o e'.phase)

lemma effect (h : Does bc o id r) : Effect bc o id r := by
  cases h with
  | refused | idle => exact .idle bc.outCircIdSeq rfl
  | made now ho hnw hc hr hb hac =>
    refine .made now ho hnw hc hr hb fun a ha => ?_
    rcases hac with rfl | ⟨msg, rfl⟩
    · cases ha
    · exact ⟨msg, mem_singleton.1 ha⟩
  | quiet seq hn he ht => exact .turned seq he ht (by simp [hn])
  | asked he ht ho hl hsp =>
    refine .turned bc.outCircIdSeq he ht fun a ha => ?_
    rwa [mem_singleton.1 ha]
  | answered he ht ho hac =>
    refine .turned bc.outCircIdSeq he ht fun a ha => ?_
    obtain ⟨cell, rfl, hid⟩ := hac a ha
    exact ⟨rfl, hid, ho⟩
  | ended he ht ho hac =>
    exact .turned bc.outCircIdSeq he ht fun a ha => (hac a ha).2
  | linked seq pk endpoint msg he hs had hne hf hp =>
    exact .linked seq pk endpoint msg he hs had hne hf hp

end Does

lemma lookup_setEntry_self : (bc.setEntry id e).circuits.lookup id = some e :=
  lookup_insert _

lemma setEntry_setEntry : (bc.setEntry id e).setEntry id e' = bc.setEntry id e' := by
  unfold setEntry
  rw [insert_insert]

lemma lookup_setEntry_ne (h : j ≠ id) :
    (bc.setEntry id e).circuits.lookup j = bc.circuits.lookup j :=
  lookup_insert_ne h

lemma lookup_setEntry (h : (bc.setEntry id e).circuits.lookup j = some e') :
    bc.circuits.lookup j = some e' ∨ j = id ∧ e' = e := by
  by_cases hj : j = id
  · subst hj
    exact .inr ⟨rfl, some.inj (h.symm.trans lookup_setEntry_self)⟩
  · exact .inl ((lookup_setEntry_ne hj).symm.trans h)

/-- Where an entry of the table after an order comes from. -/
inductive Became (bc : BridgeCircuitState) (o : Order) (id : UInt32) : CircuitEntry → Prop
  | made {b : Option PendingCreate} (now : Instant) (ho : o = .create)
    (hnew : bc.circuits.lookup id = none) (hb : ∀ r ∈ b, r.Partial) :
    Became bc o id (bc.freshEntry b now)
  | turned {e e' : CircuitEntry} (he : bc.circuits.lookup id = some e)
    (hturn : Turn bc o e.phase e'.phase) : Became bc o id e'
  | linked {e e' : CircuitEntry} {out : UInt32} (he : bc.circuits.lookup id = some e)
    (hstate : e.state = .open)
    (hadm : o = .extend ∧ bc.Admitted e.phase ∨ Completes o e.phase)
    (hphase : e'.phase =
      { e.phase with
        state := .extending, out := some out, pendingExtend := none, via := e'.phase.via }) :
    Became bc o id e'

namespace Effect

variable (h : Effect bc o id r)

include h

lemma entry (hj : r.2.circuits.lookup j = some e') :
    bc.circuits.lookup j = some e' ∨ j = id ∧ Became bc o id e' := by
  cases h with
  | idle => exact .inl hj
  | made now ho hn _ _ hb =>
    refine (lookup_setEntry hj).imp_right ?_
    rintro ⟨rfl, rfl⟩
    exact ⟨rfl, .made now ho hn hb⟩
  | turned _ he ht =>
    refine (lookup_setEntry hj).imp_right ?_
    rintro ⟨rfl, rfl⟩
    exact ⟨rfl, .turned he ht⟩
  | linked _ _ _ _ he hs ha _ _ hp =>
    refine (lookup_setEntry hj).imp_right ?_
    rintro ⟨rfl, rfl⟩
    exact ⟨rfl, .linked he hs ha hp⟩

lemma lookup_ne (hj : j ≠ id) : r.2.circuits.lookup j = bc.circuits.lookup j := by
  cases h with
  | idle => rfl
  | made | turned | linked => exact lookup_setEntry_ne hj

lemma isSome (hj : (bc.circuits.lookup j).isSome = true) :
    (r.2.circuits.lookup j).isSome = true := by
  by_cases hne : j = id
  · subst hne
    cases h with
    | idle => exact hj
    | made | turned | linked => exact isSome_iff_exists.2 ⟨_, lookup_setEntry_self⟩
  · rwa [h.lookup_ne hne]

lemma outToIn_some {out i : UInt32}
    (ho : bc.outToIn.lookup out = some i) : r.2.outToIn.lookup out = some i := by
  cases h with
  | idle | made | turned => exact ho
  | linked seq pk endpoint msg he hs ha hne hf hp =>
    have hn' : out ≠ _ := fun heq => absurd (hf.symm.trans (heq ▸ ho)) (by simp)
    exact (lookup_insert_ne hn').trans ho

lemma not_sendToPrev (ho : o.answers = false) {i : UInt32} :
    .sendToPrev i cell ∉ actionsOf r.1 := by
  intro ha
  cases h with
  | idle seq hn =>
    rw [hn] at ha
    cases ha
  | made now hc hnw hcp hr hb hac =>
    obtain ⟨msg, heq⟩ := hac _ ha
    cases heq
  | turned seq he ht hac => exact absurd ((hac _ ha).2.2) (by simp [ho])
  | linked => cases mem_singleton.1 ha

lemma relayMode : r.2.relayMode = bc.relayMode := by
  cases h <;> rfl

lemma policy : r.2.policy = bc.policy := by
  cases h <;> rfl

end Effect

lemma pendingCount_setEntry (he : bc.circuits.lookup id = some e) (hs : e'.state = e.state) :
    (bc.setEntry id e').pendingCount = bc.pendingCount := by
  have hp : e'.pending = e.pending := by rw [pending, pending, hs]
  exact congrArg UInt32.ofNat (count_insert_of_eq he hp)

lemma Does.of_touch (he : bc.circuits.lookup id = some e) (hp : e'.phase = e.phase)
    (h : Does (bc.setEntry id e') o id r) : Does bc o id r := by
  have hc := pendingCount_setEntry he (congrArg Phase.state hp)
  have hl : (bc.setEntry id e').circuits.lookup id = some e' := lookup_insert _
  have had : ∀ p, (bc.setEntry id e').Admitted p → bc.Admitted p := fun p ha =>
    ⟨ha.out, ha.auth, hc ▸ ha.room⟩
  cases h with
  | refused | idle => exact .touch rfl he hp
  | made now ho hnw => exact absurd (hnw.symm.trans hl) (by simp)
  | quiet seq hn he' ht =>
    obtain rfl := some.inj (hl.symm.trans he')
    rw [setEntry_setEntry]
    rw [hp] at ht
    exact .quiet seq hn he (ht.mono had)
  | asked he' ht ho hlv hs hak =>
    obtain rfl := some.inj (hl.symm.trans he')
    rw [setEntry_setEntry]
    rw [hp] at ht hs
    exact .asked he (ht.mono had) ho hlv hs hak
  | answered he' ht ho hac =>
    obtain rfl := some.inj (hl.symm.trans he')
    rw [setEntry_setEntry]
    rw [hp] at ht
    exact .answered he (ht.mono had) ho hac
  | ended he' ht ho hac =>
    obtain rfl := some.inj (hl.symm.trans he')
    rw [setEntry_setEntry]
    rw [hp] at ht hac
    exact .ended he (ht.mono had) ho hac
  | linked seq pk endpoint msg he' hst hor hne hf hph =>
    obtain rfl := some.inj (hl.symm.trans he')
    rw [setEntry_setEntry]
    rw [hp] at hor hph
    exact .linked seq pk endpoint msg he ((congrArg Phase.state hp).symm.trans hst)
      (hor.imp_left fun ha => ⟨ha.1, had _ ha.2⟩) hne hf hph

lemma Does.within {state : CircuitEntryState} {err : BridgeCircuitError}
    {err' : CircuitEntry → BridgeCircuitError} {k : CircuitEntry → Reply}
    (h : ∀ e, bc.circuits.lookup id = some e → e.state = state → Does bc o id (k e)) :
    Does bc o id (match bc.circuits.lookup id with
      | none => (.error err, bc)
      | some e => if e.state ≠ state then (.error (err' e), bc) else k e) := by
  split
  · exact .refused _
  rename_i e he
  split_ifs with hs
  · exact .refused _
  · exact h e he (not_not.1 hs)

lemma handleCreate_does : Does bc .create id (bc.handleCreate id body now) := by
  unfold handleCreate
  split
  · exact .refused _
  rename_i hn
  split_ifs with hc hr
  · exact .refused _
  · exact .refused _
  have hc' := UInt32.not_le.1 hc
  have hr' := UInt32.not_le.1 hr
  split
  · exact .refused _
  rename_i total chunk hd
  split_ifs with hl
  · refine .made now rfl hn hc' hr' ?_ (.inl rfl)
    rintro _ ⟨⟩
    exact ⟨hl, (bounds hd).2⟩
  · exact .made now rfl hn hc' hr' (by simp) (.inr ⟨_, rfl⟩)

lemma handleCreateCont_does : Does bc .createCont id (bc.handleCreateCont id body now) := by
  refine .within fun e he hcr => ?_
  split
  · exact .refused _
  rename_i r₀ hr₀
  split
  · exact .turn rfl he (.createCont hcr (by simp))
  rename_i r hp
  split_ifs with hc
  · exact .asked he (.createCont hcr (by simp)) rfl (by simp [hcr]) rfl fun _ _ _ => hcr
  · refine .turn rfl he (.createCont hcr ?_)
    rintro _ ⟨⟩
    exact ⟨r₀, hr₀, Reassembly.grows_of_push hp (by simpa using hc)⟩

lemma pickOutCircId_spec : ∀ tries seq,
    ∀ out ∈ (bc.pickOutCircId tries seq).1, out ≠ 0 ∧ bc.outToIn.lookup out = none
  | 0, _, out, h => by simp [pickOutCircId] at h
  | tries + 1, seq, out, h => by
    unfold pickOutCircId at h
    dsimp only at h
    split_ifs at h with hz ht
    · exact pickOutCircId_spec tries _ out h
    · exact pickOutCircId_spec tries _ out h
    · obtain rfl := some.inj h
      exact ⟨hz, by simpa using ht⟩

lemma allocateOutCircId_spec (bc : BridgeCircuitState) :
    (∃ e seq, bc.allocateOutCircId = (.error e, { bc with outCircIdSeq := seq })) ∨
      ∃ out seq, bc.allocateOutCircId = (.ok out, { bc with outCircIdSeq := seq }) ∧
        out ≠ 0 ∧ bc.outToIn.lookup out = none := by
  unfold allocateOutCircId
  cases h : (bc.pickOutCircId 256 bc.outCircIdSeq).1 with
  | none => exact .inl ⟨.outCircIdExhausted 256, _, by dsimp only; rw [h]⟩
  | some out => exact .inr ⟨out, _, by dsimp only; rw [h], pickOutCircId_spec _ _ out h⟩

lemma dispatchPendingExtend_does (pending : PendingExtend)
    (he : bc.circuits.lookup id = some e) (hs : e.state = .open)
    (hp : e'.phase = { e.phase with pendingExtend := none, via := e'.phase.via })
    (ha : o = .extend ∧ bc.Admitted e.phase ∨ Completes o e.phase)
    (ht : Turn bc o e.phase e'.phase) :
    Does bc o id ((bc.setEntry id e').dispatchPendingExtend id pending now) := by
  unfold dispatchPendingExtend
  rcases (bc.setEntry id e').allocateOutCircId_spec with ⟨err, seq, h⟩ | ⟨out, seq, h, hne, hf⟩
  · rw [h]
    exact .quiet seq rfl he ht
  rw [h]
  have hl : (bc.setEntry id e').circuits.lookup id = some e' := lookup_insert _
  simp only [hl]
  unfold setEntry
  rw [insert_insert]
  refine .linked seq _ _ _ he hs ha hne hf ?_
  simp [phase] at hp ⊢
  tauto

lemma handleExtend_does (relayed : Bool) :
    Does bc .extend id (bc.handleExtend id body now relayed) := by
  refine .within fun e he ho => ?_
  split_ifs with ha hot hp hrm
  · exact .refused _
  · exact .refused _
  · exact .refused _
  · exact .refused _
  have hn : e.pendingExtend = none := by simpa using hp
  have had : bc.Admitted e.phase :=
    ⟨by simpa using hot, fun hr => by simpa [hr] using ha, UInt32.not_le.1 hrm⟩
  split
  · exact .refused _
  rename_i header chunk hd
  dsimp only
  split_ifs with hc
  · refine dispatchPendingExtend_does _ he ho ?_ (.inl ⟨rfl, had⟩) (.noId ho)
    simp [phase, hn]
  refine .turn rfl he (.extend ho had ?_)
  have hb := ExtendHeader.bounds hd
  have hlt : chunk.length ≠ header.totalHsMsg1Len := by simpa [Reassembly.complete] using hc
  exact ⟨Nat.lt_of_le_of_ne hb.1 hlt, hb.2⟩

lemma handleExtendCont_does : Does bc (.extendCont body) id (bc.handleExtendCont id body now) := by
  refine .within fun e he ho => ?_
  split
  · exact .refused _
  rename_i r₀ hr₀
  have hd : Turn bc (.extendCont body) e.phase { e.phase with pendingExtend := none } :=
    .extendCont body ho (by simp)
  split
  · exact .turn rfl he hd
  rename_i r hp
  dsimp only
  split_ifs with hc
  · exact dispatchPendingExtend_does _ he ho rfl (.inr ⟨r₀, hr₀, r, hp, hc⟩) hd
  · refine .turn rfl he (.extendCont body ho ?_)
    rintro _ ⟨⟩
    exact ⟨r₀, hr₀, Reassembly.grows_of_push hp (by simpa using hc)⟩

lemma handleExtendFinish_does : Does bc .pass id (bc.handleExtendFinish id body now) := by
  refine .within fun e he hs => ?_
  have hl : e.phase.state ≠ .destroyed := by simp [hs]
  split
  · exact .refused _
  split
  · rename_i out ho
    exact .asked he (.stay _ _) rfl hl ho nofun
  · split_ifs
    · exact .asked he (.stay _ _) rfl hl rfl nofun
    · exact .touch rfl he rfl

lemma circId_of_new {cmd : UInt8} (h : Cell.new id cmd body = .ok cell) : cell.circId = id := by
  obtain ⟨-, -, -, rfl⟩ := Cell.new_eq_ok.1 h
  rfl

lemma flight_returns {first cont : UInt8} {bodies : Bytes × List Bytes} :
    ∀ a ∈ actionsOf (flight id first cont bodies), Returns id a := by
  unfold flight
  generalize (first, bodies.1) :: bodies.2.map (cont, ·) = l
  induction l with
  | nil => simp [actionsOf, pure, Except.pure]
  | cons b l ih =>
    rw [mapM_cons]
    cases hn : Cell.new id b.1 b.2 with
    | error e => simp [actionsOf, bind, Except.bind]
    | ok cell =>
      revert ih
      cases l.mapM (m := Except BridgeCircuitError) _ with
      | error e => simp [actionsOf, bind, Except.bind]
      | ok acts =>
        intro ih a ha
        rcases mem_cons.1 ha with rfl | ha
        · exact ⟨cell, rfl, circId_of_new hn⟩
        · exact ih a ha

lemma sealFlight_returns (reverse : OnionLayer) : ∀ (l : List (UInt8 × Bytes)) (seq : ℕ),
    ∀ a ∈ actionsOf (sealFlight A id reverse l seq).1, Returns id a
  | [], _, a, ha => by simp [sealFlight, actionsOf] at ha
  | (cmd, body) :: rest, seq, a, ha => by
    unfold sealFlight at ha
    split at ha
    · simp [actionsOf] at ha
    split at ha
    · simp [actionsOf] at ha
    split at ha
    · simp [actionsOf] at ha
    rename_i seq' _
    split at ha
    · simp [actionsOf] at ha
    rename_i cell hn
    have ih := sealFlight_returns reverse rest seq'
    split at ha
    · simp [actionsOf] at ha
    rename_i hr
    rw [hr] at ih
    rcases mem_cons.1 ha with rfl | ha
    · exact ⟨cell, rfl, circId_of_new hn⟩
    · exact ih a ha

variable (msg : Bytes)

lemma emitExtended_spec (he : bc.circuits.lookup id = some e) :
    ∃ reply e', bc.emitExtended A id msg now = (reply, bc.setEntry id e') ∧
      e'.phase =
        { e.phase with state := .open, pendingCreated := none, reverseSeq := e'.phase.reverseSeq } ∧
      ∀ a ∈ actionsOf reply, Returns id a := by
  unfold emitExtended
  simp only [he]
  split_ifs with hv
  · split
    · exact ⟨_, _, rfl, rfl, by simp [actionsOf]⟩
    · exact ⟨_, _, rfl, rfl, flight_returns⟩
  · split
    · exact ⟨_, _, rfl, rfl, by simp [actionsOf]⟩
    · split
      · exact ⟨_, _, rfl, rfl, by simp [actionsOf]⟩
      · exact ⟨_, _, rfl, rfl, sealFlight_returns _ _ _⟩

lemma emitExtended_does (he : bc.circuits.lookup id = some e)
    (hs : e.state = .extending)
    (hp : e'.phase = { e.phase with pendingCreated := e'.pendingCreated }) :
    Does bc .created id ((bc.setEntry id e').emitExtended A id msg now) := by
  have hl : (bc.setEntry id e').circuits.lookup id = some e' := lookup_insert _
  obtain ⟨reply, e'', heq, hp', ha⟩ := emitExtended_spec msg hl
  rw [heq, setEntry_setEntry]
  refine .answered he ?_ rfl ha
  rw [hp', hp]
  exact .extended hs

lemma handleCreatedFromNext_does :
    Does bc .created id (bc.handleCreatedFromNext A id body now) := by
  unfold handleCreatedFromNext
  split
  · exact .refused _
  rename_i total chunk hd
  refine .within fun e he hs => ?_
  split_ifs with hl
  · refine .turn rfl he (.createdPiece hs ?_)
    rintro _ ⟨⟩
    exact .inl ⟨hl, (bounds hd).2⟩
  · exact emitExtended_does _ he hs rfl

lemma handleCreatedContFromNext_does :
    Does bc .created id (bc.handleCreatedContFromNext A id body now) := by
  refine .within fun e he het => ?_
  split
  · exact .refused _
  rename_i r₀ hr₀
  split
  · exact .turn rfl he (.createdPiece het (by simp))
  rename_i r hp
  split_ifs with hc
  · exact emitExtended_does _ he het rfl
  · refine .turn rfl he (.createdPiece het ?_)
    rintro _ ⟨⟩
    exact .inr ⟨r₀, hr₀, Reassembly.grows_of_push hp (by simpa using hc)⟩

lemma tombstone_does {actions : CircuitEntry → List BridgeAction}
    (ha : ∀ e, ∀ a ∈ actions e, a.Passive ∧ bc.Speaks .teardown id e.phase a) : Does bc .teardown id
      (.ok (bc.tombstone id now actions).1, (bc.tombstone id now actions).2) := by
  unfold tombstone
  split
  · exact .idle
  · rename_i e he
    exact .ended he (.teardown _) rfl (ha e)

lemma mem_destroyNext {out : Option UInt32} {a : BridgeAction} :
    a ∈ (out.map BridgeAction.destroyNextLink).toList ↔
      ∃ o, out = some o ∧ a = .destroyNextLink o := by
  rw [mem_toList, map_eq_some_iff]
  exact exists_congr fun o => and_congr_right fun _ => eq_comm

lemma destroyActions_speaks (e : CircuitEntry) :
    ∀ a ∈ destroyActions id e, a.Passive ∧ bc.Speaks o id e.phase a := by
  intro a ha
  unfold destroyActions at ha
  split_ifs at ha
  · cases ha
  rcases mem_append.1 ha with ha | ha
  · obtain ⟨out, ho, rfl⟩ := mem_destroyNext.1 ha
    exact ⟨trivial, ho⟩
  · obtain rfl := mem_singleton.1 ha
    exact ⟨trivial, rfl⟩

lemma handleDestroyFromPrev_does (now : Instant) : Does bc .teardown id
      (.ok (bc.handleDestroyFromPrev id now).1, (bc.handleDestroyFromPrev id now).2) :=
  tombstone_does destroyActions_speaks

lemma reapCircuit_does (now : Instant) :
    Does bc .teardown id (.ok (bc.reapCircuit id now).1, (bc.reapCircuit id now).2) :=
  tombstone_does destroyActions_speaks

lemma handleDestroyFromNext_does : Does bc .teardown id
      (.ok (bc.handleDestroyFromNext id now).1, (bc.handleDestroyFromNext id now).2) := by
  refine tombstone_does fun e a ha => ?_
  split_ifs at ha
  · cases ha
  · obtain rfl := mem_singleton.1 ha
    exact ⟨trivial, rfl⟩

lemma peelRelay_eq_ok {peeled : Bytes} (h : bc.peelRelay A id body now = .ok (e', peeled)) :
    ∃ e, bc.circuits.lookup id = some e ∧ e.state = .open ∧ e'.phase = e.phase := by
  unfold peelRelay at h
  split at h
  · cases h
  rename_i e he
  split_ifs at h with hs
  split at h
  · cases h
  split at h
  · cases h
  split at h
  · cases h
  · cases h
    exact ⟨e, he, not_not.1 hs, rfl⟩

lemma forwardOrExit_does (he : bc.circuits.lookup id = some e) (ho : e.state = .open)
    (hp : e'.phase = e.phase) (peeled : Bytes) :
    Does bc .pass id ((bc.setEntry id e').forwardOrExit id e' peeled) := by
  have ht : Turn bc .pass e.phase e'.phase := hp ▸ .stay _ _
  have hl : e'.phase.state ≠ .destroyed := by simp [hp, ho]
  unfold forwardOrExit
  split_ifs with ha
  · exact .touch rfl he hp
  have hok : bc.Authorised e.phase := by
    rw [← hp]
    intro hr
    have hm : (bc.setEntry id e').relayMode = true := hr
    simpa [hm] using ha
  split
  · rename_i out hot
    split
    · exact .touch rfl he hp
    · exact .asked he ht rfl hl ⟨(congrArg Phase.out hp).symm.trans hot, hok⟩ nofun
  · exact .asked he ht rfl hl ⟨rfl, hok⟩ nofun

lemma handleRelayFromPrev_does :
    Does bc (bc.relayOrder A id body now) id (bc.handleRelayFromPrev A id body now) := by
  unfold handleRelayFromPrev relayOrder
  cases hpl : bc.peelRelay A id body now with
  | error err => exact .refused err
  | ok p =>
    obtain ⟨e', peeled⟩ := p
    obtain ⟨e, he, hon, hp⟩ := peelRelay_eq_ok hpl
    have ho := forwardOrExit_does he hon hp peeled
    unfold innerOrder
    dsimp only
    cases RelaySubCell.decode peeled with
    | error err => exact ho
    | ok sub =>
      refine .ite (fun _ => .of_touch he hp (handleExtend_does true)) fun _ => ?_
      refine .ite (fun _ => .of_touch he hp handleExtendCont_does) fun _ => ?_
      by_cases hf : sub.command = cmdExtendFinish
      · have hd : sub.command ≠ cmdDestroy := hf ▸ by decide
        rw [if_pos hf, if_neg hd]
        exact .of_touch he hp handleExtendFinish_does
      split_ifs
      · exact .of_touch he hp (handleDestroyFromPrev_does now)
      · exact .touch rfl he hp
      · exact ho

lemma handleRelayFromNext_does : Does bc .reply id (bc.handleRelayFromNext A id body now) := by
  refine .within fun e he ho => ?_
  split
  · exact .refused _
  split
  · exact .refused _
  split
  · exact .refused _
  split
  · exact .turn rfl he (.reply ho)
  · rename_i cell hn
    refine .answered he (.reply ho) rfl fun a ha => ?_
    exact ⟨cell, mem_singleton.1 ha, circId_of_new hn⟩

lemma processInboundFromPrev_does (cell : Cell) (now : Instant) :
    Does bc (bc.prevOrder A cell now) cell.circId (bc.processInboundFromPrev A cell now) := by
  refine .ite (fun _ => handleCreate_does) fun _ => ?_
  refine .ite (fun _ => handleCreateCont_does) fun _ => ?_
  refine .ite (fun _ => handleExtend_does false) fun _ => ?_
  refine .ite (fun _ => handleExtendCont_does) fun _ => ?_
  refine .ite (fun _ => handleExtendFinish_does) fun _ => ?_
  refine .ite (fun _ => handleDestroyFromPrev_does now) fun _ => ?_
  refine .ite (fun _ => handleRelayFromPrev_does) fun _ => ?_
  split <;> exact .refused _

lemma innerOrder_answers (peeled : Bytes) : (innerOrder peeled).answers = false := by
  unfold innerOrder
  split
  · rfl
  · split_ifs <;> rfl

lemma relayOrder_answers : (bc.relayOrder A id body now).answers = false := by
  unfold relayOrder
  split
  · rfl
  · exact innerOrder_answers _

lemma prevOrder_answers : (bc.prevOrder A cell now).answers = false := by
  unfold prevOrder
  -- Every arm but the relayed one is a constant order.
  iterate 6
    split
    · rfl
  split
  · exact relayOrder_answers
  · rfl

lemma processInboundFromNext_does (cell : Cell) (now : Instant)
    (hid : bc.outToIn.lookup cell.circId = some id) :
    Does bc (nextOrder cell) id (bc.processInboundFromNext A cell now) := by
  unfold processInboundFromNext nextOrder
  simp only [hid]
  by_cases hc : cell.command = cmdCreated
  · rw [if_pos hc, if_pos (.inl hc)]
    exact handleCreatedFromNext_does
  by_cases hcn : cell.command = cmdCreatedCont
  · rw [if_neg hc, if_pos hcn, if_pos (.inr hcn)]
    exact handleCreatedContFromNext_does
  rw [if_neg hc, if_neg hcn, if_neg (not_or.2 ⟨hc, hcn⟩)]
  split_ifs
  · exact handleDestroyFromNext_does
  · exact handleRelayFromNext_does
  · split <;> exact .refused _

lemma recordCreateComplete_does (keys : HopKeys) (msg : Bytes) :
    Does bc .opened id (bc.recordCreateComplete id keys msg now) := by
  refine .within fun e he hc => ?_
  split
  · exact .turn rfl he (.opened hc)
  · exact .answered he (.opened hc) rfl flight_returns

lemma failureOrder_of_lookup {state : CircuitEntryState} (he : bc.circuits.lookup id = some e)
    (hs : e.state = state) : bc.failureOrder id state = .teardown := by
  rw [failureOrder, circuitState, he, map_some, hs, if_pos rfl]

lemma recordCreateFailure_does :
    Does bc (bc.failureOrder id .creating) id (bc.recordCreateFailure id now) := by
  refine .within fun e he hs => ?_
  rw [failureOrder_of_lookup he hs]
  exact .ended he (.teardown _) rfl (by simp [BridgeAction.Passive, Speaks])

lemma recordExtendComplete_does : Does bc .created id (bc.recordExtendComplete A id msg now) := by
  refine .within fun e he hs => ?_
  obtain ⟨reply, e', heq, hp, ha⟩ := emitExtended_spec msg he
  rw [heq]
  refine .answered he ?_ rfl ha
  rw [hp]
  exact .extended hs

lemma recordExtendFailure_does :
    Does bc (bc.failureOrder id .extending) id (bc.recordExtendFailure id now) := by
  refine .within fun e he hs => ?_
  rw [failureOrder_of_lookup he hs]
  refine .ended he (.teardown _) rfl fun a ha => ?_
  rcases mem_cons.1 ha with rfl | ha
  · exact ⟨trivial, rfl⟩
  · obtain ⟨out, ho, rfl⟩ := mem_destroyNext.1 ha
    exact ⟨trivial, ho⟩

lemma recordTokenVerified_does : Does bc .verify id
      ((bc.recordTokenVerified id).1.map fun _ => [], (bc.recordTokenVerified id).2) := by
  unfold recordTokenVerified
  split
  · exact .refused _
  · rename_i e he
    exact .turn rfl he (.verify _)

/-- Every order, whatever its outcome, has one of the four effects. -/
theorem call_effect (h : bc.order A c = some (id, o)) : Effect bc o id (bc.call A c) := by
  refine Does.effect ?_
  cases c with
  | fromPrev cell now =>
    obtain ⟨rfl, rfl⟩ := Prod.mk.inj (some.inj h)
    exact processInboundFromPrev_does cell now
  | fromNext cell now =>
    obtain ⟨i, hi, heq⟩ := map_eq_some_iff.1 h
    obtain ⟨rfl, rfl⟩ := Prod.mk.inj heq
    exact processInboundFromNext_does cell now hi
  | createComplete i keys msg now =>
    obtain ⟨rfl, rfl⟩ := Prod.mk.inj (some.inj h)
    exact recordCreateComplete_does keys msg
  | createFailure i now =>
    obtain ⟨rfl, rfl⟩ := Prod.mk.inj (some.inj h)
    exact recordCreateFailure_does
  | extendComplete i msg now =>
    obtain ⟨rfl, rfl⟩ := Prod.mk.inj (some.inj h)
    exact recordExtendComplete_does msg
  | extendFailure i now =>
    obtain ⟨rfl, rfl⟩ := Prod.mk.inj (some.inj h)
    exact recordExtendFailure_does
  | injectExitResponse i payload now =>
    obtain ⟨rfl, rfl⟩ := Prod.mk.inj (some.inj h)
    exact handleRelayFromNext_does
  | tokenVerified i =>
    obtain ⟨rfl, rfl⟩ := Prod.mk.inj (some.inj h)
    exact recordTokenVerified_does
  | reap i now =>
    obtain ⟨rfl, rfl⟩ := Prod.mk.inj (some.inj h)
    exact reapCircuit_does now
  | tick order now => cases h

lemma call_fromNext_none (h : bc.outToIn.lookup cell.circId = none) :
    bc.call A (.fromNext cell now) = (.error (.unknownCircuit cell.circId), bc) := by
  unfold call processInboundFromNext
  simp only [h]

lemma lookup_removeEntry (h : (bc.removeEntry id).circuits.lookup j = some e) :
    bc.circuits.lookup j = some e := by
  by_cases hj : j = id
  · subst hj
    rw [removeEntry, lookup_erase] at h
    cases h
  · rwa [removeEntry, lookup_erase_ne hj] at h

section Sweep

variable {order : List UInt32} {now : Instant}

lemma tick_inv {I : BridgeCircuitState → Prop} (hI : ∀ bc id, I bc → I (bc.removeEntry id))
    (h : I bc) : I (bc.tick order now).2 := by
  have hf : ∀ (l : List (UInt32 × CircuitEntryState))
      (p : List BridgeAction × BridgeCircuitState), I p.2 → I (l.foldl removeVictim p).2 := by
    intro l
    induction l with
    | nil => exact fun p hp => hp
    | cons v l ih => exact fun p hp => ih _ (hI p.2 v.1 hp)
  exact hf _ _ h

lemma tick_actions : ∀ a ∈ (bc.tick order now).1,
    (∃ id, a = .destroyPrevLink id) ∨ ∃ out, a = .destroyNextLink out := by
  have hf : ∀ (l : List (UInt32 × CircuitEntryState))
      (p : List BridgeAction × BridgeCircuitState),
      (∀ a ∈ p.1, (∃ id, a = .destroyPrevLink id) ∨ ∃ out, a = .destroyNextLink out) →
      ∀ a ∈ (l.foldl removeVictim p).1,
        (∃ id, a = .destroyPrevLink id) ∨ ∃ out, a = .destroyNextLink out := by
    intro l
    induction l with
    | nil => exact fun p hp => hp
    | cons v l ih =>
      refine fun p hp => ih _ fun a ha => ?_
      unfold removeVictim at ha
      dsimp only at ha
      split_ifs at ha
      · exact hp a ha
      rcases mem_append.1 ha with ha | ha
      · exact hp a ha
      rcases mem_cons.1 ha with rfl | ha
      · exact .inl ⟨v.1, rfl⟩
      · obtain ⟨out, -, rfl⟩ := mem_destroyNext.1 ha
        exact .inr ⟨out, rfl⟩
  exact hf _ _ (by simp)

end Sweep

/-- What orders and removals keep is kept by every call. -/
theorem step_inv {I : BridgeCircuitState → Prop}
    (he : ∀ id o, bc.order A c = some (id, o) → I (bc.call A c).2)
    (hr : ∀ bc id, I bc → I (bc.removeEntry id)) (h : I bc) : I (bc.step A c) := by
  unfold step
  cases ho : bc.order A c with
  | some p => exact he p.1 p.2 ho
  | none =>
    cases c with
    | fromNext cell now =>
      rw [call_fromNext_none (map_eq_none_iff.1 ho)]
      exact h
    | tick order now => exact tick_inv hr h
    | fromPrev | createComplete | createFailure | extendComplete | extendFailure
    | injectExitResponse | tokenVerified | reap => cases ho

lemma step_policy (bc : BridgeCircuitState) (c : BridgeCall) : (bc.step A c).policy = bc.policy :=
  step_inv (I := fun s => s.policy = bc.policy) (fun _ _ ho => (call_effect ho).policy)
    (fun _ _ h => h) rfl

end BridgeCircuitState

end Mirage.Circuits
