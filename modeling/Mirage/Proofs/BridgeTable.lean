import Mirage.Lib.Runs
import Mirage.Proofs.BridgeSteps

/-!
# The tables of the bridge

The end of a fragmented `EXTEND` is not checked against the caps (`Budget`), and a circuit can be
torn down, or declared open, with pieces still waiting (`Phase.Tidy`).
-/

namespace Mirage.Circuits

open Words Maps Runs Nat CircuitEntry

/-- No buffer is full, and an `EXTEND` is collected only without a next hop. -/
structure Phase.Sound (p : Phase) : Prop where
  create : ∀ r ∈ p.pendingCreate, r.Partial
  extend : ∀ r ∈ p.pendingExtend, r.Partial
  created : ∀ r ∈ p.pendingCreated, r.Partial
  free : p.pendingExtend.isSome = true → p.out = none

/-- Each buffer lives only in its own state. -/
structure Phase.Tidy (p : Phase) : Prop where
  create : p.pendingCreate.isSome = true → p.state = .creating
  extend : p.pendingExtend.isSome = true → p.state = .open
  created : p.pendingCreated.isSome = true → p.state = .extending

variable {p p' : Phase}

namespace BridgeCircuitState

variable {A : Aead} {bc : BridgeCircuitState} {o : Order} {id : UInt32} {r : Reply}

def Fits (bc : BridgeCircuitState) : Prop := size bc.circuits ≤ bc.policy.maxCircuits.toNat

/-- The caps of the policy. -/
structure Budget (bc : BridgeCircuitState) : Prop where
  circuits : Fits bc
  pending : count pending bc.circuits ≤ bc.policy.maxPendingHandshakes.toNat

/-- An `EXTEND_CONT` that completes a message finds the pending handshakes below the cap. -/
def ExtendHasRoom (A : Aead) (bc : BridgeCircuitState) (c : BridgeCall) : Prop :=
  ∀ p ∈ bc.order A c, ∀ e ∈ bc.circuits.lookup p.1, e.state = .open → Completes p.2 e.phase →
    bc.pendingCount < bc.policy.maxPendingHandshakes
deriving Decidable

lemma Fits.size_lt (h : Fits bc) : size bc.circuits < 2 ^ 32 :=
  lt_of_le_of_lt h bc.policy.maxCircuits.toNat_lt

lemma Fits.count_lt (h : Fits bc) (hr : bc.pendingCount < bc.policy.maxPendingHandshakes) :
    count pending bc.circuits < bc.policy.maxPendingHandshakes.toNat := by
  have hlt : count pending bc.circuits < _ :=
    lt_of_le_of_lt List.countP_le_length h.size_lt
  rwa [UInt32.lt_iff_toNat_lt, pendingCount, UInt32.toNat_ofNat_of_lt' hlt] at hr

lemma Turn.pending (h : Turn bc o p p') (hp : p'.state = .creating ∨ p'.state = .extending) :
    p.state = .creating ∨ p.state = .extending := by
  cases h with
  | stay | createCont | extend | noId | extendCont | createdPiece | reply | verify => exact hp
  | extended | opened | teardown => simp at hp

lemma pending_iff {e : CircuitEntry} :
    e.pending = true ↔ e.phase.state = .creating ∨ e.phase.state = .extending := by
  simp [pending]

lemma Fits.effect (h : Fits bc) (hef : Effect bc o id r) : Fits r.2 := by
  cases hef with
  | idle => exact h
  | made now ho hn hc hf hb ha =>
    rw [UInt32.lt_iff_toNat_lt, UInt32.toNat_ofNat_of_lt' h.size_lt] at hc
    exact le_trans (le_of_eq (size_insert_of_none hn)) hc
  | turned seq he ht ha => exact le_trans (le_of_eq (size_insert_of_some he)) h
  | linked seq pk endpoint msg he hs had hne hf hp =>
    exact le_trans (le_of_eq (size_insert_of_some he)) h

lemma Fits.removeEntry (h : Fits bc) : Fits (bc.removeEntry id) :=
  le_trans size_erase_le h

lemma Fits.step (h : Fits bc) (c : BridgeCall) : Fits (bc.step A c) :=
  step_inv (fun _ _ ho => h.effect (call_effect ho)) (fun _ _ h => h.removeEntry) h

lemma Budget.effect (h : Budget bc) (hef : Effect bc o id r)
    (hr : ∀ e, bc.circuits.lookup id = some e → e.state = .open → Completes o e.phase →
      bc.pendingCount < bc.policy.maxPendingHandshakes) : Budget r.2 := by
  refine ⟨h.circuits.effect hef, ?_⟩
  cases hef with
  | idle => exact h.pending
  | made now ho hn hcp hf hb hac =>
    exact le_trans count_insert_le (h.circuits.count_lt hf)
  | turned seq he ht hac =>
    refine le_trans (count_insert_le_of_imp he fun hp => ?_) h.pending
    exact pending_iff.2 (ht.pending (pending_iff.1 hp))
  | linked seq pk endpoint msg he hs ha hne hf hph =>
    refine le_trans count_insert_le (h.circuits.count_lt ?_)
    rcases ha with ⟨-, ha⟩ | hc
    · exact ha.room
    · exact hr _ he hs hc

lemma Budget.step {c : BridgeCall} (h : Budget bc) (hr : ExtendHasRoom A bc c) :
    Budget (bc.step A c) :=
  step_inv (fun id o ho => h.effect (call_effect ho) fun e => hr (id, o) ho e)
    (fun _ _ h => ⟨h.circuits.removeEntry, le_trans count_erase_le h.pending⟩) h

lemma run_policy (calls : List BridgeCall) : (run (step A) bc calls).policy = bc.policy :=
  inv_run (fun s c hs _ => (step_policy s c).trans hs) bc calls rfl (along_true bc calls)

/-- No run has more entries than the policy allows, nor more handshakes if fragmented ones find
room. -/
theorem caps_hold (A : Aead) (policy : BridgePolicy) (picker : UInt64 → UInt32) (seq : UInt64)
    (relayMode : Bool) (calls : List BridgeCall) :
    size (run (step A) (start policy picker seq relayMode) calls).circuits ≤
      policy.maxCircuits.toNat ∧
    (Along (step A) (ExtendHasRoom A) (start policy picker seq relayMode) calls → count pending
        (run (step A) (start policy picker seq relayMode) calls).circuits ≤
          policy.maxPendingHandshakes.toNat) := by
  have hp : (run (step A) (start policy picker seq relayMode) calls).policy = policy :=
    run_policy calls
  refine ⟨?_, fun h => ?_⟩
  · have hf : Fits (run (step A) (start policy picker seq relayMode) calls) :=
      inv_run (fun s c hs _ => hs.step c) _ calls (Nat.zero_le _) (along_true _ calls)
    rwa [Fits, hp] at hf
  · have hb :=
      inv_run (fun s c hs hc => Budget.step hs hc) _ calls ⟨Nat.zero_le _, Nat.zero_le _⟩ h
    have hpn := hb.pending
    rwa [hp] at hpn

def openCalls (id : UInt32) : List BridgeCall :=
  [.fromPrev ⟨id, cmdCreate, [0, 0]⟩ 0, .createComplete id HopKeys.blank [] 0]

def extendFirst (id : UInt32) : BridgeCall :=
  .fromPrev ⟨id, cmdExtend, List.replicate 32 0 ++ [1, 127, 0, 0, 1, 0, 80] ++ [0, 1]⟩ 0

def extendLast (id : UInt32) : BridgeCall := .fromPrev ⟨id, cmdExtendCont, [7]⟩ 0

/-- A cap of one, and two circuits that are extending. -/
theorem caps_fail : count pending (run (step Aead.plain)
      (start { BridgePolicy.default with maxPendingHandshakes := 1 } sequentialOutCircIdPicker 0
        false)
      (openCalls 1 ++ openCalls 2 ++
        [extendFirst 1, extendFirst 2, extendLast 1, extendLast 2])).circuits = 2 := by
  decide +kernel

theorem caps_hold_extend : count pending (run (step Aead.plain)
      (start .default sequentialOutCircIdPicker 0 false)
      (openCalls 1 ++ [extendFirst 1, extendLast 1])).circuits ≤ 16 :=
  (caps_hold Aead.plain .default sequentialOutCircIdPicker 0 false _).2 (by decide +kernel)

/-- `out_to_in` is the inverse of the ids, none is zero, and no buffer is full. -/
structure Table (bc : BridgeCircuitState) : Prop where
  inverse : Indexes outCircId bc.circuits bc.outToIn
  zero : bc.outToIn.lookup 0 = none
  sound : ∀ id e, bc.circuits.lookup id = some e → e.phase.Sound

lemma Turn.out (h : Turn bc o p p') : p'.out = p.out := by
  cases h <;> rfl

lemma Turn.sound (h : Turn bc o p p') (hs : p.Sound) : p'.Sound := by
  cases h with
  | stay | noId | opened | reply | teardown | verify =>
    exact ⟨hs.create, hs.extend, hs.created, hs.free⟩
  | createCont hst hb =>
    refine ⟨fun r hr => ?_, hs.extend, hs.created, hs.free⟩
    obtain ⟨r₀, hr₀, hg⟩ := hb r hr
    exact (hs.create r₀ hr₀).grows hg
  | extend hst ha hb =>
    refine ⟨hs.create, ?_, hs.created, fun _ => ha.out⟩
    rintro _ ⟨⟩
    exact hb
  | extendCont body hst hb =>
    refine ⟨hs.create, fun r hr => ?_, hs.created, fun hsm => ?_⟩
    · obtain ⟨r₀, hr₀, hg⟩ := hb r hr
      exact (hs.extend r₀ hr₀).grows hg
    · obtain ⟨r, hr⟩ := Option.isSome_iff_exists.1 hsm
      obtain ⟨r₀, hr₀, -⟩ := hb r hr
      exact hs.free (Option.isSome_iff_exists.2 ⟨r₀, hr₀⟩)
  | createdPiece hst hb =>
    refine ⟨hs.create, hs.extend, fun r hr => ?_, hs.free⟩
    rcases hb r hr with hn | ⟨r₀, hr₀, hg⟩
    · exact hn
    · exact (hs.created r₀ hr₀).grows hg
  | extended hst => exact ⟨hs.create, hs.extend, by simp, hs.free⟩

lemma Table.became {e' : CircuitEntry} (h : Table bc) (hb : Became bc o id e') :
    e'.phase.Sound := by
  cases hb with
  | made now ho hn hb =>
    exact ⟨hb, by simp [freshEntry], by simp [freshEntry], by simp [freshEntry]⟩
  | turned he ht => exact ht.sound (h.sound id _ he)
  | linked he hst ha hp =>
    have hs := h.sound id _ he
    rw [hp]
    exact ⟨hs.create, by simp, hs.created, by simp⟩

lemma Table.effect (h : Table bc) (hef : Effect bc o id r) : Table r.2 := by
  refine ⟨?_, ?_, fun j e' hj => ?_⟩
  · cases hef with
    | idle => exact h.inverse
    | made now ho hn hcp hr hb hac => exact h.inverse.insert_unmarked hn rfl
    | turned seq he ht hac => exact h.inverse.insert_same he ht.out
    | linked seq pk endpoint msg he hs ha hne hf hp =>
      refine h.inverse.insert_mark he ?_ hf (congrArg Phase.out hp)
      rcases ha with ⟨-, ha⟩ | hc
      · exact ha.out
      · exact (h.sound id _ he).free hc.isSome
  · cases hef with
    | idle | made | turned => exact h.zero
    | linked seq pk endpoint msg he hs ha hne hf hp =>
      exact (AList.lookup_insert_ne hne.symm).trans h.zero
  · rcases hef.entry hj with hol | ⟨-, hb⟩
    · exact h.sound j e' hol
    · exact h.became hb

lemma Table.removeEntry (h : Table bc) : Table (bc.removeEntry id) := by
  have hs : ∀ j e, (bc.removeEntry id).circuits.lookup j = some e → e.phase.Sound :=
    fun j e hj => h.sound j e (lookup_removeEntry hj)
  unfold BridgeCircuitState.removeEntry at hs ⊢
  cases ho : (bc.circuits.lookup id).bind (·.outCircId) with
  | none =>
    refine ⟨h.inverse.erase_unmarked fun e he => ?_, h.zero, hs⟩
    rwa [he] at ho
  | some out =>
    obtain ⟨e, he, hm⟩ := Option.bind_eq_some_iff.1 ho
    refine ⟨h.inverse.erase_marked he hm, ?_, hs⟩
    have hne : (0 : UInt32) ≠ out := by
      rintro rfl
      exact absurd (h.zero.symm.trans ((h.inverse 0 id).2 ⟨e, he, hm⟩)) (by simp)
    exact (AList.lookup_erase_ne hne).trans h.zero

lemma Table.step (h : Table bc) (c : BridgeCall) : Table (bc.step A c) :=
  step_inv (fun _ _ ho => h.effect (call_effect ho)) (fun _ _ h => h.removeEntry) h

/-- A circuit that is torn down, or declared open, has no pieces waiting. -/
def NothingWaits (A : Aead) (bc : BridgeCircuitState) (c : BridgeCall) : Prop :=
  ∀ p ∈ bc.order A c, ∀ e ∈ bc.circuits.lookup p.1,
    (p.2 = .teardown → e.pendingCreate = none ∧ e.pendingExtend = none ∧ e.pendingCreated = none) ∧
    (p.2 = .opened → e.pendingCreate = none)
deriving Decidable

def Tidy (bc : BridgeCircuitState) : Prop :=
  ∀ id e, bc.circuits.lookup id = some e → e.phase.Tidy

lemma Turn.tidy (h : Turn bc o p p') (hp : p.Tidy) (ht : o = .teardown →
      p.pendingCreate = none ∧ p.pendingExtend = none ∧ p.pendingCreated = none)
    (ho : o = .opened → p.pendingCreate = none) : p'.Tidy := by
  cases h with
  | stay | noId | reply | verify => exact ⟨hp.create, hp.extend, hp.created⟩
  | createCont hs hb => exact ⟨fun _ => hs, hp.extend, hp.created⟩
  | extend hs ha hb | extendCont body hs hb =>
    exact ⟨hp.create, fun _ => hs, hp.created⟩
  | createdPiece hs hb => exact ⟨hp.create, hp.extend, fun _ => hs⟩
  | extended hs =>
    refine ⟨fun hsm => ?_, fun _ => rfl, by simp⟩
    exact absurd (hs.symm.trans (hp.create hsm)) (by simp)
  | opened hs =>
    refine ⟨by simp [ho], fun _ => rfl, fun hsm => ?_⟩
    exact absurd (hs.symm.trans (hp.created hsm)) (by simp)
  | teardown =>
    obtain ⟨hcr, he, hc⟩ := ht rfl
    exact ⟨by simp [hcr], by simp [he], by simp [hc]⟩

lemma Tidy.step {c : BridgeCall} (h : Tidy bc) (hc : NothingWaits A bc c) : Tidy (bc.step A c) := by
  refine step_inv (fun id o hor j e' hj => ?_)
    (fun _ id h j e hj => h j e (lookup_removeEntry hj)) h
  rcases (call_effect hor).entry hj with hol | ⟨-, hb⟩
  · exact h j e' hol
  cases hb with
  | made now ho hn hb =>
    exact ⟨fun _ => rfl, by simp [freshEntry], by simp [freshEntry]⟩
  | turned he ht =>
    have hw := hc _ hor _ he
    exact ht.tidy (h id _ he) hw.1 hw.2
  | linked he hs ha hph =>
    have hp := h id _ he
    rw [hph]
    refine ⟨fun hsm => ?_, by simp, fun _ => rfl⟩
    exact absurd (hs.symm.trans (hp.create hsm)) (by simp)

/-- In every run `out_to_in` is the inverse of the ids in the entries, and buffers are in their
states. -/
theorem tables_consistent (A : Aead) (policy : BridgePolicy) (picker : UInt64 → UInt32)
    (seq : UInt64) (relayMode : Bool) (calls : List BridgeCall) :
    let bc := run (step A) (start policy picker seq relayMode) calls
    (∀ out i, bc.outToIn.lookup out = some i ↔
      ∃ e, bc.circuits.lookup i = some e ∧ e.outCircId = some out) ∧
    (∀ i e, bc.circuits.lookup i = some e → e.outCircId ≠ some 0) ∧
    (∀ i j e e' out, bc.circuits.lookup i = some e → bc.circuits.lookup j = some e' →
      e.outCircId = some out → e'.outCircId = some out → i = j) ∧
    (∀ i e, bc.circuits.lookup i = some e →
      (e.pendingExtend.isSome = true → e.outCircId = none) ∧
      (∀ r ∈ e.pendingCreate, r.accumulated.length < r.total ∧ r.total ≤ maxHsMsg1Len) ∧
      (∀ r ∈ e.pendingExtend, r.accumulated.length < r.total ∧ r.total ≤ maxHsMsg1Len) ∧
      ∀ r ∈ e.pendingCreated, r.accumulated.length < r.total ∧ r.total ≤ maxHsMsg1Len) ∧
    (Along (step A) (NothingWaits A) (start policy picker seq relayMode) calls →
      ∀ i e, bc.circuits.lookup i = some e →
        (e.pendingCreate.isSome = true → e.state = .creating) ∧
        (e.pendingExtend.isSome = true → e.state = .open) ∧
        (e.pendingCreated.isSome = true → e.state = .extending)) := by
  intro bc
  have ht : Table bc := by
    refine inv_run (fun s c hs _ => hs.step c) _ calls
      ⟨indexes_empty, rfl, fun _ _ he => ?_⟩ (along_true _ calls)
    cases he
  refine ⟨ht.inverse, fun i e he hz => ?_, fun i j e e' out he he' ho ho' => ?_,
    fun i e he => ?_, fun h i e he => ?_⟩
  · exact absurd (ht.zero.symm.trans ((ht.inverse 0 i).2 ⟨e, he, hz⟩)) (by simp)
  · exact ht.inverse.unique he he' ho ho'
  · have hsn := ht.sound i e he
    exact ⟨hsn.free, hsn.create, hsn.extend, hsn.created⟩
  · have htd : Tidy bc := by
      refine inv_run (fun s c hs hc => Tidy.step hs hc) _ calls (fun _ _ he => ?_) h
      cases he
    exact ⟨(htd i e he).create, (htd i e he).extend, (htd i e he).created⟩

/-- A `CREATE` whose second half never comes, and a `DESTROY`. -/
theorem buffer_outlives_state :
    ∃ e, (run (step Aead.plain) (start .default sequentialOutCircIdPicker 0 false)
      [.fromPrev ⟨1, cmdCreate, [0, 2, 7]⟩ 0, .fromPrev ⟨1, cmdDestroy, []⟩ 0]).circuits.lookup 1 =
        some e ∧ e.state = .destroyed ∧ e.pendingCreate = some ⟨2, [7], 0⟩ :=
  ⟨_, rfl, rfl, rfl⟩

theorem tables_consistent_extend :
    (run (step Aead.plain) (start .default sequentialOutCircIdPicker 0 false)
      (openCalls 1 ++ [extendFirst 1])).circuits.lookup 1 ≠ none ∧
    ∀ e, (run (step Aead.plain) (start .default sequentialOutCircIdPicker 0 false)
      (openCalls 1 ++ [extendFirst 1])).circuits.lookup 1 = some e →
        e.pendingExtend.isSome = true → e.state = .open := by
  refine ⟨by decide +kernel, fun e he => ?_⟩
  exact ((tables_consistent Aead.plain .default sequentialOutCircIdPicker 0 false
    (openCalls 1 ++ [extendFirst 1])).2.2.2.2 (by decide +kernel) 1 e he).2.1

end BridgeCircuitState

end Mirage.Circuits
