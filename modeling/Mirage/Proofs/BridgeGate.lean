import Mirage.Lib.Runs
import Mirage.Proofs.BridgeSteps

/-!
# The per-hop gate

Only `EXTEND` and the relaying of a payload look at `token_verified`; `Gate` says that what the
others look at implies it.
-/

namespace Mirage.Circuits

open Words Maps Runs Option

def BridgeAction.gated : BridgeAction → Bool
  | .openNextHop _ _ _ _ _ => true
  | .sendToNext _ _ => true
  | .forwardExtendFinishToNext _ _ => true
  | .relayPayloadAtExit _ _ => true
  | _ => false

/-- The circuit an action is for: the one it names, or the one with the id it names toward the next
hop. -/
def BridgeAction.For (bc : BridgeCircuitState) (id : UInt32) : BridgeAction → Prop
  | .performHandshake i _ => i = id
  | .sendToPrev i _ => i = id
  | .openNextHop i _ _ _ _ => i = id
  | .destroyPrevLink i => i = id
  | .relayPayloadAtExit i _ => i = id
  | .verifyExtendFinish i _ => i = id
  | .sendToNext out _ => ∃ e, bc.circuits.lookup id = some e ∧ e.outCircId = some out
  | .destroyNextLink out => ∃ e, bc.circuits.lookup id = some e ∧ e.outCircId = some out
  | .forwardExtendFinishToNext out _ => ∃ e, bc.circuits.lookup id = some e ∧ e.outCircId = some out

/-- The circuit has a next hop or is on the way to one. -/
def Phase.Beyond (p : Phase) : Prop :=
  p.out.isSome = true ∨ p.state = .extending ∨ p.pendingExtend.isSome = true

variable {c : BridgeCall}

namespace BridgeCircuitState

variable {A : Aead} {bc : BridgeCircuitState} {o : Order} {id : UInt32} {r : Reply}

def Has (bc : BridgeCircuitState) (id : UInt32) : Prop := (bc.circuits.lookup id).isSome = true

/-- The token of the circuit was verified, and the entry has been there since. -/
def Granted (A : Aead) (start : BridgeCircuitState) (calls : List BridgeCall) (id : UInt32) :
    Prop :=
  ∃ before after, calls = before ++ .tokenVerified id :: after ∧
    (run (step A) start before).Has id ∧
    ∀ mid, mid <+: after → (run (step A) start (before ++ .tokenVerified id :: mid)).Has id

/-- Every entry that reaches beyond this hop is verified. -/
structure Gate (bc : BridgeCircuitState) : Prop where
  relay : bc.relayMode = true
  verified : ∀ id e, bc.circuits.lookup id = some e → e.phase.Beyond → e.phase.tokenVerified = true

lemma Gate.removeEntry (h : Gate bc) : Gate (bc.removeEntry id) :=
  ⟨h.relay, fun j e hj => h.verified j e (lookup_removeEntry hj)⟩

variable {p p' : Phase} {a : BridgeAction}

lemma Turn.gate (h : Turn bc o p p') (hrl : bc.relayMode = true)
    (ho : p.Beyond → p.tokenVerified = true) (hby : p'.Beyond) : p'.tokenVerified = true := by
  cases h with
  | stay | createCont | noId hs | reply hs | createdPiece => exact ho hby
  | extend hs ha hb => exact ha.auth hrl
  | extendCont body hs hb =>
    rename_i b
    refine ho ?_
    rcases hby with hot | he | hp
    · exact .inl hot
    · exact .inr (.inl he)
    · obtain ⟨r, hr⟩ := isSome_iff_exists.1 hp
      obtain ⟨r₀, hr₀, -⟩ := hb r hr
      exact .inr (.inr (isSome_iff_exists.2 ⟨r₀, hr₀⟩))
  | extended hs => exact ho (.inr (.inl hs))
  | opened hs | teardown =>
    refine ho ?_
    rcases hby with hot | he | hp
    · exact .inl hot
    · cases he
    · exact .inr (.inr hp)
  | verify => rfl

lemma Gate.became {e' : CircuitEntry} (h : Gate bc) (hb : Became bc o id e')
    (hby : e'.phase.Beyond) : e'.phase.tokenVerified = true := by
  cases hb with
  | made now ho hn hb => simp [Phase.Beyond, freshEntry] at hby
  | turned he ht => exact ht.gate h.relay (h.verified id _ he) hby
  | linked he hs ha hp =>
    rw [hp]
    rcases ha with ⟨-, ha⟩ | hc
    · exact ha.auth h.relay
    · exact h.verified id _ he (.inr (.inr hc.isSome))

lemma Gate.effect (h : Gate bc) (he : Effect bc o id r) : Gate r.2 := by
  refine ⟨he.relayMode.trans h.relay, fun j e' hj hby => ?_⟩
  rcases he.entry hj with ho | ⟨-, hb⟩
  · exact h.verified j e' ho hby
  · exact h.became hb hby

lemma Gate.step (h : Gate bc) : Gate (bc.step A c) :=
  step_inv (fun _ _ ho => h.effect (call_effect ho)) (fun _ _ h => h.removeEntry) h

lemma innerOrder_ne_verify (peeled : Bytes) : innerOrder peeled ≠ .verify := by
  unfold innerOrder
  split
  · simp
  · split_ifs <;> simp

lemma prevOrder_ne_verify (cell : Cell) (now : Instant) : bc.prevOrder A cell now ≠ .verify := by
  unfold prevOrder relayOrder
  split_ifs
  any_goals simp
  split
  · simp
  · exact innerOrder_ne_verify _

lemma failureOrder_ne_verify (state : CircuitEntryState) : bc.failureOrder id state ≠ .verify := by
  unfold failureOrder
  split_ifs <;> simp

lemma eq_tokenVerified_of_order (h : bc.order A c = some (id, .verify)) :
    c = .tokenVerified id := by
  cases c with
  | fromPrev cell now =>
    exact absurd (congrArg Prod.snd (some.inj h)) (prevOrder_ne_verify _ _)
  | fromNext cell now =>
    obtain ⟨i, -, heq⟩ := map_eq_some_iff.1 h
    have hn : nextOrder cell = .verify := congrArg Prod.snd heq
    unfold nextOrder at hn
    split_ifs at hn
  | tokenVerified i => rw [(Prod.mk.inj (some.inj h)).1]
  | createFailure i now | extendFailure i now =>
    exact absurd (congrArg Prod.snd (some.inj h)) (failureOrder_ne_verify _)
  | createComplete | extendComplete | injectExitResponse | reap | tick => simp [order] at h

lemma Turn.verified (h : Turn bc o p p') (hv : p'.tokenVerified = true) :
    p.tokenVerified = true ∨ o = .verify := by
  cases h with
  | verify => exact .inr rfl
  | stay | createCont | extend | noId | extendCont | createdPiece | extended | opened | reply
  | teardown => exact .inl hv

lemma verified_of_step (hr : bc.relayMode = true) :
    ∀ e', (bc.step A c).circuits.lookup id = some e' → e'.tokenVerified = true →
      (∃ e, bc.circuits.lookup id = some e ∧ e.tokenVerified = true) ∨
        c = .tokenVerified id ∧ bc.Has id := by
  refine step_inv (I := fun s => ∀ e', s.circuits.lookup id = some e' → e'.tokenVerified = true →
    _) ?_ (fun _ _ hI e' he' => hI e' (lookup_removeEntry he')) fun e' he' hv => .inl ⟨e', he', hv⟩
  intro i o hor e' he' hv
  rcases (call_effect hor).entry he' with hol | ⟨rfl, hb⟩
  · exact .inl ⟨e', hol, hv⟩
  cases hb with
  | made now ho hn hb => simp [freshEntry, hr] at hv
  | linked he hs ha hp =>
    exact .inl ⟨_, he, (congrArg Phase.tokenVerified hp).symm.trans hv⟩
  | turned he ht =>
    refine (ht.verified hv).imp (fun h => ⟨_, he, h⟩) ?_
    rintro rfl
    exact ⟨eq_tokenVerified_of_order hor, isSome_iff_exists.2 ⟨_, he⟩⟩

lemma Effect.gated (h : Effect bc o id r) (hgt : Gate bc)
    (ha : a ∈ actionsOf r.1) (hg : a.gated = true) :
    a.For bc id ∧ ∃ e, bc.circuits.lookup id = some e ∧ e.tokenVerified = true := by
  cases h with
  | idle seq hn =>
    rw [hn] at ha
    cases ha
  | made now ho hnw hcp hr hb hac =>
    obtain ⟨msg, rfl⟩ := hac a ha
    cases hg
  | linked seq pk endpoint msg he hst had hne hf hp =>
    obtain rfl := List.mem_singleton.1 ha
    refine ⟨rfl, _, he, ?_⟩
    rcases had with ⟨-, had⟩ | hc
    · exact had.auth hgt.relay
    · exact hgt.verified id _ he (.inr (.inr hc.isSome))
  | turned seq he ht hac =>
    have hs := hac a ha
    cases a with
    | openNextHop => cases hs
    | sendToNext out cell => exact ⟨⟨_, he, hs.1⟩, _, he, hs.2 hgt.relay⟩
    | relayPayloadAtExit i payload => exact ⟨hs.1, _, he, hs.2 hgt.relay⟩
    | forwardExtendFinishToNext out msg =>
      have hot : Option.isSome _ = true := Option.isSome_iff_exists.2 ⟨out, hs⟩
      exact ⟨⟨_, he, hs⟩, _, he, hgt.verified id _ he (.inl hot)⟩
    | performHandshake | sendToPrev | destroyPrevLink | destroyNextLink | verifyExtendFinish =>
      cases hg

lemma Gate.emitted (h : Gate bc) (ha : a ∈ bc.emitted A c)
    (hg : a.gated = true) : (∃ id, a.For bc id) ∧
      ∀ id, a.For bc id → ∃ e, bc.circuits.lookup id = some e ∧ e.tokenVerified = true := by
  unfold BridgeCircuitState.emitted at ha
  cases ho : bc.order A c with
  | none =>
    cases c with
    | fromNext cell now =>
      rw [call_fromNext_none (map_eq_none_iff.1 ho)] at ha
      cases ha
    | tick order now =>
      rcases tick_actions a ha with ⟨id, rfl⟩ | ⟨out, rfl⟩ <;> cases hg
    | fromPrev | createComplete | createFailure | extendComplete | extendFailure
    | injectExitResponse | tokenVerified | reap => cases ho
  | some p =>
    obtain ⟨hf, hv⟩ := (call_effect ho).gated h ha hg
    refine ⟨⟨p.1, hf⟩, fun id hid => ?_⟩
    -- An id toward the next hop is enough; otherwise the action names the circuit itself.
    cases a with
    | openNextHop | relayPayloadAtExit => exact hid ▸ hf ▸ hv
    | sendToNext out cell | forwardExtendFinishToNext out msg =>
      obtain ⟨e, he, hot⟩ := hid
      exact ⟨e, he, h.verified id e he (.inl (by simp [hot]))⟩
    | performHandshake | sendToPrev | destroyPrevLink | destroyNextLink | verifyExtendFinish =>
      cases hg

section Runs

variable {policy : BridgePolicy} {picker : UInt64 → UInt32} {seq : UInt64}

variable (calls : List BridgeCall)

lemma gate_run : Gate (run (BridgeCircuitState.step A) (start policy picker seq true) calls) := by
  refine inv_run (fun _ c h _ => h.step) _ _ ⟨rfl, ?_⟩ (along_true _ calls)
  intro id e he
  cases he

lemma granted_of_verified : ∀ id e,
    (run (step A) (start policy picker seq true) calls).circuits.lookup id = some e →
    e.tokenVerified = true → Granted A (start policy picker seq true) calls id := by
  induction calls using List.reverseRecOn with
  | nil =>
    intro id e he
    cases he
  | append_singleton calls c ih =>
    intro id e he hv
    have hh : (run (step A) (start policy picker seq true) (calls ++ [c])).Has id :=
      isSome_iff_exists.2 ⟨e, he⟩
    rw [run_append] at he
    rcases verified_of_step (gate_run calls).relay e he hv with ⟨e₀, he₀, hv₀⟩ | ⟨rfl, hb⟩
    · obtain ⟨before, after, rfl, hb, hs⟩ := ih id e₀ he₀ hv₀
      refine ⟨before, after ++ [c], by simp, hb, fun mid hm => ?_⟩
      rcases List.prefix_concat_iff.1 hm with rfl | hm
      · simpa using hh
      · exact hs mid hm
    · refine ⟨calls, [], rfl, hb, fun mid hm => ?_⟩
      rw [List.prefix_nil.1 hm]
      exact hh

/-- What reaches beyond this hop is for a circuit whose token was verified since its entry was made,
and so is every entry with a next hop or on the way to one. -/
theorem verified_before_beyond (A : Aead) (policy : BridgePolicy) (picker : UInt64 → UInt32)
    (seq : UInt64) (calls : List BridgeCall) :
    (∀ c, ∀ a ∈ (run (step A) (start policy picker seq true) calls).emitted A c, a.gated = true →
      (∃ id, a.For (run (step A) (start policy picker seq true) calls) id) ∧
      ∀ id, a.For (run (step A) (start policy picker seq true) calls) id →
        Granted A (start policy picker seq true) calls id) ∧
    (∀ id e, (run (step A) (start policy picker seq true) calls).circuits.lookup id = some e →
      e.outCircId.isSome = true ∨ e.state = .extending → e.tokenVerified = true) ∧
    ∀ id e, (run (step A) (start policy picker seq true) calls).circuits.lookup id = some e →
      e.tokenVerified = true → Granted A (start policy picker seq true) calls id := by
  have hgt : Gate (run (step A) (start policy picker seq true) calls) := gate_run calls
  refine ⟨fun c a ha hg => ?_, fun id e he hb => ?_, granted_of_verified calls⟩
  · obtain ⟨hf, hal⟩ := hgt.emitted ha hg
    refine ⟨hf, fun id hid => ?_⟩
    obtain ⟨e, he, hv⟩ := hal id hid
    exact granted_of_verified calls id e he hv
  · exact hgt.verified id e he (hb.imp_right .inl)

end Runs

def verifiedCalls : List BridgeCall :=
  [.fromPrev ⟨5, cmdCreate, [0, 0]⟩ 0, .createComplete 5 HopKeys.blank [] 1, .tokenVerified 5]

def blankExtend : Bytes := List.replicate 32 0 ++ [1, 127, 0, 0, 1, 0, 80] ++ [0, 0]

theorem verified_before_beyond_extend :
    (run (step Aead.plain) (start .default sequentialOutCircIdPicker 0 true)
        verifiedCalls).emitted Aead.plain (.fromPrev ⟨5, cmdExtend, blankExtend⟩ 2) =
      [.openNextHop 5 2 (Vector.replicate 32 0) (.ipv4 #v[127, 0, 0, 1] 80) []] ∧
    Granted Aead.plain (start .default sequentialOutCircIdPicker 0 true) verifiedCalls 5 := by
  have he : (run (step Aead.plain) (start .default sequentialOutCircIdPicker 0 true)
        verifiedCalls).emitted Aead.plain (.fromPrev ⟨5, cmdExtend, blankExtend⟩ 2) =
      [.openNextHop 5 2 (Vector.replicate 32 0) (.ipv4 #v[127, 0, 0, 1] 80) []] := by
    decide +kernel
  have ha := (verified_before_beyond Aead.plain .default sequentialOutCircIdPicker 0
    verifiedCalls).1 _ _ (he ▸ List.mem_singleton_self _) rfl
  exact ⟨he, ha.2 5 rfl⟩

lemma step_apart {j : UInt32} (h : ∀ p ∈ bc.order A c, j ≠ p.1) :
    (bc.step A c).circuits.lookup j = bc.circuits.lookup j ∨
      (bc.step A c).circuits.lookup j = none ∧ ∃ order now, c = .tick order now := by
  cases ho : bc.order A c with
  | some p => exact .inl ((call_effect ho).lookup_ne (h p ho))
  | none =>
    cases c with
    | fromNext cell now =>
      rw [step, call_fromNext_none (map_eq_none_iff.1 ho)]
      exact .inl rfl
    | tick order now =>
      cases hj : (bc.step A (.tick order now)).circuits.lookup j with
      | none => exact .inr ⟨rfl, _, _, rfl⟩
      | some e =>
        -- what a sweep leaves it has not touched
        exact .inl (.symm (tick_inv (I := fun s => s.circuits.lookup j = some e →
          bc.circuits.lookup j = some e) (fun s id hs h => hs (lookup_removeEntry h)) id hj))
    | fromPrev | createComplete | createFailure | extendComplete | extendFailure
    | injectExitResponse | tokenVerified | reap => cases ho

/-- A circuit that no call is for stays as it is, until a sweep removes it. -/
theorem circuits_apart (j : UInt32) (calls : List BridgeCall)
    (h : Along (step A) (fun bc c => ∀ p ∈ bc.order A c, j ≠ p.1) bc calls) :
    (run (step A) bc calls).circuits.lookup j = bc.circuits.lookup j ∨
      (run (step A) bc calls).circuits.lookup j = none ∧ ∃ order now, .tick order now ∈ calls := by
  induction calls generalizing bc with
  | nil => exact .inl rfl
  | cons c calls ih =>
    rcases ih h.2 with hr | ⟨hr, o, now, hm⟩
    · rcases step_apart h.1 with hs | ⟨hs, o, now, rfl⟩
      · exact .inl (hr.trans hs)
      · exact .inr ⟨hr.trans hs, o, now, List.mem_cons_self⟩
    · exact .inr ⟨hr, o, now, List.mem_cons_of_mem _ hm⟩

theorem circuits_apart_reaped :
    let bc := run (step Aead.plain) (start .default sequentialOutCircIdPicker 0 true) verifiedCalls
    let bc' := run (step Aead.plain) bc [.fromPrev ⟨6, cmdCreate, [0, 0]⟩ 2, .reap 6 3]
    bc.circuitState 5 = some .open ∧ bc'.circuits.lookup 5 = bc.circuits.lookup 5 := by
  refine ⟨by decide +kernel, (circuits_apart 5 _ ?_).resolve_right (by simp)⟩
  exact ⟨by rintro _ ⟨⟩; decide, by rintro _ ⟨⟩; decide, trivial⟩

end BridgeCircuitState

end Mirage.Circuits
