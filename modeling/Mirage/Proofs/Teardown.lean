import Mirage.Proofs.ExitMoves
import Mirage.Proofs.Routing

/-!
# What is left of a circuit

Nothing takes the streams of a circuit that is destroyed by a hop or swept by the tick, and nothing
at all its rendezvous role.
-/

namespace Mirage.Bridge.SessionTask

open Circuits Words Maps Runs BridgeCircuitState List
open TcpStreamDispatcher (beginPayload endPayload)

variable {A : Aead} {S : Ed25519} {t t' : SessionTask} {purge : Prop} {down : UInt32 → Prop}
  {new : Option UInt32} {c : UInt32} {now : Instant} {bc : BridgeCircuitState} {e : SessionEvent}

/-- The router's tables know the circuit. -/
def Named (t : SessionTask) (c : UInt32) : Prop :=
  ∃ r, t.rendezvous = some r ∧ r.state.Mentions ⟨t.rvHandle, c⟩

instance (t : SessionTask) (c : UInt32) : Decidable (t.Named c) :=
  match h : t.rendezvous with
  | none => isFalse fun ⟨_, hr, _⟩ => by rw [h] at hr; cases hr
  | some r =>
    decidable_of_iff (r.state.Mentions ⟨t.rvHandle, c⟩)
      ⟨fun hm => ⟨r, h, hm⟩, fun ⟨_, hr, hm⟩ => by rw [h] at hr; cases hr; exact hm⟩

/-- The step takes the circuit down. -/
def Ends (t t' : SessionTask) (c : UInt32) : Prop := t.state.Alive c ∧ ¬ t'.state.Alive c

/-- Only `new` gets a responder. -/
structure Responds (new : Option UInt32) (x x' : BridgeCircuitExecutor) : Prop where
  token : x'.tokenVerify = x.tokenVerify
  mem : ∀ c ∈ x'.pendingResponders, c ∈ x.pendingResponders ∨ new = some c ∧ x.tokenVerify = true

/-- What a step tends to of what it leaves of the circuits. One that it ends is `down`. -/
structure Tends (purge : Prop) (down : UInt32 → Prop) (new : Option UInt32)
    (t t' : SessionTask) : Prop where
  handle : t'.rvHandle = t.rvHandle
  held : ∀ c ∈ t'.rvCircuits, c ∈ t.rvCircuits ∨ new = some c
  named : ∀ c, t'.Named c → t.Named c ∨ new = some c
  responders : Responds new t.executor t'.executor
  agenda : t'.result = none → ∀ task ∈ t.agenda, task ∈ t'.agenda
  ended : ∀ c, Ends t t' c → down c
  announced : t'.result = none → ∀ c, Ends t t' c → .act (.destroyPrevLink c) ∈ t'.agenda
  purged : purge → ∀ c, Ends t t' c → ∀ s, t'.streamToCirc.lookup s ≠ some c
  kept : ∀ c, new = some c → t.state.Alive c → t'.state.Alive c

section Responds

variable {x x' x'' : BridgeCircuitExecutor}

lemma Responds.refl (x : BridgeCircuitExecutor) : Responds new x x := ⟨rfl, fun _ => .inl⟩

lemma Responds.trans (h : Responds new x x') (h' : Responds new x' x'') : Responds new x x'' := by
  refine ⟨h'.token.trans h.token, fun c hc => ?_⟩
  rcases h'.mem c hc with hc | ⟨hc, ht⟩
  · exact h.mem c hc
  · exact .inr ⟨hc, h.token ▸ ht⟩

lemma Responds.of_eq (ht : x'.tokenVerify = x.tokenVerify)
    (h : x'.pendingResponders = x.pendingResponders) : Responds new x x' :=
  ⟨ht, fun _ hc => .inl (h ▸ hc)⟩

lemma Responds.of_operates (h : x.Operates new x') : Responds new x x' :=
  ⟨h.tokenVerify, h.responders⟩

lemma Responds.forgetPendingResponder : Responds none x (x.forgetPendingResponder c) :=
  .of_operates (BridgeCircuitExecutor.forgetPendingResponder_operates c)

lemma Responds.arrive (k : ℕ) (cell : Cell) : Responds new x (x.arrive k cell) := by
  unfold BridgeCircuitExecutor.arrive
  split
  · exact .refl x
  · split_ifs <;> exact .of_eq rfl rfl

end Responds

lemma Tends.of_alive (hh : t'.rvHandle = t.rvHandle) (hhl : t'.rvCircuits = t.rvCircuits)
    (hn : ∀ c, t'.Named c → t.Named c)
    (hr : Responds new t.executor t'.executor)
    (hag : t'.result = none → ∀ task ∈ t.agenda, task ∈ t'.agenda)
    (ha : ∀ c, t.state.Alive c → t'.state.Alive c) : Tends purge down new t t' where
  handle := hh
  held _ hc := .inl (hhl ▸ hc)
  named c hc := .inl (hn c hc)
  responders := hr
  agenda := hag
  ended c hc := absurd (ha c hc.1) hc.2
  announced _ c hc := absurd (ha c hc.1) hc.2
  purged _ c hc := absurd (ha c hc.1) hc.2
  kept c _ := ha c

lemma Tends.mono {down' : UInt32 → Prop} (h : Tends purge down new t t')
    (hd : ∀ c, down c → down' c) : Tends purge down' new t t' :=
  { h with ended := fun c hc => hd c (h.ended c hc) }

lemma Tends.refl : Tends purge down new t t :=
  .of_alive rfl rfl (fun _ => id) (.refl _) (fun _ _ => id) fun _ => id

lemma Tends.of_same (t₀ : SessionTask) (h : Tends purge down new t₀ t')
    (ha : ∀ c, t.state.Alive c → t₀.state.Alive c)
    (hh : t₀.rvHandle = t.rvHandle) (hhl : t₀.rvCircuits = t.rvCircuits)
    (hrv : t₀.rendezvous = t.rendezvous) (hag : t.agenda ⊆ t₀.agenda)
    (hrs : Responds new t.executor t₀.executor) : Tends purge down new t t' := by
  have hn : ∀ c, t₀.Named c → t.Named c := by
    unfold Named
    rw [hrv, hh]
    exact fun _ => id
  exact
    { handle := h.handle.trans hh
      held := hhl ▸ h.held
      named := fun c hc => (h.named c hc).imp_left (hn c)
      responders := hrs.trans h.responders
      agenda := fun hr task ht => h.agenda hr task (hag ht)
      ended := fun c hc => h.ended c ⟨ha c hc.1, hc.2⟩
      announced := fun hr c hc => h.announced hr c ⟨ha c hc.1, hc.2⟩
      purged := fun hp c hc => h.purged hp c ⟨ha c hc.1, hc.2⟩
      kept := fun c hc hl => h.kept c hc (ha c hl) }

lemma Tends.of_beside {x : BridgeCircuitExecutor} {m : AList fun _ : StreamId => UInt32}
    {lives : UInt32 → ℕ} {openers : List CircuitLife}
    (h : Tends purge down new
      { t with executor := x, streamToCirc := m, lives := lives, openers := openers } t')
    (hx : Responds new t.executor x) : Tends purge down new t t' :=
  .of_same _ h (fun _ => id) rfl rfl rfl (fun _ => id) hx

lemma named_of_step {r : RendezvousRouter} (call : RouterCall) (hr : t.rendezvous = some r)
    (h : (r.step S call).state.Mentions ⟨t.rvHandle, c⟩) :
    t.Named c ∨ call.circ = some ⟨t.rvHandle, c⟩ :=
  (RendezvousRouter.mentions_step h).imp_left fun hm => ⟨r, hr, hm⟩

lemma named_finish {result : Except DaemonError Unit} (h : (t.finish result).Named c) :
    t.Named c := by
  obtain ⟨r', hr', hm⟩ := h
  obtain ⟨r, hr, rfl⟩ := Option.map_eq_some_iff.1 hr'
  have hs := named_of_step (S := anySignature) (.forgetSession t.rvHandle t.rvCircuits) hr hm
  exact hs.resolve_right fun hx => nomatch hx

lemma Tends.finish (result : Except DaemonError Unit) : Tends purge down new t (t.finish result) :=
  .of_alive rfl rfl (fun _ => named_finish) (.refl _) (fun hr => nomatch hr) fun _ => id

lemma Tends.executeActions {acts : List BridgeAction}
    (he : ∀ c, t.state.Alive c → ¬ bc.Alive c → .destroyPrevLink c ∈ acts ∧ down c)
    (hpr : purge → ∀ c, t.state.Alive c → ¬ bc.Alive c → ∀ s, t.streamToCirc.lookup s ≠ some c) :
    Tends purge down none t ({ t with state := bc }.executeActions acts) where
  handle := rfl
  held _ := .inl
  named _ := .inl
  responders := .refl _
  agenda _ _ := mem_append_right _
  ended c hc := (he c hc.1 hc.2).2
  announced _ c hc := mem_append_left _ (mem_map_of_mem (he c hc.1 hc.2).1)
  purged hp c hc := hpr hp c hc.1 hc.2
  kept _ h := nomatch h

lemma Tends.executeActions_alive (acts : List BridgeAction)
    (ha : ∀ c, t.state.Alive c → bc.Alive c) :
    Tends purge down new t ({ t with state := bc }.executeActions acts) :=
  .of_alive rfl rfl (fun _ => id) (.refl _) (fun _ _ => mem_append_right _) ha

lemma Tends.record {reply : Reply} (ha : ∀ c, t.state.Alive c → reply.2.Alive c) :
    Tends purge down new t (t.record reply) := by
  obtain ⟨e | acts, bc⟩ := reply
  · exact .of_alive rfl rfl (fun _ => named_finish) (.refl _) (fun hr => nomatch hr) ha
  · exact .executeActions_alive acts ha

lemma lookup_purgeStreams_ne (s : StreamId) :
    (t.purgeStreams c).streamToCirc.lookup s ≠ some c := by
  change (retain _ t.streamToCirc).lookup s ≠ some c
  rw [lookup_retain]
  intro h
  simpa using (Option.filter_eq_some_iff.1 h).2

lemma Tends.reapCircuit (hd : down c) : Tends purge down none t (t.reapCircuit A c now) := by
  unfold SessionTask.reapCircuit
  split
  · exact .of_beside (.finish _) .forgetPendingResponder
  rename_i cell hn
  obtain ⟨-, -, -, rfl⟩ := Cell.new_eq_ok.1 hn
  refine .of_beside (.executeActions (fun i h h' => ?_) fun _ i h h' s => ?_)
    .forgetPendingResponder
  · exact ⟨prev_ends_emits h h', (prev_ends h h').1 ▸ hd⟩
  · obtain ⟨rfl, -⟩ := prev_ends h h'
    exact lookup_purgeStreams_ne s

lemma Tends.reapCircuitByOutId (out : UInt32)
    (hd : ∀ c, t.state.inCircIdFor out = some c → down c) :
    Tends purge down none t (t.reapCircuitByOutId A out now) := by
  unfold SessionTask.reapCircuitByOutId
  unfold inCircIdFor at hd ⊢
  cases hid : t.state.outToIn.lookup out with
  | none =>
    dsimp only
    split
    · exact .finish _
    rename_i cell hn
    obtain ⟨-, -, -, rfl⟩ := Cell.new_eq_ok.1 hn
    refine .executeActions_alive _ fun i hi => ?_
    rw [processInboundFromNext_none now hid]
    exact hi
  | some j =>
    dsimp only
    split
    · exact .of_beside (.finish _) (.refl _)
    rename_i cell hn
    obtain ⟨-, -, -, rfl⟩ := Cell.new_eq_ok.1 hn
    refine .of_beside (.executeActions (fun i h h' => ?_) fun _ i h h' s => ?_) (.refl _)
    · obtain ⟨ho, -, hm⟩ := next_ends_emits h h'
      exact ⟨hm, hd i ho⟩
    · obtain rfl := Option.some.inj (hid.symm.trans (next_ends_emits h h').1)
      exact lookup_purgeStreams_ne s

lemma inject_alive {payload : Bytes} {i : UInt32} (h : t.state.Alive i) :
    (t.state.injectExitResponse A c payload now).2.Alive i :=
  handleRelayFromNext_does.effect.alive (by simp) h

lemma Tends.sendRendezvousSub (cmd : UInt8) (body : Bytes) :
    Tends purge down new t (t.sendRendezvousSub A c cmd body now) := by
  unfold SessionTask.sendRendezvousSub
  split
  · exact .refl
  · exact .executeActions_alive _ fun _ => inject_alive

lemma Tends.of_router {r r' : RendezvousRouter} (call : RouterCall) {held : List UInt32}
    (hr : t.rendezvous = some r) (hr' : r'.state = (r.step S call).state)
    (hcr : ∀ x, call.circ = some ⟨t.rvHandle, x⟩ → new = some x)
    (hh : ∀ c ∈ held, c ∈ t.rvCircuits ∨ new = some c)
    (h : Tends purge down new { t with rendezvous := some r', rvCircuits := held } t') :
    Tends purge down new t t' where
  handle := h.handle
  held c hc := (h.held c hc).elim (hh c) .inr
  named c hc := by
    rcases h.named c hc with ⟨r'', hrx, hm⟩ | hn
    · cases hrx
      rw [hr'] at hm
      exact (named_of_step call hr hm).imp_right (hcr c)
    · exact .inr hn
  responders := h.responders
  agenda := h.agenda
  ended := h.ended
  announced := h.announced
  purged := h.purged
  kept := h.kept

lemma Tends.call (S : Ed25519) (call : RouterCall)
    (hcr : ∀ x, call.circ ≠ some ⟨t.rvHandle, x⟩) :
    Tends purge down new t { t with rendezvous := t.rendezvous.map fun r => r.step S call } := by
  refine .of_alive rfl rfl (fun c hc => ?_) (.refl _) (fun _ _ => id) fun _ => id
  obtain ⟨r', hr', hm⟩ := hc
  obtain ⟨r, hr, rfl⟩ := Option.map_eq_some_iff.1 hr'
  exact (named_of_step call hr hm).resolve_right (hcr c)

lemma Tends.handleRendezvous (c : UInt32) (cmd : UInt8) (body : Bytes) (now : Instant) :
    Tends purge down (some c) t (t.handleRendezvous A S c cmd body now) := by
  have hs : ∀ {x : UInt32}, some (⟨t.rvHandle, c⟩ : CircuitRef) = some ⟨t.rvHandle, x⟩ →
      some c = some x := by
    intro x hx
    cases hx
    rfl
  have hh : ∀ i ∈ t.rvCircuits.insert c, i ∈ t.rvCircuits ∨ some c = some i := by
    intro i hi
    rcases mem_insert_iff.1 hi with rfl | hi
    · exact .inr rfl
    · exact .inl hi
  unfold SessionTask.handleRendezvous
  split
  · exact .refl
  rename_i r hr
  dsimp only
  split_ifs
  · split
    · exact .of_router (.establishIntro ⟨t.rvHandle, c⟩ body now) hr rfl
        (fun _ => hs) hh (.sendRendezvousSub _ _)
    · exact .of_router (.establishIntro ⟨t.rvHandle, c⟩ body now) hr rfl
        (fun _ => hs) (fun _ => .inl) .refl
  · split
    · exact .of_router (S := S) (.establishRendezvous ⟨t.rvHandle, c⟩ body now) hr rfl
        (fun _ => hs) hh (.sendRendezvousSub _ _)
    · exact .of_router (S := S) (.establishRendezvous ⟨t.rvHandle, c⟩ body now) hr rfl
        (fun _ => hs) (fun _ => .inl) .refl
  · exact .refl
  · exact .of_router (S := S) (.introduce (vec 32 body) (body.drop 32) now) hr rfl
      (fun _ hx => nomatch hx) (fun _ => .inl) .refl
  · split
    · exact .of_router (S := S) (.rendezvous ⟨t.rvHandle, c⟩ body now) hr rfl
        (fun _ => hs) hh .refl
    · exact .of_router (S := S) (.rendezvous ⟨t.rvHandle, c⟩ body now) hr rfl
        (fun _ => hs) (fun _ => .inl) .refl
  · exact .refl

lemma Tends.exitPayload (c : UInt32) (payload : Bytes) (o : Outcome)
    (hd : (t.executor.handleExitPayload o.net payload).1.isOk = false → down c) :
    Tends purge down none t (t.exitPayload A c payload o) := by
  unfold SessionTask.exitPayload
  dsimp only
  split
  · exact .of_alive rfl rfl (fun _ => id) (.of_eq rfl rfl) (fun _ _ => id) fun _ => id
  · rename_i heq
    exact .of_beside (.reapCircuit (hd (by rw [heq]; rfl))) (.of_eq rfl rfl)

lemma Tends.relayPayloadAtExit (c : UInt32) (payload : Bytes) (o : Outcome)
    (hd : t.fails o c (.relayPayloadAtExit c payload) = true → down c) :
    ∃ new, (∀ i, new = some i → i = c) ∧
      Tends purge down new t (t.relayPayloadAtExit A S c payload o) := by
  unfold fails at hd
  unfold SessionTask.relayPayloadAtExit
  split
  · rename_i heq
    refine ⟨none, fun _ h => (nomatch h), .exitPayload c payload o fun hf => hd ?_⟩
    simp [exits, heq, hf]
  rename_i sub heq
  split_ifs with hrv hc
  · exact ⟨some c, fun _ h => (Option.some.inj h).symm, .handleRendezvous c _ _ o.now⟩
  · refine ⟨none, fun _ h => (nomatch h), ?_⟩
    exact .call S (.relayToPartner ⟨t.rvHandle, c⟩ sub.command sub.body) fun _ hx => nomatch hx
  · obtain ⟨m, hm⟩ := t.trackStream_eq_with c sub
    rw [hm]
    refine ⟨none, fun _ h => (nomatch h), .of_beside (.exitPayload c payload o fun hf => hd ?_)
      (.refl _)⟩
    rw [Bool.not_eq_true] at hrv
    simp [exits, heq, hf, hc, hrv]

lemma Reports.alive {call : BridgeCall} (h : Reports call) (hc : bc.Alive c) :
    (bc.call A call).2.Alive c := by
  cases call with
  | createComplete id keys msg now =>
    exact (recordCreateComplete_does keys msg).effect.alive (by simp) hc
  | extendComplete id msg now =>
    exact (recordExtendComplete_does msg).effect.alive (by simp) hc
  | tokenVerified id => exact recordTokenVerified_does.effect.alive (by simp) hc
  | fromPrev | fromNext | createFailure | extendFailure | injectExitResponse | reap | tick =>
    exact h.elim

lemma Tends.execute (o : Outcome) (a : BridgeAction) (hd : ∀ c, t.fails o c a = true → down c) :
    ∃ new, (∀ i, new = some i → i ∈ a.actor) ∧ Tends purge down new t (t.execute A S o a) := by
  have hn : ∀ i, none = some i → i ∈ a.actor := fun _ h => nomatch h
  have hx := executed (A := A) (S := S) (t := t) o a
  generalize t.execute A S o a = t' at hx ⊢
  cases hx with
  | wrote c cell =>
    exact ⟨none, hn, .of_alive rfl rfl (fun _ => id) (.refl _) (fun _ _ => id) fun _ => id⟩
  | failed c cell => exact ⟨none, hn, .finish _⟩
  | beside hx => exact ⟨none, hn, .of_beside .refl (.of_operates hx)⟩
  | recorded hx hnw hc =>
    exact ⟨_, hnw, .of_beside (.record fun _ hi => hc.alive hi) (.of_operates hx)⟩
  | reaped c hx hf => exact ⟨none, hn, .of_beside (.reapCircuit (hd c hf)) (.of_operates hx)⟩
  | reapedByOut out hx hf =>
    exact ⟨none, hn, .of_beside (.reapCircuitByOutId out fun c hc => hd c (hf c hc))
      (.of_operates hx)⟩
  | exit c payload =>
    obtain ⟨new, hnw, h⟩ := Tends.relayPayloadAtExit c payload o (hd c)
    exact ⟨new, fun i hi => congrArg some (hnw i hi).symm, h⟩

lemma Tends.injectNext (c : UInt32) (u : ℕ) (now : Instant) (payloads : List Bytes) :
    Tends purge down new t (t.injectNext A c u now payloads) := by
  cases payloads with
  | nil => exact .refl
  | cons p ps =>
    have ha : ∀ i, t.state.Alive i → (t.state.injectExitResponse A c p now).2.Alive i :=
      fun _ => inject_alive
    unfold SessionTask.injectNext
    dsimp only
    split
    · rename_i acts bc heq
      rw [heq] at ha
      refine .of_alive rfl rfl (fun _ => id) (.refl _) (fun _ task ht => ?_) ha
      exact mem_append_right _ (mem_cons_of_mem _ ht)
    · rename_i heq
      rw [heq] at ha
      exact .of_alive rfl rfl (fun _ => id) (.refl _) (fun _ _ => id) ha

lemma Tends.perform (o : Outcome) (task : Task)
    (hd : ∀ c a, task = .act a → t.fails o c a = true → down c) :
    ∃ new, (∀ i, new = some i → ∃ a, task = .act a ∧ i ∈ a.actor) ∧
      Tends purge down new t (t.perform A S o task) := by
  cases task with
  | act a =>
    obtain ⟨new, hn, h⟩ := Tends.execute o a fun c => hd c a rfl
    exact ⟨new, fun i hi => ⟨a, rfl, hn i hi⟩, h⟩
  | inject c u now payloads =>
    exact ⟨none, fun _ h => (nomatch h), .injectNext c u now payloads⟩
  | sweep => exact ⟨none, fun _ h => (nomatch h), .call S (.tick o.now) fun _ hx => nomatch hx⟩

/-- A cell of the client takes its circuit down: a `DESTROY`, which may come in a `RELAY`, or one
that fails. -/
def cellEnds (A : Aead) (t : SessionTask) (cell : Cell) (now : Instant) : Bool :=
  t.state.prevOrder A cell now = .teardown || !(t.state.processInboundFromPrev A cell now).1.isOk

/-- A cell of a next hop takes the circuit down that it is for: a `DESTROY`, or one that fails. -/
def nextCellEnds (A : Aead) (t : SessionTask) (cell : Cell) (now : Instant) : Bool :=
  cell.command = cmdDestroy || !(t.state.processInboundFromNext A cell now).1.isOk

/-- What the loop takes the circuit `c` down for: such a cell, or a deadline at the tick. -/
def armEnds (A : Aead) (t : SessionTask) (c : UInt32) : Arm → Bool
  | .cell buf now => (Cell.decode buf).toOption.any fun cell =>
      cell.circId = c && t.cellEnds A cell now
  | .nextHopCell now => t.executor.inbound.head?.any fun p =>
      t.state.inCircIdFor p.2.circId = some c && t.nextCellEnds A p.2 now
  | .tick _ now => (t.state.circuits.lookup c).any (t.state.expired now)
  | _ => false

/-- The event takes the circuit `c` down: one of the loop does, or the executor fails at the next
action. -/
def takesDown (A : Aead) (t : SessionTask) (c : UInt32) (e : SessionEvent) : Bool :=
  match e, t.agenda with
  | .arm a, [] => t.armEnds A c a
  | .next o, .act a :: _ => t.fails o c a
  | _, _ => false

/-- The streams of a circuit that the event takes down are purged. -/
def Reaps (t : SessionTask) : SessionEvent → Bool
  | .next _ => true
  | .arm (.nextHopCell _) => t.executor.inbound.head?.all fun p => p.2.command ≠ cmdDestroy
  | _ => false

lemma Tends.handleCell (hp : ¬ purge) (cell : Cell)
    (hd : t.cellEnds A cell now = true → down cell.circId) :
    Tends purge down none t (t.handleCell A cell now) := by
  have he : ∀ i, t.state.Alive i → ¬ (t.state.processInboundFromPrev A cell now).2.Alive i →
      .destroyPrevLink i ∈ actionsOf (t.state.processInboundFromPrev A cell now).1 ∧ down i := by
    intro i h h'
    obtain ⟨rfl, ho⟩ := prev_ends h h'
    exact ⟨prev_ends_emits h h', hd (by simp [cellEnds, ho])⟩
  unfold SessionTask.handleCell
  split
  · rename_i bc heq
    rw [heq] at he
    exact .of_same { t with lives := t.countLife cell.circId bc }
      (.executeActions he fun h => absurd h hp) (fun _ => id) rfl rfl rfl (fun _ => id) (.refl _)
  rename_i err bc heq
  rw [heq] at he
  refine .of_same { t with lives := t.countLife cell.circId (bc.reapCircuit cell.circId now).2 }
    (.executeActions (fun i h h' => ?_) fun h => absurd h hp) (fun _ => id) rfl rfl rfl
    (fun _ => id) (.refl _)
  -- A call that fails has no actions, so it has ended no circuit.
  have hbc : bc.Alive i := by
    by_contra hd
    exact absurd (he i h hd).1 not_mem_nil
  obtain rfl : i = cell.circId := by
    by_contra hne
    exact h' (((handleDestroyFromPrev_does now).effect.alive_ne hne).2 hbc)
  exact ⟨reapCircuit_ends_emits hbc h', hd (by simp [cellEnds, heq, Except.isOk, Except.toBool])⟩

lemma Tends.handleNextHopCell (hd : ∀ c, t.armEnds A c (.nextHopCell now) = true → down c) :
    Tends (t.Reaps (.arm (.nextHopCell now)) = true) down none t (t.handleNextHopCell A now) := by
  unfold SessionTask.handleNextHopCell
  split
  · exact .refl
  rename_i out cell inbound hin
  have hdc : ∀ i, t.state.inCircIdFor cell.circId = some i → t.nextCellEnds A cell now = true →
      down i := by
    intro i hi hc
    exact hd i (by simp [armEnds, hin, hi, hc])
  have he : ∀ i, t.state.Alive i →
      ¬ (t.state.processInboundFromNext A cell now).2.Alive i → cell.command = cmdDestroy ∧
      .destroyPrevLink i ∈ actionsOf (t.state.processInboundFromNext A cell now).1 ∧ down i := by
    intro i h h'
    obtain ⟨ho, hc, hm⟩ := next_ends_emits h h'
    exact ⟨hc, hm, hdc i ho (by simp [nextCellEnds, hc])⟩
  have ht : (t.state.processInboundFromNext A cell now).2.outToIn = t.state.outToIn :=
    outToIn_of_next
  dsimp only
  split
  · rename_i heq
    rw [heq] at he
    refine .of_beside (.executeActions (fun i h h' => (he i h h').2) ?_) (.of_eq rfl rfl)
    intro hr i h h'
    simp [Reaps, hin, (he i h h').1] at hr
  · rename_i err bc heq
    rw [heq] at he ht
    have ha : ∀ i, t.state.Alive i → bc.Alive i := by
      intro i h
      by_contra hd
      exact absurd (he i h hd).2.1 not_mem_nil
    refine .of_same _ (.reapCircuitByOutId cell.circId fun i hi => hdc i ?_ ?_) ha rfl rfl rfl
      (fun _ => id) (.of_eq rfl rfl)
    · unfold inCircIdFor at hi ⊢
      exact ht ▸ hi
    · simp [nextCellEnds, heq, Except.isOk, Except.toBool]

lemma Tends.handleExitEvent (hi : t.agenda = []) :
    Tends purge down none t (t.handleExitEvent now) := by
  unfold SessionTask.handleExitEvent
  split
  · exact .refl
  dsimp only
  split
  · exact .of_beside .refl (.of_eq rfl rfl)
  split
  · exact .of_beside (.finish _) (.of_eq rfl rfl)
  · refine .of_alive rfl rfl (fun _ => id) (.of_eq rfl rfl) (fun _ task ht => ?_) fun _ => id
    rw [hi] at ht
    cases ht

lemma Tends.deliverRendezvous : Tends purge down none t (t.deliverRendezvous A now) := by
  unfold SessionTask.deliverRendezvous
  split
  · exact .refl
  rename_i r hr
  split
  · exact .refl
  rename_i d r' heq
  refine .of_router (S := anySignature) (.receive t.rvHandle) hr ?_ (fun _ hx => nomatch hx)
    (fun _ => .inl) (.sendRendezvousSub d.cmd d.body)
  change r'.state = (r.receive t.rvHandle).2.state
  rw [heq]

lemma Tends.takeArm (hi : t.agenda = []) (a : Arm) :
    Tends (t.Reaps (.arm a) = true) (fun c => t.armEnds A c a = true) none t (t.takeArm A a) := by
  cases a with
  | cell buf now =>
    unfold SessionTask.takeArm
    dsimp only
    split
    · rename_i cell heq
      exact .handleCell (fun h => nomatch h) _ fun hc => by simp [armEnds, heq, Except.toOption, hc]
    · exact .finish _
  | exitEvent now => exact .handleExitEvent hi
  | nextHopCell now => exact .handleNextHopCell fun _ => id
  | delivery now => exact .deliverRendezvous
  | tick order now =>
    refine .of_same { t with agenda := [.sweep] }
      (.executeActions (fun _ => tick_ends_emits) fun h => by cases h)
      (fun _ => id) rfl rfl rfl ?_ (.refl _)
    rw [hi]
    exact nil_subset _
  | eof | readFailed | readTimeout => exact .finish _

lemma Tends.around : Tends purge down none t (t.around S e) := by
  cases e with
  | other c =>
    change Tends purge down none t (if c.session = some t.rvHandle then t else _)
    split_ifs with ho
    · exact .refl
    · refine .call S c fun x hx => ho ?_
      exact RouterCall.session_of_circ hx
  | arrive k cell =>
    exact .of_beside .refl (.arrive k cell)
  | exitPump | linkClosed => exact .of_beside .refl (.of_eq rfl rfl)
  | arm | next => exact .refl

/-- A circuit that is taken down has no role, is not in the router, and has no streams left. -/
def EndsClean (A : Aead) (t : SessionTask) (e : SessionEvent) : Prop :=
  t.result = none → ∀ c ∈ t.state.circuits.keys, t.state.Alive c → t.takesDown A c e = true →
    c ∉ t.rvCircuits ∧ ¬ t.Named c ∧ (t.Reaps e = true ∨ ∀ s ∈ t.streamToCirc.entries, s.2 ≠ c)

instance (A : Aead) (t : SessionTask) (e : SessionEvent) : Decidable (EndsClean A t e) :=
  have (c : UInt32) : Decidable (∀ s ∈ t.streamToCirc.entries, s.2 ≠ c) := List.decidableBAll _ _
  have : Decidable (∀ c ∈ t.state.circuits.keys, t.state.Alive c → t.takesDown A c e = true →
    c ∉ t.rvCircuits ∧ ¬ t.Named c ∧
      (t.Reaps e = true ∨ ∀ s ∈ t.streamToCirc.entries, s.2 ≠ c)) := List.decidableBAll _ _
  inferInstanceAs (Decidable (_ → _))

lemma EndsClean.of_alive (h : EndsClean A t e) (hr : t.result = none) (hc : t.state.Alive c)
    (hd : t.takesDown A c e = true) : c ∉ t.rvCircuits ∧ ¬ t.Named c ∧
      (t.Reaps e = true ∨ ∀ s, t.streamToCirc.lookup s ≠ some c) := by
  obtain ⟨entry, he, -⟩ := id hc
  have hk : c ∈ t.state.circuits.keys := mem_of_lookup he
  refine (h hr c hk hc hd).imp_right (And.imp_right (Or.imp_right fun hs s hl => ?_))
  exact hs ⟨s, c⟩ (AList.mem_lookup_iff.1 hl) rfl

/-- Whatever is noted for a circuit is noted for one that lives. -/
structure Clean (t : SessionTask) : Prop where
  orderly : t.Orderly
  streams : ∀ s c, t.streamToCirc.lookup s = some c → t.state.Alive c
  held : ∀ c ∈ t.rvCircuits, t.state.Alive c
  named : ∀ c, t.Named c → t.state.Alive c
  token : ∀ c ∈ t.executor.pendingResponders, t.executor.tokenVerify = true
  responders : t.result = none → ∀ c ∈ t.executor.pendingResponders,
    t.state.Alive c ∨ .act (.destroyPrevLink c) ∈ t.agenda

lemma Orderly.alive_of_exitCommand {cmd : StreamCommand} (h : t.Orderly)
    (hc : t.exitCommand = some (c, cmd)) : t.state.Alive c := by
  unfold exitCommand at hc
  split at hc
  · rename_i i payload rest ha
    split_ifs at hc
    obtain ⟨cmd', -, heq⟩ := Option.map_eq_some_iff.1 hc
    obtain rfl := congrArg Prod.fst heq
    exact (h.ready ha id).2.alive i rfl
  · cases hc

lemma Moved.stream {s : StreamId} (h : Moved A t e t') (hs : t'.streamToCirc.lookup s = some c) :
    t.streamToCirc.lookup s = some c ∨
      (∃ cmd, t.exitCommand = some (c, cmd)) ∧ t'.state = t.state := by
  cases h with
  | quiet hq | made _ _ _ _ hq =>
    rcases hq.streams s with heq | ⟨hn, -⟩
    · exact .inl (heq.symm.trans hs)
    · rw [hn] at hs
      cases hs
  | begun hc =>
    rcases lookup_of_insert hs with ⟨rfl, rfl⟩ | ho
    · exact .inr ⟨⟨_, hc⟩, rfl⟩
    · exact .inl ho
  | refused hc hq hg =>
    rcases hq.streams s with heq | ⟨hn, -⟩
    · rcases lookup_of_insert (heq.symm.trans hs) with ⟨rfl, -⟩ | ho
      · rw [hg] at hs
        cases hs
      · exact .inl ho
    · rw [hn] at hs
      cases hs
  | stopped => exact .inl (lookup_of_erase hs)
  | unheard | heard | injected | dropped | sent | pumped => exact .inl hs

/-- A teardown on the agenda is still in `rest`, or its responder was forgotten. -/
structure Advanced (t t' : SessionTask) (rest : List Task) (new : Option UInt32) : Prop where
  alive : ∀ i, new = some i → t.state.Alive i
  forgets : ∀ c, .act (.destroyPrevLink c) ∈ t.agenda →
    .act (.destroyPrevLink c) ∈ rest ∨ t'.executor = t.executor.forgetPendingResponder c

/-- A step ends only the circuits that its event takes down. -/
lemma step_tends (h : t.Orderly) : ∃ rest new, Advanced t (t.step A S e) rest new ∧
      Tends (t.Reaps e = true) (fun c => t.result = none ∧ t.takesDown A c e = true) new
        { t with agenda := rest } (t.step A S e) := by
  have hs := stepped (A := A) (S := S) t e
  generalize t.step A S e = t' at hs ⊢
  cases hs with
  | stay => exact ⟨t.agenda, none, ⟨fun _ hi => (nomatch hi), fun _ => .inl⟩, .refl⟩
  | arm a hr hid =>
    refine ⟨t.agenda, none, ⟨fun _ hi => (nomatch hi), fun _ => .inl⟩, ?_⟩
    refine (Tends.takeArm hid a).mono fun c hc => ⟨hr, ?_⟩
    unfold takesDown
    rw [hid]
    exact hc
  | around => exact ⟨t.agenda, none, ⟨fun _ hi => (nomatch hi), fun _ => .inl⟩, .around⟩
  | @next o task rest hr hag =>
    have hd : ∀ c a, task = .act a → { t with agenda := rest }.fails o c a = true →
        t.result = none ∧ t.takesDown A c (.next o) = true := by
      rintro c a rfl hf
      refine ⟨hr, ?_⟩
      unfold takesDown
      rw [hag]
      exact hf
    obtain ⟨new, hn, ht⟩ := Tends.perform o task hd
    refine ⟨rest, new, ⟨fun i hi => ?_, fun c hc => ?_⟩, ht⟩
    · obtain ⟨a, rfl, ha⟩ := hn i hi
      refine (h.ready hag fun hp => ?_).2.alive i ha
      cases a with
      | sendToPrev | destroyPrevLink | destroyNextLink => cases ha
      | performHandshake | openNextHop | sendToNext | relayPayloadAtExit
      | forwardExtendFinishToNext | verifyExtendFinish => cases hp
    · rw [hag] at hc
      rcases mem_cons.1 hc with rfl | hc
      · exact .inr rfl
      · exact .inl hc

lemma Clean.step (h : t.Clean) (he : EndsClean A t e) : (t.step A S e).Clean := by
  obtain ⟨rest, new, ha, ht⟩ := step_tends (A := A) (S := S) (e := e) h.orderly
  have hen : ∀ c, Ends t (t.step A S e) c → c ∉ t.rvCircuits ∧ ¬ t.Named c ∧
      (t.Reaps e = true ∨ ∀ s, t.streamToCirc.lookup s ≠ some c) := by
    intro c hc
    obtain ⟨hr, hd⟩ := ht.ended c hc
    exact he.of_alive hr hc.1 hd
  -- What was noted for a circuit in `t` and is so still is noted for one that has not ended.
  have hl : ∀ c, t.state.Alive c → (c ∈ t.rvCircuits ∨ t.Named c) →
      (t.step A S e).state.Alive c := by
    intro c hc hn
    by_contra hd
    have hcl := hen c ⟨hc, hd⟩
    exact hn.elim hcl.1 hcl.2.1
  have hnw : ∀ c, new = some c → (t.step A S e).state.Alive c :=
    fun c hc => ht.kept c hc (ha.alive c hc)
  refine ⟨h.orderly.step e, fun s c hs => ?_, fun c hc => ?_, fun c hc => ?_, fun c hc => ?_,
    fun hr c hc => ?_⟩
  · rcases (step_moved t e).stream hs with ho | ⟨⟨cmd, hcm⟩, hst⟩
    · by_contra hd
      have hnd : Ends t (t.step A S e) c := ⟨h.streams s c ho, hd⟩
      rcases (hen c hnd).2.2 with hrp | hnn
      · exact ht.purged hrp c hnd s hs
      · exact hnn s ho
    · rw [hst]
      exact h.orderly.alive_of_exitCommand hcm
  · rcases ht.held c hc with ho | hc
    · exact hl c (h.held c ho) (.inl ho)
    · exact hnw c hc
  · rcases ht.named c hc with ho | hc
    · exact hl c (h.named c ho) (.inr ho)
    · exact hnw c hc
  · rw [ht.responders.token]
    exact (ht.responders.mem c hc).elim (h.token c) And.right
  · rcases ht.responders.mem c hc with ho | ⟨hc, -⟩
    · rcases h.responders (result_of_step hr) c ho with hc' | hc'
      · by_cases hd : (t.step A S e).state.Alive c
        · exact .inl hd
        · exact .inr (ht.announced hr c ⟨hc', hd⟩)
      · rcases ha.forgets c hc' with hrs | hf
        · exact .inr (ht.agenda hr _ hrs)
        · rw [hf] at hc
          unfold BridgeCircuitExecutor.forgetPendingResponder at hc
          rw [if_pos (h.token c ho)] at hc
          exact absurd rfl (Finset.ne_of_mem_erase hc)
    · exact .inl (hnw c hc)

lemma not_named_start (state : BridgeCircuitState) (executor : BridgeCircuitExecutor)
    (router : Option RendezvousRouter)
    (hrt : ∀ r ∈ router, ∀ c, ¬ r.state.Mentions ⟨r.nextSession, c⟩) :
    ¬ (start state executor router).Named c := by
  have hc : ∀ t : SessionTask, t.checkRelayTokenCoupling.Named c → t.Named c := by
    intro t h
    unfold checkRelayTokenCoupling at h
    split_ifs at h
    · exact named_finish h
    · exact h
  intro h
  cases router with
  | none =>
    obtain ⟨r, hr, -⟩ := hc _ h
    cases hr
  | some r =>
    obtain ⟨r', hr', hm⟩ := hc _ h
    cases hr'
    exact hrt r rfl c hm

lemma clean_start (policy : BridgePolicy) (picker : UInt64 → UInt32) (seq : UInt64)
    (relayMode : Bool) (config : TcpStreamDispatcherConfig) (dialer tokenVerify : Bool)
    (router : Option RendezvousRouter)
    (hr : ∀ r ∈ router, ∀ c, ¬ r.state.Mentions ⟨r.nextSession, c⟩) :
    (start (.start policy picker seq relayMode) (.new config dialer tokenVerify) router).Clean := by
  have he : ∀ t, t = start (.start policy picker seq relayMode)
      (.new config dialer tokenVerify) router → t.streamToCirc = ∅ ∧ t.rvCircuits = [] := by
    rintro t rfl
    exact start_rec (P := fun t => t.streamToCirc = ∅ ∧ t.rvCircuits = []) _ _ _ ⟨rfl, rfl⟩
      (fun _ _ _ h => h) fun _ _ h => h
  obtain ⟨hst, hh⟩ := he _ rfl
  refine ⟨.inl (allLight_of_idle (start_agenda _ _ _)), fun s c hs => ?_, fun c hc => ?_,
    fun c hc => ?_, fun c hc => ?_, fun _ c hc => ?_⟩
  · rw [hst] at hs
    cases hs
  · rw [hh] at hc
    cases hc
  · exact absurd hc (not_named_start _ _ router hr)
  · rw [start_executor] at hc
    exact absurd hc (Finset.notMem_empty c)
  · rw [start_executor] at hc
    exact absurd hc (Finset.notMem_empty c)

/-- Of a circuit that is not there nothing is left, but its responder until the teardown is done. -/
def NothingLeft (t : SessionTask) : Prop :=
  ∀ c, ¬ t.state.Alive c →
    (∀ s, t.streamToCirc.lookup s ≠ some c) ∧ c ∉ t.rvCircuits ∧ ¬ t.Named c ∧
      (t.result = none → c ∈ t.executor.pendingResponders → .act (.destroyPrevLink c) ∈ t.agenda)

lemma Clean.nothingLeft (h : t.Clean) : t.NothingLeft := by
  refine fun c hd => ⟨fun s hs => hd (h.streams s c hs), fun hc => hd (h.held c hc),
    fun hc => hd (h.named c hc), fun hr hc => ?_⟩
  exact (h.responders hr c hc).resolve_left hd

/-- If circuits are taken down without a role and without streams, nothing is left of them. -/
theorem teardown_leaves_nothing (A : Aead) (S : Ed25519) (policy : BridgePolicy)
    (picker : UInt64 → UInt32) (seq : UInt64) (relayMode : Bool)
    (config : TcpStreamDispatcherConfig) (dialer tokenVerify : Bool)
    (router : Option RendezvousRouter)
    (hrouter : ∀ r ∈ router, ∀ c, ¬ r.state.Mentions ⟨r.nextSession, c⟩)
    (events : List SessionEvent)
    (h : Along (step A S) (EndsClean A)
      (start (.start policy picker seq relayMode) (.new config dialer tokenVerify) router) events) :
    NothingLeft (run (step A S)
      (start (.start policy picker seq relayMode) (.new config dialer tokenVerify) router)
      events) :=
  Clean.nothingLeft (inv_run (fun _ _ h he => h.step he) _ events
    (clean_start policy picker seq relayMode config dialer tokenVerify router hrouter) h)

/-- A circuit opens a stream and its client destroys it: the stream is noted for a circuit that is
not there. -/
theorem stream_outlives_circuit :
    let t := run (step Aead.plain anySignature) plainSession
      (openCircuit 1 ++ relayIn 1 (beginPayload 1) ++ [cellIn 1 cmdDestroy [], .next fine])
    ¬ t.state.Alive 1 ∧ t.agenda = [] ∧ t.streamToCirc.lookup 1 = some 1 := by
  decide +kernel

def closedThenDestroyed : List SessionEvent :=
  openCircuit 1 ++ relayIn 1 (beginPayload 1) ++ relayIn 1 (endPayload 1) ++
    [cellIn 1 cmdDestroy [], .next fine]

theorem teardown_leaves_nothing_destroyed :
    ¬ (run (step Aead.plain anySignature) plainSession closedThenDestroyed).state.Alive 1 ∧
      NothingLeft (run (step Aead.plain anySignature) plainSession closedThenDestroyed) :=
  ⟨by decide +kernel, teardown_leaves_nothing Aead.plain anySignature .default
    sequentialOutCircIdPicker 0 false .default true false none (by simp) closedThenDestroyed
    (by decide +kernel)⟩

end Mirage.Bridge.SessionTask
