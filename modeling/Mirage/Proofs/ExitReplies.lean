import Mirage.Proofs.BridgeTable
import Mirage.Proofs.ExitStreams

/-!
# The reply of an upstream

What a connection says is queued, cut into payloads, and sealed toward the circuit (`Told`).
-/

namespace Mirage.Circuits.BridgeCircuitState

open Words Maps Runs Option

variable {A : Aead} {bc : BridgeCircuitState} {o : Order} {id : UInt32} {c : BridgeCall}

/-- No circuit has the id zero, and one that is or was open has its keys. -/
def Keyed (bc : BridgeCircuitState) : Prop :=
  ∀ id e, bc.circuits.lookup id = some e →
    id ≠ 0 ∧ (e.state = .open ∨ e.state = .extending → e.prevKeys ≠ none)

lemma Turn.keyed {p p' : Phase} (h : Turn bc o p p') (ho : o ≠ .opened)
    (hp : p.state = .open ∨ p.state = .extending → p.keys ≠ none) :
    p'.state = .open ∨ p'.state = .extending → p'.keys ≠ none := by
  cases h with
  | stay | createCont | extend | noId | extendCont | createdPiece | reply | verify => exact hp
  | extended hs => exact fun _ => hp (.inr hs)
  | opened => exact absurd rfl ho
  | teardown => exact fun h => absurd h (by simp)

lemma Keyed.createComplete (h : Keyed bc) (keys : HopKeys) (msg : Bytes) (now : Instant) :
    Keyed (bc.recordCreateComplete id keys msg now).2 := by
  have hs : ∀ e, bc.circuits.lookup id = some e → Keyed (bc.setEntry id
      { e with
        state := .open, stateEntered := now, lastActivity := now, prevKeys := some keys }) := by
    intro e he j e' hj
    rcases lookup_setEntry hj with ho | ⟨rfl, rfl⟩
    · exact h j e' ho
    · exact ⟨(h j e he).1, fun _ => by simp⟩
  unfold recordCreateComplete
  split
  · exact h
  rename_i e he
  split_ifs
  · exact h
  · split <;> exact hs e he

lemma prevOrder_ne_opened (cell : Cell) (now : Instant) : bc.prevOrder A cell now ≠ .opened := by
  have hi : ∀ peeled, innerOrder peeled ≠ .opened := by
    intro peeled
    unfold innerOrder
    split
    · simp
    · split_ifs <;> simp
  have hr : bc.relayOrder A cell.circId cell.body now ≠ .opened := by
    unfold relayOrder
    split
    · simp
    · exact hi _
  unfold prevOrder
  split_ifs
  all_goals first | exact hr | simp

lemma order_cases {o : Order} (h : bc.order A c = some (id, o)) (ho : o = .opened ∨ o = .create) :
    (∃ keys msg now, c = .createComplete id keys msg now) ∨
      ∃ cell now, c = .fromPrev cell now ∧ cell.circId = id ∧ o ≠ .opened := by
  cases c with
  | createComplete i keys msg now =>
    obtain ⟨rfl, -⟩ := Prod.mk.inj (some.inj h)
    exact .inl ⟨keys, msg, now, rfl⟩
  | fromPrev cell now =>
    obtain ⟨rfl, rfl⟩ := Prod.mk.inj (some.inj h)
    exact .inr ⟨cell, now, rfl, rfl, prevOrder_ne_opened _ _⟩
  | fromNext cell now =>
    obtain ⟨i, -, hi⟩ := map_eq_some_iff.1 h
    obtain ⟨-, rfl⟩ := Prod.mk.inj hi
    unfold nextOrder at ho
    split_ifs at ho <;> simp at ho
  | createFailure i now | extendFailure i now =>
    obtain ⟨-, rfl⟩ := Prod.mk.inj (some.inj h)
    unfold failureOrder at ho
    split_ifs at ho <;> simp at ho
  | extendComplete | injectExitResponse | tokenVerified | reap =>
    obtain ⟨-, rfl⟩ := Prod.mk.inj (some.inj h)
    simp at ho
  | tick => cases h

lemma Keyed.step (h : Keyed bc) (hc : Bridge.SessionTask.Proper c) : Keyed (bc.step A c) := by
  refine step_inv (fun id o hor => ?_) (fun _ id h j e hj => h j e (lookup_removeEntry hj)) h
  by_cases ho : o = .opened
  · subst ho
    rcases order_cases hor (.inl rfl) with ⟨keys, msg, now, rfl⟩ | ⟨-, -, -, -, hne⟩
    · exact h.createComplete keys msg now
    · exact absurd rfl hne
  intro j e' hj
  rcases (call_effect hor).entry hj with hol | ⟨rfl, hb⟩
  · exact h j e' hol
  cases hb with
  | made now hcr hnw =>
    refine ⟨?_, fun h => absurd h (by simp [freshEntry])⟩
    rcases order_cases hor (.inr hcr) with ⟨_, _, _, rfl⟩ | ⟨_, _, rfl, rfl, -⟩
    · exact absurd (Prod.mk.inj (some.inj hor)).2.symm ho
    · exact hc
  | turned he ht => exact ⟨(h j _ he).1, ht.keyed ho (h j _ he).2⟩
  | linked he hs ha hp =>
    have hk := congrArg Phase.keys hp
    exact ⟨(h j _ he).1, fun _ hn => (h j _ he).2 (.inl hs) (hk.symm.trans hn)⟩

end Mirage.Circuits.BridgeCircuitState

namespace Mirage.Bridge

open Circuits Words Maps Runs Records Slots

def Upstream.said (up : Upstream) : List StreamEvent :=
  up.read.map (.data up.streamId) ++ if up.pump = .running then [] else [.ended up.streamId]

def StreamCommand.isData : StreamCommand → Bool
  | .data _ => true
  | _ => false

def injections (c : UInt32) (u : ℕ) (ev : StreamEvent) : List Injection :=
  (exitPayloads ev).map (Injection.mk c u)

lemma filter_injections (c : UInt32) (v u : ℕ) (ev : StreamEvent) :
    ((injections c v ev).filter fun x => x.origin = u) =
      if v = u then injections c u ev else [] := by
  split_ifs with hv
  · subst hv
    refine List.filter_eq_self.2 fun x hx => ?_
    obtain ⟨p, -, rfl⟩ := List.mem_map.1 hx
    simp
  · refine List.filter_eq_nil_iff.2 fun x hx => ?_
    obtain ⟨p, -, rfl⟩ := List.mem_map.1 hx
    simpa using hv

variable {up : Upstream} {rest : List Task} {v : ℕ} {now : Instant} {d : TcpStreamDispatcher}
  {ev : StreamEvent} {i : UInt32}

namespace TcpStreamDispatcher

variable {d d' : TcpStreamDispatcher} {u : ℕ}

def queuedOf (d : TcpStreamDispatcher) (u : ℕ) : List StreamEvent :=
  (d.events.filter fun p => p.1 = u).map (·.2)

/-- All that connection `u` says was taken up. -/
def Finished (d : TcpStreamDispatcher) (u : ℕ) : Prop :=
  (∀ up ∈ d.upstreams[u]?, up.pump ≠ .running) ∧ d.queuedOf u = []
deriving Decidable

lemma ids_getElem? (hup : d.upstreams[u]? = some up) : d.ids[u]? = some up.streamId := by
  rw [ids, List.getElem?_map, hup]
  rfl

lemma Pumped.listening (h : Pumped d d') : d'.listening = d.listening := by
  cases h <;> rfl

lemma Pumped.events (h : Pumped d d') {p : ℕ × StreamEvent} (hp : p ∈ d'.events) :
    p ∈ d.events ∨ d.ids[p.1]? = some p.2.streamId := by
  cases h with
  | idle | deaf | remove | writeFailed => exact .inl hp
  | read hup | eof hup =>
    unfold emit at hp
    split_ifs at hp
    · refine (List.mem_append.1 hp).imp_right fun hp => ?_
      obtain rfl := List.mem_singleton.1 hp
      exact ids_getElem? hup
    · exact .inl hp

end TcpStreamDispatcher

namespace SessionTask

open TcpStreamDispatcher

variable {A : Aead} {S : Ed25519} {t t' : SessionTask} {c : UInt32} {s : StreamId} {u : ℕ}
  {e : SessionEvent}

def outgoing (t : SessionTask) : List Injection := t.injected ++ t.pending

/-- Events and payloads name connections of their stream. -/
structure Founded (t : SessionTask) : Prop where
  listening : t.executor.dispatcher.listening = true
  openers : t.openers.length = t.executor.dispatcher.ids.length
  events : ∀ p ∈ t.executor.dispatcher.events, t.executor.dispatcher.ids[p.1]? = some p.2.streamId
  origins : ∀ x ∈ t.outgoing, ∃ cmd, streamCommand x.payload = some cmd ∧
    t.executor.dispatcher.ids[x.origin]? = some cmd.streamId

lemma Founded.of_sub (h : Founded t)
    (hl : t'.executor.dispatcher.listening = t.executor.dispatcher.listening)
    (hi : t'.executor.dispatcher.ids = t.executor.dispatcher.ids) (ho : t'.openers = t.openers)
    (he : ∀ p ∈ t'.executor.dispatcher.events, p ∈ t.executor.dispatcher.events)
    (hor : ∀ x ∈ t'.outgoing, x ∈ t.outgoing) : Founded t' := by
  refine ⟨hl.trans h.listening, ?_, fun p hp => ?_, fun x hx => ?_⟩
  · rw [hi, ho]
    exact h.openers
  · rw [hi]
    exact h.events p (he p hp)
  · rw [hi]
    exact h.origins x (hor x hx)

lemma Quiet.outgoing (hq : Quiet t t') {x : Injection} (hx : x ∈ t'.outgoing) : x ∈ t.outgoing := by
  rw [SessionTask.outgoing, hq.injected] at hx
  exact (List.mem_append.1 hx).elim (List.mem_append_left _)
    fun hx => List.mem_append_right _ (hq.due hx)

lemma Founded.of_quiet (h : Founded t) (hq : Quiet t t') : Founded t' :=
  h.of_sub (by rw [hq.dispatcher]) (by rw [hq.dispatcher]) hq.openers
    (fun p hp => hq.dispatcher ▸ hp) fun x => hq.outgoing

variable {addr : IpAddr} {p : Bytes} {ps : List Bytes} {events : List (ℕ × StreamEvent)}

lemma Founded.begun (h : Founded t) (hr : t.pending = rest.flatMap Task.pending) :
    Founded (t.begun rest c s addr) := by
  refine ⟨h.listening, ?_, fun p hp => ?_, fun x hx => ?_⟩
  · rw [ids_openUpstream, List.length_append, List.length_append, h.openers]
    rfl
  · rw [ids_openUpstream]
    exact getElem?_append_of_some (h.events p hp)
  · change x ∈ t.injected ++ rest.flatMap Task.pending at hx
    rw [← hr] at hx
    obtain ⟨cmd, hc, hat⟩ := h.origins x hx
    rw [ids_openUpstream]
    exact ⟨cmd, hc, getElem?_append_of_some hat⟩

lemma Founded.pumped (h : Founded t) (p : PumpEvent) : Founded { t with
      executor := { t.executor with dispatcher := t.executor.dispatcher.pump p } } := by
  have hp := t.executor.dispatcher.pumped p
  have hi := hp.ids
  refine ⟨hp.listening.trans h.listening, ?_, fun q hq => ?_, fun x hx => ?_⟩
  · exact h.openers.trans (congrArg List.length hi.symm)
  · have hq' := (hp.events hq).elim (h.events q) id
    rwa [← hi] at hq'
  · have hx' := h.origins x hx
    rwa [← hi] at hx'

lemma outgoing_injected (ha : t.agenda = .inject c v now (p :: ps) :: rest)
    (acts : List BridgeAction) : t.injected ++ [Injection.mk c v p] ++
      (acts.map Task.act ++ .inject c v now ps :: rest).flatMap Task.pending = t.outgoing := by
  rw [outgoing, pending_cons ha, pending_acts, List.append_assoc]
  rfl

lemma Founded.moved (h : Founded t) (hm : Moved A t e t') : Founded t' := by
  cases hm with
  | quiet hq => exact h.of_quiet hq
  | made hi hd hc hn hq | refused hc hq hg =>
    refine Founded.of_quiet ?_ hq
    exact ⟨h.listening, h.openers, h.events, h.origins⟩
  | unheard hi hev =>
    exact h.of_sub rfl rfl rfl (fun p hp => hev ▸ List.mem_cons_of_mem _ hp) fun x hx => hx
  | heard hi hev hrt =>
    rename_i now v ev events i
    refine ⟨h.listening, h.openers, fun p hp => h.events p (hev ▸ List.mem_cons_of_mem _ hp),
      fun x hx => ?_⟩
    rcases List.mem_append.1 hx with hx | hx
    · exact h.origins x (List.mem_append_left _ hx)
    change x ∈ (exitPayloads ev).map (Injection.mk i v) ++ [] at hx
    rw [List.append_nil] at hx
    obtain ⟨p, hp, rfl⟩ := List.mem_map.1 hx
    obtain ⟨cmd, hc, hs⟩ := streamCommand_of_mem_exitPayloads hp
    exact ⟨cmd, hc, hs ▸ h.events (v, ev) (hev ▸ List.mem_cons_self)⟩
  | injected ha hok =>
    refine h.of_sub rfl rfl rfl (fun p hp => hp) fun x hx => ?_
    rwa [← outgoing_injected ha _]
  | dropped ha he =>
    refine h.of_sub rfl rfl rfl (fun p hp => hp) fun x hx => ?_
    rw [outgoing, pending_cons ha]
    rcases List.mem_append.1 hx with hx | hx
    · exact List.mem_append_left _ hx
    · exact List.mem_append_right _ (List.mem_append_right _ hx)
  | begun hc hr hf => exact h.begun hr
  | sent hc hr hu =>
    refine h.of_sub rfl ?_ rfl (fun p hp => hp) fun x hx => ?_
    · exact ids_setUpstream _ fun _ => rfl
    · rw [outgoing, hr]
      exact hx
  | stopped hc hr =>
    refine h.of_sub rfl rfl rfl (fun p hp => hp) fun x hx => ?_
    rw [outgoing, hr]
    exact hx
  | pumped p => exact h.pumped p

/-- Connection `u` is of stream `s`, and circuit `c` has opened it. -/
def Opened (t : SessionTask) (u : ℕ) (c : UInt32) (s : StreamId) : Prop :=
  t.executor.dispatcher.ids[u]? = some s ∧ ∃ n, t.openers[u]? = some ⟨c, n⟩

def outgoingOf (t : SessionTask) (u : ℕ) : List Injection :=
  t.outgoing.filter fun x => x.origin = u

/-- What was sealed and what is queued make up what the connection said. -/
structure Told (t : SessionTask) (u : ℕ) (c : UInt32) (s : StreamId) : Prop where
  route : ¬ Finished t.executor.dispatcher u → t.streamToCirc.lookup s = some c
  account : ∀ up, t.executor.dispatcher.upstreams[u]? = some up →
    t.outgoingOf u ++ (t.executor.dispatcher.queuedOf u).flatMap (injections c u) =
      up.said.flatMap (injections c u)

lemma Told.of_same (h : Told t u c s)
    (hr : ¬ Finished t'.executor.dispatcher u → t.streamToCirc.lookup s = some c →
      t'.streamToCirc.lookup s = some c)
    (hup : ∀ up', t'.executor.dispatcher.upstreams[u]? = some up' →
      ∃ up, t.executor.dispatcher.upstreams[u]? = some up ∧
        (up'.pump = .running → up.pump = .running) ∧ up'.said = up.said)
    (hq : t'.executor.dispatcher.queuedOf u = t.executor.dispatcher.queuedOf u)
    (hot : t'.outgoingOf u = t.outgoingOf u) : Told t' u c s := by
  refine ⟨fun hf => hr hf (h.route fun hfn => hf ⟨fun up' hu' => ?_, ?_⟩), fun up' hu' => ?_⟩
  · obtain ⟨up, ho, hp, -⟩ := hup up' hu'
    exact fun hrn => hfn.1 up ho (hp hrn)
  · rw [hq]
    exact hfn.2
  · obtain ⟨up, ho, -, hs⟩ := hup up' hu'
    rw [hot, hq, hs]
    exact h.account up ho

lemma Quiet.outgoingOf (hq : Quiet t t') (hr : t'.result = none) :
    t'.outgoingOf u = t.outgoingOf u := by
  have hp : t'.pending = t.pending := by
    refine hq.pending.resolve_right fun h' => ?_
    rw [hr] at h'
    cases h'.1
  unfold SessionTask.outgoingOf SessionTask.outgoing
  rw [hq.injected, hp]

lemma Told.of_quiet (h : Told t u c s) (hq : Quiet t t') (hr : t'.result = none)
    (ha : t'.state.Alive c) : Told t' u c s := by
  refine h.of_same (fun _ hs => ?_) (fun up hup => ⟨up, hq.dispatcher ▸ hup, fun h => h, rfl⟩)
    (by rw [hq.dispatcher]) (hq.outgoingOf hr)
  refine (hq.streams s).elim (fun heq => heq.trans hs) fun hg => ?_
  exact absurd ha (hg.2 hr c hs)

lemma queuedOf_cons (hev : d.events = (v, ev) :: events) :
    d.queuedOf u = (if v = u then [ev] else []) ++ queuedOf { d with events := events } u := by
  simp only [queuedOf, hev, List.filter_cons, decide_eq_true_eq]
  split_ifs <;> rfl

lemma Told.heard (h : Told t u c s) (hi : t.agenda = [])
    (hev : t.executor.dispatcher.events = (v, ev) :: events) (hr : v = u → i = c) :
    Told { t with
      executor := { t.executor with dispatcher := { t.executor.dispatcher with events := events } }
      agenda := [.inject i v now (exitPayloads ev)] } u c s := by
  have hq := queuedOf_cons (u := u) hev
  have hot : t.outgoingOf u = t.injected.filter fun x => x.origin = u := by
    rw [outgoingOf, outgoing, pending, hi, List.flatMap_nil, List.append_nil]
  refine ⟨fun hf => h.route fun hfn => hf ⟨hfn.1, ?_⟩, fun up hup => ?_⟩
  · have hn := hfn.2
    rw [hq, List.append_eq_nil_iff] at hn
    exact hn.2
  have ho := h.account up hup
  rw [hq, List.flatMap_append, ← List.append_assoc] at ho
  rw [← ho]
  congr 1
  change (t.injected ++ (injections i v ev ++ [])).filter _ = _
  rw [List.append_nil, List.filter_append, filter_injections, hot]
  split_ifs with hv
  · rw [hr hv, List.flatMap_singleton]
  · rfl

lemma queuedOf_emit (hl : d.listening = true) :
    (d.emit v ev).queuedOf u = d.queuedOf u ++ if v = u then [ev] else [] := by
  simp only [queuedOf, emit, if_pos hl, List.filter_append, List.map_append]
  by_cases hv : v = u <;> simp [hv]

lemma Told.says (h : Told t u c s) {f : Upstream → Upstream}
    (hd : d = (t.executor.dispatcher.setUpstream v f).emit v ev)
    (hl : t.executor.dispatcher.listening = true)
    (hup : t.executor.dispatcher.upstreams[v]? = some up) (hrn : up.pump = .running)
    (hsd : (f up).said = up.said ++ [ev]) :
    Told { t with executor := { t.executor with dispatcher := d } } u c s := by
  have hq : d.queuedOf u = t.executor.dispatcher.queuedOf u ++ if v = u then [ev] else [] := by
    rw [hd]
    exact queuedOf_emit hl
  have hg : d.upstreams[u]? =
      t.executor.dispatcher.upstreams[u]?.map fun up => if v = u then f up else up := by
    rw [hd]
    exact setUpstream_getElem? v
  by_cases hv : v = u
  · subst hv
    rw [if_pos rfl] at hq
    refine ⟨fun _ => h.route fun hf => hf.1 up hup hrn, fun up' hu' => ?_⟩
    rw [hg, hup, Option.map_some, if_pos rfl, Option.some.injEq] at hu'
    subst hu'
    change t.outgoingOf v ++ (d.queuedOf v).flatMap _ = _
    rw [hq, hsd, List.flatMap_append, List.flatMap_append, ← List.append_assoc, h.account up hup]
  · rw [if_neg hv, List.append_nil] at hq
    refine h.of_same (fun _ hs => hs) (fun up' hu' => ⟨up', ?_, fun hr => hr, rfl⟩) hq rfl
    rw [hg] at hu'
    simpa [hv] using hu'

lemma Told.pumped (h : Told t u c s) (hls : t.executor.dispatcher.listening = true)
    (p : PumpEvent) :
    Told { t with executor := { t.executor with dispatcher := t.executor.dispatcher.pump p } }
      u c s := by
  have hp := t.executor.dispatcher.pumped p
  generalize t.executor.dispatcher.pump p = d at hp
  have hq : ∀ v f,
      (∀ up, t.executor.dispatcher.upstreams[v]? = some up →
        ((f up).pump = .running → up.pump = .running) ∧ (f up).said = up.said) →
      d.upstreams = (t.executor.dispatcher.setUpstream v f).upstreams →
      d.queuedOf u = t.executor.dispatcher.queuedOf u →
      Told { t with executor := { t.executor with dispatcher := d } } u c s := by
    intro v f hf hd hqu
    refine h.of_same (fun _ hs => hs) (fun up' hu' => ?_) hqu rfl
    rw [hd, setUpstream_getElem?] at hu'
    obtain ⟨up, hup, rfl⟩ := Option.map_eq_some_iff.1 hu'
    split_ifs with hv
    · subst hv
      exact ⟨up, hup, hf up hup⟩
    · exact ⟨up, hup, fun hr => hr, rfl⟩
  cases hp with
  | idle => exact h.of_same (fun _ hs => hs) (fun up hup => ⟨up, hup, fun hr => hr, rfl⟩) rfl rfl
  | read hup hrn hl | eof hup hrn =>
    refine h.says rfl hls hup hrn ?_
    simp [Upstream.said, hrn]
  | deaf hl => exact absurd (hls.symm.trans hl) (by simp)
  | remove hup hc =>
    rename_i v up
    refine hq v _ (fun up' hu' => ?_) rfl rfl
    obtain rfl := Option.some.inj (hup.symm.trans hu')
    simp [Upstream.said, hc]
  | writeFailed v =>
    refine hq v _ (fun up _ => ?_) rfl rfl
    exact ⟨fun hr => hr, rfl⟩

lemma Told.mem_outgoing (h : Told t u c s) (ho : Opened t u c s)
    (hp : Injection.mk i u p ∈ t.outgoing) :
    i = c ∧ p.length ≤ 3 + BridgeCircuitState.innerMax := by
  have hi := ho.1
  rw [ids, List.getElem?_map] at hi
  obtain ⟨up, hup, -⟩ := Option.map_eq_some_iff.1 hi
  have hm : Injection.mk i u p ∈ up.said.flatMap (injections c u) := by
    rw [← h.account up hup]
    exact List.mem_append_left _ (List.mem_filter.2 ⟨hp, by simp⟩)
  obtain ⟨ev, -, hev⟩ := List.mem_flatMap.1 hm
  obtain ⟨q, hq, heq⟩ := List.mem_map.1 hev
  obtain ⟨rfl, -, rfl⟩ := Injection.mk.inj heq
  exact ⟨rfl, length_exitPayloads hq⟩

lemma injectExitResponse_ok (hA : A.Lawful) (hk : t.state.Keyed)
    (ho : t.state.circuitState c = some .open)
    (hr : ∀ e ∈ t.state.circuits.lookup c, e.reverseSeq + 1 < 2 ^ 64)
    (hp : p.length ≤ 3 + BridgeCircuitState.innerMax) :
    ∃ acts bc, t.state.injectExitResponse A c p now = (.ok acts, bc) := by
  obtain ⟨e, he, hs⟩ := Option.map_eq_some_iff.1 ho
  obtain ⟨hid, hky⟩ := hk c e he
  obtain ⟨keys, hsm⟩ := Option.ne_none_iff_exists'.1 (hky (.inl hs))
  have hf : p.length + 16 ≤ maxCellPayload :=
    Nat.le_trans (Nat.add_le_add_right hp 16) (by decide)
  exact ⟨_, _, BridgeCircuitState.handleRelayFromNext_eq hA hid he hs hsm (hr e he) hf⟩

/-- The counter has room, and the stream is begun anew or ended when all it says was taken up. -/
def RepliesKept (u : ℕ) (c : UInt32) (s : StreamId) (t : SessionTask) (e : SessionEvent) : Prop :=
  u < t.executor.dispatcher.upstreams.length →
    (∀ entry ∈ t.state.circuits.lookup c, entry.reverseSeq + 1 < 2 ^ 64) ∧
    match e with
    | .next _ => ∀ p ∈ t.exitCommand, p.2.streamId = s → p.2.isData = false →
        Finished t.executor.dispatcher u
    | _ => True

instance (u : ℕ) (c : UInt32) (s : StreamId) (t : SessionTask) :
    DecidablePred (RepliesKept u c s t) := fun e => by
  induction e using SessionEvent.casesOn <;> delta RepliesKept <;> infer_instance

def CircuitOpen (u : ℕ) (c : UInt32) (t : SessionTask) : Prop :=
  u < t.executor.dispatcher.upstreams.length → t.state.circuitState c = some .open
deriving Decidable

lemma Opened.lt (h : Opened t u c s) : u < t.executor.dispatcher.upstreams.length := by
  have hlt := (List.getElem?_eq_some_iff.1 h.1).1
  rwa [ids, List.length_map] at hlt

lemma alive_of_open (h : t.state.circuitState c = some .open) : t.state.Alive c := by
  obtain ⟨e, he, hs⟩ := Option.map_eq_some_iff.1 h
  exact ⟨e, he, by simp [hs]⟩

lemma RepliesKept.finished {o : Outcome} (h : RepliesKept u c s t (.next o))
    (ho : Opened t u c s) {cmd : StreamCommand} (hc : t.exitCommand = some (i, cmd))
    (hs : cmd.streamId = s) (hd : cmd.isData = false) : Finished t.executor.dispatcher u :=
  (h ho.lt).2 (i, cmd) hc hs hd

lemma Told.reroute (h : Told t u c s) {m : AList fun _ : StreamId => UInt32} {s' : StreamId}
    (hfn : s' = s → Finished t.executor.dispatcher u)
    (hm : s ≠ s' → m.lookup s = t.streamToCirc.lookup s) :
    Told { t with streamToCirc := m } u c s := by
  refine ⟨fun hf => ?_, h.account⟩
  have hs : s ≠ s' := fun hs => hf (hfn hs.symm)
  exact (hm hs).trans (h.route hf)

lemma outgoingOf_dropped (ha : t.agenda = .inject i v now ps :: rest) (hv : v ≠ u) :
    ((t.injected ++ rest.flatMap Task.pending).filter fun x => x.origin = u) = t.outgoingOf u := by
  have hn : ((ps.map (Injection.mk i v)).filter fun x => x.origin = u) = [] := by
    refine List.filter_eq_nil_iff.2 fun x hx => ?_
    obtain ⟨p, -, rfl⟩ := List.mem_map.1 hx
    simpa using hv
  rw [outgoingOf, outgoing, pending_cons ha, Task.pending, List.filter_append,
    List.filter_append, List.filter_append, hn, List.nil_append]

lemma outgoingOf_rest (hr : t.pending = rest.flatMap Task.pending) :
    ((t.injected ++ rest.flatMap Task.pending).filter fun x => x.origin = u) = t.outgoingOf u := by
  rw [← hr]
  rfl

/-- An event of the connection that waits is still for its circuit. -/
lemma Told.routed (h : Told t u c s) (ho : Opened t u c s) (hf : Founded t)
    (hev : t.executor.dispatcher.events = (u, ev) :: events) :
    t.streamToCirc.lookup ev.streamId = some c := by
  have hs := hf.events (u, ev) (hev ▸ List.mem_cons_self)
  rw [ho.1, Option.some.injEq] at hs
  refine hs ▸ h.route fun hfn => ?_
  have hn := hfn.2
  rw [queuedOf_cons hev, if_pos rfl] at hn
  cases hn

lemma Told.unheard (h : Told t u c s) (ho : Opened t u c s) (hf : Founded t)
    (hev : t.executor.dispatcher.events = (v, ev) :: events)
    (hrt : t.streamToCirc.lookup ev.streamId = none) :
    Told { t with executor := { t.executor with
      dispatcher := { t.executor.dispatcher with events := events } } } u c s := by
  have hv : v ≠ u := by
    rintro rfl
    rw [h.routed ho hf hev] at hrt
    cases hrt
  have hqu := queuedOf_cons (u := u) hev
  rw [if_neg hv, List.nil_append] at hqu
  exact h.of_same (fun _ hs => hs) (fun up hup => ⟨up, hup, fun hr => hr, rfl⟩) hqu.symm rfl

/-- What an open circuit whose counter has room is to be told is not dropped. -/
lemma Told.not_dropped (hA : A.Lawful) (h : Told t u c s) (ho : Opened t u c s)
    (hky : t.state.Keyed) (hon : t.state.circuitState c = some .open)
    (hr : ∀ e ∈ t.state.circuits.lookup c, e.reverseSeq + 1 < 2 ^ 64)
    (ha : t.agenda = .inject i v now (p :: ps) :: rest)
    {err : BridgeCircuitError} {bc : BridgeCircuitState}
    (he : t.state.injectExitResponse A i p now = (.error err, bc)) : v ≠ u := by
  rintro rfl
  have hp : Injection.mk i v p ∈ t.outgoing := by
    rw [outgoing, pending_cons ha]
    exact List.mem_append_right _ List.mem_cons_self
  obtain ⟨rfl, hl⟩ := h.mem_outgoing ho hp
  obtain ⟨acts, bc', hok⟩ := injectExitResponse_ok hA hky hon hr hl
  rw [hok] at he
  cases he

lemma Told.begun {s' : StreamId} (h : Told t u c s) (ho : Opened t u c s)
    (hfn : s' = s → Finished t.executor.dispatcher u)
    (hr : t.pending = rest.flatMap Task.pending) : Told (t.begun rest i s' addr) u c s := by
  have hre : Told { t with streamToCirc := t.streamToCirc.insert s' i } u c s :=
    h.reroute hfn fun hs => AList.lookup_insert_ne hs
  refine hre.of_same (fun _ hs => hs) (fun up hup => ⟨up, ?_, fun hr => hr, rfl⟩) rfl
    (outgoingOf_rest hr)
  change (t.executor.dispatcher.upstreams ++ _)[u]? = some up at hup
  rwa [List.getElem?_append_left ho.lt] at hup

lemma Told.moved (hA : A.Lawful) (h : Told t u c s) (ho : Opened t u c s)
    (hf : Founded t) (hky : t.state.Keyed) (hon : t.state.circuitState c = some .open)
    (hk : RepliesKept u c s t e) (hrx : t'.result = none)
    (ho' : t'.state.circuitState c = some .open) (hm : Moved A t e t') : Told t' u c s := by
  have hsm : ∀ up, t.executor.dispatcher.upstreams[u]? = some up →
      ∃ up₀, t.executor.dispatcher.upstreams[u]? = some up₀ ∧
        (up.pump = .running → up₀.pump = .running) ∧ up.said = up₀.said :=
    fun up hup => ⟨up, hup, fun hr => hr, rfl⟩
  cases hm with
  | quiet hq => exact h.of_quiet hq hrx (alive_of_open ho')
  | made hi hd hc hnw hq =>
    refine Told.of_quiet ?_ hq hrx (alive_of_open ho')
    exact ⟨h.route, h.account⟩
  | unheard hi hev hrt => exact h.unheard ho hf hev hrt
  | heard hi hev hrt =>
    refine h.heard hi hev fun hv => ?_
    subst hv
    exact Option.some.inj (hrt.symm.trans (h.routed ho hf hev))
  | injected ha hok =>
    refine h.of_same (fun _ hs => hs) hsm rfl ?_
    exact congrArg (List.filter _) (outgoing_injected ha _)
  | dropped ha he =>
    have hv := h.not_dropped hA ho hky hon (hk ho.lt).1 ha he
    exact h.of_same (fun _ hs => hs) hsm rfl (outgoingOf_dropped ha hv)
  | begun hc hrs hfr => exact h.begun ho (fun hs => hk.finished ho hc hs rfl) hrs
  | refused hc hq hg =>
    rename_i o i b
    have hre : Told { t with streamToCirc := t.streamToCirc.insert b.streamId i } u c s :=
      h.reroute (fun hs => hk.finished ho hc hs rfl) fun hs => AList.lookup_insert_ne hs
    exact hre.of_quiet hq hrx (alive_of_open ho')
  | sent hc hrs hu =>
    refine h.of_same (fun _ hs => hs) (fun up hup => ?_) rfl (outgoingOf_rest hrs)
    rw [setUpstream_getElem?] at hup
    obtain ⟨up₀, hu₀, rfl⟩ := Option.map_eq_some_iff.1 hup
    refine ⟨up₀, hu₀, ?_⟩
    split_ifs <;> exact ⟨fun hr => hr, rfl⟩
  | stopped hc hrs =>
    have hre := h.reroute (fun hs => hk.finished ho hc hs rfl) fun hs => AList.lookup_erase_ne hs
    exact hre.of_same (fun _ hs => hs) hsm rfl (outgoingOf_rest hrs)
  | pumped p => exact h.pumped hf.listening p

lemma Founded.born (h : Founded t) (hr : t.pending = rest.flatMap Task.pending)
    (hu : u = t.executor.dispatcher.ids.length) : Told (t.begun rest c s addr) u c s := by
  have hat : ∀ {v : ℕ} {s' : StreamId}, t.executor.dispatcher.ids[v]? = some s' → v ≠ u :=
    fun hv => Nat.ne_of_lt (hu ▸ (List.getElem?_eq_some_iff.1 hv).1)
  have hq : t.executor.dispatcher.queuedOf u = [] := by
    rw [queuedOf, List.map_eq_nil_iff, List.filter_eq_nil_iff]
    intro p hp
    simpa using hat (h.events p hp)
  have ho : t.outgoingOf u = [] := by
    refine List.filter_eq_nil_iff.2 fun x hx => ?_
    obtain ⟨cmd, -, hx⟩ := h.origins x hx
    simpa using hat hx
  refine ⟨fun _ => AList.lookup_insert _, fun up hup => ?_⟩
  change (t.executor.dispatcher.upstreams ++ _)[u]? = some up at hup
  rw [hu, ids, List.length_map, List.getElem?_concat_length, Option.some.injEq] at hup
  subst hup
  change ((t.injected ++ rest.flatMap Task.pending).filter fun x => x.origin = u) ++
    (t.executor.dispatcher.queuedOf u).flatMap _ = _
  rw [← hr, hq]
  exact congrArg (· ++ []) ho

lemma Moved.opened (hm : Moved A t e t') :
    (t'.executor.dispatcher.ids = t.executor.dispatcher.ids ∧ t'.openers = t.openers) ∨
    ∃ i b addr rest, t.pending = rest.flatMap Task.pending ∧ t' = t.begun rest i b addr := by
  cases hm with
  | quiet hq | made hi hd hc hn hq | refused hc hq =>
    exact .inl ⟨by rw [hq.dispatcher], hq.openers⟩
  | unheard | heard | injected | dropped | stopped => exact .inl ⟨rfl, rfl⟩
  | begun hc hr => exact .inr ⟨_, _, _, _, hr, rfl⟩
  | sent => exact .inl ⟨ids_setUpstream _ fun _ => rfl, rfl⟩
  | pumped p => exact .inl ⟨(t.executor.dispatcher.pumped p).ids, rfl⟩

/-- The circuit is open and told, while the session goes on. -/
structure Replying (u : ℕ) (c : UInt32) (s : StreamId) (t : SessionTask) : Prop where
  founded : Founded t
  keyed : t.state.Keyed
  told : t.result = none → Opened t u c s → t.state.circuitState c = some .open ∧ Told t u c s

lemma Replying.step (hA : A.Lawful) (h : Replying u c s t) (hkp : RepliesKept u c s t e)
    (hoe : CircuitOpen u c (t.step A S e)) : Replying u c s (t.step A S e) := by
  have hm := step_moved (A := A) (S := S) t e
  have hk := (step_calls (A := A) (S := S) t e).inv (fun bc c hbc hp => hbc.step hp) h.keyed
  refine ⟨h.founded.moved hm, hk, fun hr ho => ?_⟩
  have hs := hoe ho.lt
  have hol : Opened t u c s → Told (t.step A S e) u c s := fun ho => by
    obtain ⟨hw, ht⟩ := h.told (result_of_step hr) ho
    exact ht.moved hA ho h.founded h.keyed hw hkp hr hs hm
  refine ⟨hs, ?_⟩
  rcases hm.opened with ⟨hi, hon⟩ | ⟨i, s', addr, rest, hrs, heq⟩
  · exact hol ⟨hi ▸ ho.1, hon ▸ ho.2⟩
  obtain ⟨hat, n, hby⟩ := ho
  rw [heq] at hat hby
  rw [ids_openUpstream] at hat
  by_cases hlt : u < t.executor.dispatcher.ids.length
  · rw [List.getElem?_append_left hlt] at hat
    rw [List.getElem?_append_left (h.founded.openers ▸ hlt)] at hby
    exact hol ⟨hat, n, hby⟩
  have hu : u = t.executor.dispatcher.ids.length := by
    have hle := (List.getElem?_eq_some_iff.1 hat).1
    rw [List.length_append, List.length_singleton] at hle
    omega
  rw [hu, List.getElem?_concat_length, Option.some.injEq] at hat
  rw [hu, ← h.founded.openers, List.getElem?_concat_length, Option.some.injEq] at hby
  obtain rfl := hat
  obtain rfl : i = c := congrArg CircuitLife.circId hby
  rw [heq]
  exact h.founded.born hrs hu

def answersFor (t : SessionTask) (c : UInt32) (s : StreamId) : List StreamCommand :=
  ((t.injected.filter fun x => x.circId = c).filterMap fun x => streamCommand x.payload).filter
    fun cmd => cmd.streamId = s

lemma told_said : ∃ pieces : List Bytes, pieces.flatten = up.read.flatten ∧ up.said.flatMap told =
      pieces.map (fun b => .data ⟨up.streamId, b⟩) ++
        if up.pump = .running then [] else [.stop ⟨up.streamId⟩] := by
  refine ⟨up.read.flatMap (chunks (max maxReverseRelayDataBytes 1)), ?_, ?_⟩
  · have hc : ∀ b : Bytes, (chunks (max maxReverseRelayDataBytes 1) b).flatten = b :=
      flatten_chunks (by decide)
    induction up.read with
    | nil => rfl
    | cons b read ih =>
      rw [List.flatMap_cons, List.flatten_append, List.flatten_cons, hc, ih]
  · rw [Upstream.said, List.flatMap_append, List.flatMap_map, List.map_flatMap]
    split_ifs <;> rfl

lemma answersFor_eq (hf : Founded t) (ho : Opened t u c s)
    (hon : ∀ v, t.executor.dispatcher.ids[v]? = some s → v = u)
    (hcr : ∀ x ∈ t.injected, x.origin = u → x.circId = c) : (t.answersFor c s).map some =
      (t.injected.filter fun x => x.origin = u).map fun x => streamCommand x.payload := by
  have hsb : ∀ x ∈ t.injected, x ∈ t.outgoing := fun x hx => List.mem_append_left _ hx
  unfold answersFor
  generalize t.injected = l at hcr hsb ⊢
  induction l with
  | nil => rfl
  | cons x l ih =>
    have ih := ih (fun y hy => hcr y (List.mem_cons_of_mem x hy))
      fun y hy => hsb y (List.mem_cons_of_mem x hy)
    obtain ⟨cmd, hcm, hat⟩ := hf.origins x (hsb x List.mem_cons_self)
    by_cases hu : x.origin = u
    · have hs : cmd.streamId = s := by
        rw [hu, ho.1] at hat
        exact (Option.some.inj hat).symm
      simp [hcr, hu, hcm, hs, ih]
    · have hs : cmd.streamId ≠ s := fun hs => hu (hon _ (hs ▸ hat))
      by_cases hc : x.circId = c
      · simp [hc, hu, hcm, hs, ih]
      · simp [hc, hu, ih]

lemma Told.answers (h : Told t u c s) (hf : Founded t) (ho : Opened t u c s)
    (hon : ∀ v, t.executor.dispatcher.ids[v]? = some s → v = u)
    (hup : t.executor.dispatcher.upstreams[u]? = some up)
    (hq : t.executor.dispatcher.queuedOf u = []) (hi : t.agenda = []) :
    t.answersFor c s = up.said.flatMap told := by
  have hal : (t.injected.filter fun x => x.origin = u) = up.said.flatMap (injections c u) := by
    have ha := h.account up hup
    rwa [hq, List.flatMap_nil, List.append_nil, outgoingOf, outgoing, pending, hi,
      List.flatMap_nil, List.append_nil] at ha
  have hc : ∀ x ∈ t.injected, x.origin = u → x.circId = c := by
    rintro ⟨i, v, p⟩ hx rfl
    exact (h.mem_outgoing ho (List.mem_append_left _ hx)).1
  refine List.map_injective_iff.2 (Option.some_injective _) ?_
  rw [answersFor_eq hf ho hon hc, hal, List.map_flatMap, List.map_flatMap]
  refine List.flatMap_congr fun ev _ => ?_
  rw [← map_streamCommand, injections, List.map_map]
  rfl

lemma start_founded (state : BridgeCircuitState) (config : TcpStreamDispatcherConfig)
    (dialer tokenVerify : Bool) (router : Option RendezvousRouter) :
    Founded (start state (.new config dialer tokenVerify) router) := by
  refine start_rec _ _ _ ?_ (fun t _ _ h => ⟨h.listening, h.openers, h.events, h.origins⟩)
    fun t _ h => h.of_quiet (.finish _)
  refine ⟨rfl, rfl, fun p hp => ?_, fun x hx => ?_⟩
  · cases hp
  · cases hx

/-- What a connection has said is sealed or on its way, in order, and the client gets it with one
`END`. -/
theorem reply_delivered (A : Aead) (hA : A.Lawful) (S : Ed25519) (policy : BridgePolicy)
    (picker : UInt64 → UInt32) (seq : UInt64) (relayMode : Bool)
    (config : TcpStreamDispatcherConfig) (dialer tokenVerify : Bool)
    (router : Option RendezvousRouter) (events : List SessionEvent) (t : SessionTask)
    (u : ℕ) (c : UInt32) (s : StreamId) (up : Upstream)
    (hrun : t = run (step A S)
      (start (.start policy picker seq relayMode) (.new config dialer tokenVerify) router) events)
    (hkept : Along (step A S)
      (fun t e => RepliesKept u c s t e ∧ CircuitOpen u c (t.step A S e))
      (start (.start policy picker seq relayMode) (.new config dialer tokenVerify) router) events)
    (hres : t.result = none) (hopened : Opened t u c s)
    (hone : ∀ v, t.executor.dispatcher.ids[v]? = some s → v = u)
    (hup : t.executor.dispatcher.upstreams[u]? = some up) :
    t.outgoingOf u ++ (t.executor.dispatcher.queuedOf u).flatMap (injections c u) =
        up.said.flatMap (injections c u) ∧
      (up.pump ≠ .running → t.executor.dispatcher.queuedOf u = [] → t.agenda = [] →
        ∃ pieces : List Bytes, pieces.flatten = up.read.flatten ∧
          t.answersFor c s = pieces.map (fun b => .data ⟨s, b⟩) ++ [.stop ⟨s⟩]) := by
  have hi : Replying u c s t := by
    rw [hrun]
    refine inv_run (fun t e ht he => ht.step hA he.1 he.2) _ events ?_ hkept
    refine ⟨start_founded _ _ _ _ _, ?_, fun _ h => ?_⟩
    · rw [start_state]
      intro id e he
      cases he
    · have hat := h.1
      rw [start_executor] at hat
      cases hat
  obtain ⟨-, htl⟩ := hi.told hres hopened
  refine ⟨htl.account up hup, fun hpm hq hid => ?_⟩
  obtain ⟨pieces, hp, hsd⟩ := told_said
  have hs : up.streamId = s := by
    have hat := ids_getElem? hup
    rw [hopened.1] at hat
    exact (Option.some.inj hat).symm
  rw [if_neg hpm, hs] at hsd
  exact ⟨pieces, hp, (htl.answers hi.founded hopened hone hup hq hid).trans hsd⟩

/-- The client ends its side, the upstream answers and closes, and nothing is sealed. -/
theorem reply_lost :
    let t := run (step Aead.plain anySignature) plainSession
      (openCircuit 1 ++ relayIn 1 (beginPayload 1) ++ relayIn 1 (endPayload 1) ++
        [.exitPump (.read 0 [72, 105]), .exitPump (.eof 0), .arm (.exitEvent 0),
          .arm (.exitEvent 0)])
    t.result = none ∧ t.state.circuitState 1 = some .open ∧
      t.executor.dispatcher.upstreams.map (fun up => (up.read, up.pump)) =
        [([[72, 105]], .closing)] ∧
      t.executor.dispatcher.events = [] ∧ t.agenda = [] ∧ t.injected = [] := by
  decide +kernel

def wholeReply : List SessionEvent :=
  openCircuit 1 ++ relayIn 1 (beginPayload 1) ++
    [.exitPump (.read 0 [72]), .arm (.exitEvent 0), .exitPump (.read 0 [105]), .next fine,
      .next fine, .next fine, .exitPump (.eof 0), .arm (.exitEvent 0), .next fine, .next fine,
      .next fine, .arm (.exitEvent 0), .next fine, .next fine, .next fine] ++
    relayIn 1 (endPayload 1)

theorem reply_delivered_whole : ∃ pieces : List Bytes, pieces.flatten = [72, 105] ∧
      (run (step Aead.plain anySignature) plainSession wholeReply).answersFor 1 1 =
        pieces.map (fun b => .data ⟨1, b⟩) ++ [.stop ⟨1⟩] := by
  have hi : (run (step Aead.plain anySignature) plainSession
      wholeReply).executor.dispatcher.ids = [1] := by decide +kernel
  refine (reply_delivered Aead.plain Aead.plain_lawful anySignature .default
    sequentialOutCircIdPicker 0 false .default true false none wholeReply
    (run (step Aead.plain anySignature) plainSession wholeReply) 0 1 1
    ⟨1, .v4 #v[93, 184, 216, 34], .closing, true, [[72], [105]], []⟩ rfl ?_ ?_ ⟨?_, 1, ?_⟩
    (fun v hv => ?_) ?_).2 ?_ ?_ ?_
  · decide +kernel
  · decide +kernel
  · decide +kernel
  · decide +kernel
  · have hv : [(1 : StreamId)][v]? = some 1 := (congrArg (·[v]?) hi).symm.trans hv
    have hlt := (List.getElem?_eq_some_iff.1 hv).1
    simpa using hlt
  · decide +kernel
  · decide +kernel
  · decide +kernel
  · decide +kernel

end SessionTask

end Mirage.Bridge
