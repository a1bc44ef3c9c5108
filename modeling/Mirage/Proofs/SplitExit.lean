import Mirage.Circuit.SplitExit
import Mirage.Lib.Runs

/-!
# The agreement of resolver and forwarder

A stream id is all that a handoff, a connection attempt and a result have in common; whatever is
under way is to belong to the stream that now has it (`Current`).
-/

namespace Mirage.SplitExit

open Words Maps Mux Runs Function ResolverState Option
open List hiding Vector

variable {j id : UInt32}

def SocketAddr.target : SocketAddr → ResolveTarget
  | ⟨.v4 addr, port⟩ => .ipv4 addr port
  | ⟨.v6 addr, port⟩ => .ipv6 addr port

namespace ResolverState

variable {r : ResolverState} {id : UInt32} {e : ResolverEntry} {now : Instant}

lemma lookup_closeStream (h : (r.closeStream id).2.streams.lookup j = some e) :
    r.streams.lookup j = some e := by
  unfold closeStream at h
  split at h
  · exact h
  · exact lookup_of_erase h

lemma lookup_sweepTimeouts {order : List UInt32}
    (h : (r.sweepTimeouts order now).2.streams.lookup j = some e) :
    r.streams.lookup j = some e := by
  unfold sweepTimeouts at h
  generalize order.filter _ = victims at h
  induction victims generalizing r with
  | nil => exact h
  | cons id victims ih => exact lookup_closeStream (ih h)

lemma observeResolve_spec (r : ResolverState) (body : ResolveBody) (now : Instant) :
    (∃ err, r.observeResolve body now = (.error err, r)) ∨ r.streams.lookup body.streamId = none ∧
      ((∃ host port, body.target = .domain host port ∧
        r.observeResolve body now = (.ok (.needDns body.streamId host port),
          r.addPending body.streamId ⟨.resolving, port, now⟩)) ∨ ∃ addr, body.target = addr.target ∧
        r.observeResolve body now = (.ok (.emitHandoff ⟨body.streamId, addr⟩),
          r.addPending body.streamId ⟨.handing, addr.port, now⟩)) := by
  unfold observeResolve
  split_ifs with he
  · exact .inl ⟨_, rfl⟩
  · exact .inl ⟨_, rfl⟩
  · exact .inl ⟨_, rfl⟩
  refine .inr ⟨by simpa using he, ?_⟩
  split
  · exact .inl ⟨_, _, ‹_›, rfl⟩
  · exact .inr ⟨⟨.v4 _, _⟩, ‹_›, rfl⟩
  · exact .inr ⟨⟨.v6 _, _⟩, ‹_›, rfl⟩

lemma recordResolution_spec (r : ResolverState) (id : UInt32) (ip : IpAddr) (now : Instant) :
    (∃ err, r.recordResolution id ip now = (.error err, r)) ∨
    ∃ entry, r.streams.lookup id = some entry ∧ entry.state = .resolving ∧
      r.recordResolution id ip now = (.ok ⟨id, ip, entry.port⟩,
        r.setEntry id { entry with state := .handing, stateEntered := now }) := by
  unfold recordResolution
  split
  · exact .inl ⟨_, rfl⟩
  rename_i entry he
  split_ifs with hs
  · exact .inl ⟨_, rfl⟩
  · exact .inr ⟨entry, he, not_not.1 hs, rfl⟩

lemma lookup_observeHandoffResult {body : HandoffResultBody}
    (h : (r.observeHandoffResult body).2.streams.lookup j = some e) :
    r.streams.lookup j = some e ∨
      j = body.streamId ∧ body.status.isOk = true ∧
        ∃ e₀, r.streams.lookup j = some e₀ ∧ e = { e₀ with state := .open } := by
  unfold observeHandoffResult at h
  split at h
  · exact .inl h
  split_ifs at h with hs hok
  · exact .inl h
  · rcases lookup_of_insert h with ⟨rfl, rfl⟩ | ho
    · exact .inr ⟨rfl, hok, _, ‹_›, rfl⟩
    · exact .inl ho
  · have hc : (r.closeStream body.streamId).2.streams.lookup j = some e := by
      generalize r.closeStream body.streamId = reply at h ⊢
      obtain ⟨_ | _, _⟩ := reply <;> exact h
    exact .inl (lookup_closeStream hc)

end ResolverState

lemma ForwarderState.recordConnectResult_streamId {f f' : ForwarderState} {status : HandoffStatus}
    {body : HandoffResultBody} (h : f.recordConnectResult id status = (.ok body, f')) :
    body.streamId = id := by
  unfold recordConnectResult at h
  split at h
  · cases h
  split_ifs at h
  · cases h
  · cases h
    rfl
  split at h
  · cases h
    rfl
  · cases h

namespace Pair

variable {s s' : Pair}

def Message.dial : Message → Option Dial
  | .handoff body life => some ⟨body.streamId, body.addr, life⟩
  | .close _ => none

/-- The handoffs that were sent, the attempts, and the results that say the attempt succeeded. -/
def underWay (s : Pair) : List Dial :=
  s.toForwarder.filterMap Message.dial ++ s.dials ++
    (s.toResolver.filter (·.body.status.isOk)).map (·.dial)

variable {d : Dial} {body : HandoffBody} {entry : ResolverEntry}

lemma mem_underWay : d ∈ s.underWay ↔ (∃ m ∈ s.toForwarder, Message.dial m = some d) ∨ d ∈ s.dials ∨
      ∃ a ∈ s.toResolver, a.body.status.isOk = true ∧ a.dial = d := by
  simp [underWay, mem_filterMap, and_assoc]

/-- Whatever is under way belongs to the stream that has the id. -/
structure Current (s : Pair) : Prop where
  dials : ∀ d ∈ s.underWay, d.life = s.lives d.streamId ∧ s.handed d.streamId = some d.addr
  resolving : ∀ id e, s.resolver.streams.lookup id = some e → e.state = .resolving →
    s.handed id = none
  answers : ∀ a ∈ s.toResolver, a.body.streamId = a.dial.streamId

lemma Current.of_sub (h : Current s) (hl : s'.lives = s.lives)
    (hh : s'.handed = s.handed) (hdl : ∀ d ∈ s'.underWay, d ∈ s.underWay)
    (hs : ∀ id e, s'.resolver.streams.lookup id = some e → e.state = .resolving →
      s.resolver.streams.lookup id = some e)
    (han : ∀ a ∈ s'.toResolver, a ∈ s.toResolver) : Current s' := by
  refine ⟨fun d hd => ?_, fun id e he hst => ?_, fun a ha => h.answers a (han a ha)⟩
  · rw [hl, hh]
    exact h.dials d (hdl d hd)
  · rw [hh]
    exact h.resolving id e (hs id e he hst) hst

lemma Current.not_mem (h : Current s) (hn : s.handed d.streamId = none) : d ∉ s.underWay := by
  intro hd
  have hs := (h.dials d hd).2
  rw [hn] at hs
  cases hs

lemma mem_underWay_handOff (hd : d ∈ (s.handOff body).underWay) :
    d ∈ s.underWay ∨ d = ⟨body.streamId, body.addr, s.lives body.streamId⟩ := by
  rw [mem_underWay] at hd ⊢
  rcases hd with ⟨m, hm, hdl⟩ | hd
  · rcases mem_append.1 hm with hm | hm
    · exact .inl (.inl ⟨m, hm, hdl⟩)
    · obtain rfl := mem_singleton.1 hm
      exact .inr (some.inj hdl).symm
  · exact .inl (.inr hd)

lemma Current.handOff (h : Current s) (hn : s.handed body.streamId = none)
    (hs : ∀ e, s.resolver.streams.lookup body.streamId = some e → e.state ≠ .resolving) :
    Current (s.handOff body) := by
  refine ⟨fun d hd => ?_, fun id e he hr => ?_, h.answers⟩
  · change d.life = s.lives d.streamId ∧ update s.handed _ _ _ = _
    rcases mem_underWay_handOff hd with hd | rfl
    · have hne : d.streamId ≠ body.streamId := fun heq => h.not_mem (heq ▸ hn) hd
      rw [update_of_ne hne]
      exact h.dials d hd
    · rw [update_self]
      exact ⟨rfl, rfl⟩
  · have hne : id ≠ body.streamId := fun heq => hs e (heq ▸ he) hr
    change update s.handed _ _ id = none
    rw [update_of_ne hne]
    exact h.resolving id e he hr

/-- Nothing is under way for the id. -/
def Settled (s : Pair) (id : UInt32) : Prop := ∀ d ∈ s.underWay, d.streamId ≠ id
deriving Decidable

/-- An id that the resolver has no stream for is used when nothing of an earlier stream is left. -/
def ReusesSettled (s : Pair) : PairEvent → Prop
  | .resolve body _ => s.resolver.streamState body.streamId = none → s.Settled body.streamId
  | _ => True

instance (s : Pair) : DecidablePred (ReusesSettled s) := fun _ => by
  unfold ReusesSettled
  split <;> infer_instance

section

variable (h : Current s)

include h

lemma Current.begin {e : ResolverEntry} (hs : s.Settled id) :
    Current ({ s with resolver := s.resolver.addPending id e }.begin id) := by
  refine ⟨fun d hd => ?_, fun j e' he' hr => ?_, h.answers⟩
  · have hne := hs d hd
    change d.life = update s.lives _ _ _ ∧ update s.handed _ _ _ = _
    rw [update_of_ne hne, update_of_ne hne]
    exact h.dials d hd
  · change update s.handed _ _ j = none
    by_cases hj : j = id
    · rw [hj, update_self]
    · rw [update_of_ne hj]
      exact h.resolving j e' ((AList.lookup_insert_ne hj).symm.trans he') hr

lemma Current.resolve {body : ResolveBody} {now : Instant}
    (hs : s.resolver.streamState body.streamId = none → s.Settled body.streamId) :
    Current (s.resolve body now) := by
  unfold Pair.resolve
  rcases s.resolver.observeResolve_spec body now with ⟨err, heq⟩ | ⟨hn, ha⟩
  · rw [heq]
    exact h
  have hst : s.Settled body.streamId := hs (by
    rw [streamState, hn]
    rfl)
  rcases ha with ⟨host, port, -, heq⟩ | ⟨addr, -, heq⟩
  · rw [heq]
    exact h.begin hst
  rw [heq]
  refine (h.begin hst).handOff (update_self ..) fun e he => ?_
  obtain rfl := some.inj ((AList.lookup_insert _).symm.trans he)
  simp

lemma Current.resolved (ip : IpAddr) (now : Instant) : Current (s.resolved id ip now) := by
  unfold Pair.resolved
  rcases s.resolver.recordResolution_spec id ip now with
    ⟨err, heq⟩ | ⟨entry, hen, hs, heq⟩
  · rw [heq]
    exact h
  rw [heq]
  have hn : s.handed id = none := h.resolving id entry hen hs
  have hst : Current { s with
      resolver := (s.resolver.setEntry id ⟨.handing, entry.port, now⟩) } := by
    refine h.of_sub rfl rfl (fun d hd => hd) (fun j e he hr => ?_) fun a ha => ha
    rcases lookup_of_insert he with ⟨rfl, rfl⟩ | ho
    · cases hr
    · exact ho
  refine hst.handOff hn fun e he => ?_
  obtain rfl := some.inj ((AList.lookup_insert _).symm.trans he)
  simp

variable (tell : Bool)

lemma Current.tellClosed (ids : List UInt32) : Current (s.tellClosed tell ids) := by
  unfold Pair.tellClosed
  split_ifs
  · refine h.of_sub rfl rfl (fun d hd => ?_) (fun _ _ he _ => he) fun a ha => ha
    refine mem_underWay.2 ((mem_underWay.1 hd).imp_left ?_)
    rintro ⟨m, hm, hdl⟩
    rcases mem_append.1 hm with hm | hm
    · exact ⟨m, hm, hdl⟩
    · obtain ⟨id, -, rfl⟩ := mem_map.1 hm
      cases hdl
  · exact h

lemma Current.forgets {r : ResolverState} (ids : List UInt32)
    (hr : ∀ id e, r.streams.lookup id = some e → s.resolver.streams.lookup id = some e) :
    Current ({ s with resolver := r }.tellClosed tell ids) := by
  have hf : Current { s with resolver := r } :=
    h.of_sub rfl rfl (fun _ hd => hd) (fun id e he _ => hr id e he) fun _ ha => ha
  exact hf.tellClosed tell ids

lemma Current.closedAtResolver :
    Current (s.closedAtResolver id tell (s.resolver.closeStream id)) := by
  have hc : ∀ j e, (s.resolver.closeStream id).2.streams.lookup j = some e →
      s.resolver.streams.lookup j = some e := fun j e => lookup_closeStream
  unfold Pair.closedAtResolver
  split
  · rename_i r heq
    rw [heq] at hc
    exact h.forgets tell [id] hc
  · exact h

lemma Current.forward (now : Instant) : Current (s.forward now) := by
  unfold Pair.forward
  split
  · exact h
  · rename_i body life rest hq
    have hdl : ⟨body.streamId, body.addr, life⟩ ∈ s.underWay :=
      mem_underWay.2 (.inl ⟨_, hq ▸ mem_cons_self, rfl⟩)
    have hr : ∀ m ∈ rest, m ∈ s.toForwarder := fun m hm => hq ▸ mem_cons_of_mem _ hm
    dsimp only
    split
    · refine h.of_sub rfl rfl (fun d hd => ?_) (fun _ _ he _ => he) fun a ha => ha
      rcases mem_underWay.1 hd with ⟨m, hm, hmd⟩ | hd | hd
      · exact mem_underWay.2 (.inl ⟨m, hr m hm, hmd⟩)
      · rcases mem_append.1 hd with hd | hd
        · exact mem_underWay.2 (.inr (.inl hd))
        · obtain rfl := mem_singleton.1 hd
          exact hdl
      · exact mem_underWay.2 (.inr (.inr hd))
    · refine h.of_sub rfl rfl (fun d hd => ?_) (fun _ _ he _ => he) fun a ha => ha
      refine mem_underWay.2 ((mem_underWay.1 hd).imp_left ?_)
      rintro ⟨m, hm, hmd⟩
      exact ⟨m, hr m hm, hmd⟩
  · rename_i id rest hq
    refine h.of_sub rfl rfl (fun d hd => ?_) (fun _ _ he _ => he) fun a ha => ha
    refine mem_underWay.2 ((mem_underWay.1 hd).imp_left ?_)
    rintro ⟨m, hm, hmd⟩
    exact ⟨m, hq ▸ mem_cons_of_mem _ hm, hmd⟩

lemma Current.connected (k : ℕ) (status : HandoffStatus) : Current (s.connected k status) := by
  unfold Pair.connected
  split
  · exact h
  rename_i dial hk
  have hdl : dial ∈ s.dials := mem_of_getElem? hk
  have hes : ∀ d ∈ s.dials.eraseIdx k, d ∈ s.dials := fun d => mem_of_mem_eraseIdx
  dsimp only
  split
  · rename_i body f heq
    have hid := ForwarderState.recordConnectResult_streamId heq
    refine ⟨fun d hd => h.dials d ?_, h.resolving, fun a ha => ?_⟩
    · rcases mem_underWay.1 hd with hd | hd | ⟨a, ha, hok, rfl⟩
      · exact mem_underWay.2 (.inl hd)
      · exact mem_underWay.2 (.inr (.inl (hes d hd)))
      · rcases mem_append.1 ha with ha | ha
        · exact mem_underWay.2 (.inr (.inr ⟨a, ha, hok, rfl⟩))
        · obtain rfl := mem_singleton.1 ha
          exact mem_underWay.2 (.inr (.inl hdl))
    · rcases mem_append.1 ha with ha | ha
      · exact h.answers a ha
      · obtain rfl := mem_singleton.1 ha
        exact hid
  · refine h.of_sub rfl rfl (fun d hd => ?_) (fun _ _ he _ => he) fun a ha => ha
    refine mem_underWay.2 ((mem_underWay.1 hd).imp_right ?_)
    exact fun hd => hd.imp_left (hes d)

lemma Current.result : Current s.result := by
  unfold Pair.result
  split
  · exact h
  rename_i answer rest hq
  have hrs : ∀ a ∈ rest, a ∈ s.toResolver := fun a ha => hq ▸ mem_cons_of_mem _ ha
  refine h.of_sub rfl rfl (fun d hd => ?_) (fun id e he hr => ?_) hrs
  · rcases mem_underWay.1 hd with hd | hd | ⟨a, ha, hok, rfl⟩
    · exact mem_underWay.2 (.inl hd)
    · exact mem_underWay.2 (.inr (.inl hd))
    · exact mem_underWay.2 (.inr (.inr ⟨a, hrs a ha, hok, rfl⟩))
  · rcases lookup_observeHandoffResult he with ho | ⟨-, -, _, -, rfl⟩
    · exact ho
    · cases hr

lemma Current.step {e : PairEvent} (he : s.ReusesSettled e) : Current (s.step e) := by
  cases e with
  | resolve body now => exact h.resolve he
  | resolved id ip now => exact h.resolved ip now
  | resolutionFailed id tell | closeAtResolver id tell => exact h.closedAtResolver tell
  | sweepResolver order now tell =>
    exact h.forgets tell _ fun _ _ => lookup_sweepTimeouts
  | forward now => exact h.forward now
  | connected k status => exact h.connected k status
  | closeAtForwarder | sweepForwarder => exact ⟨h.dials, h.resolving, h.answers⟩
  | result => exact h.result

end

/-- A stream is opened by the result of the attempt that was handed off for it. -/
def OpeningsAgree (s : Pair) (e : PairEvent) : Prop :=
  ∀ id, s.resolver.streamState id ≠ some .open → (s.step e).resolver.streamState id = some .open →
    ∃ a ∈ s.toResolver.head?, e = .result ∧ a.body = ⟨id, .ok⟩ ∧ a.dial.streamId = id ∧
      a.dial.life = s.lives id ∧ s.handed id = some a.dial.addr

lemma tellClosed_resolver (tell : Bool) (ids : List UInt32) :
    (s.tellClosed tell ids).resolver = s.resolver := by
  unfold tellClosed
  split_ifs <;> rfl

lemma lookup_closedAtResolver {tell : Bool}
    (h : (s.closedAtResolver j tell (s.resolver.closeStream j)).resolver.streams.lookup id =
      some entry) : s.resolver.streams.lookup id = some entry := by
  unfold closedAtResolver at h
  split at h
  · rename_i r heq
    rw [tellClosed_resolver] at h
    have hc : (s.resolver.closeStream j).2.streams.lookup id = some entry := by
      rw [heq]
      exact h
    exact lookup_closeStream hc
  · exact h

lemma forward_resolver (now : Instant) : (s.forward now).resolver = s.resolver := by
  unfold forward
  split
  · rfl
  · dsimp only
    split <;> rfl
  · rfl

lemma connected_resolver (k : ℕ) (status : HandoffStatus) :
    (s.connected k status).resolver = s.resolver := by
  unfold connected
  split
  · rfl
  · dsimp only
    split <;> rfl

lemma lookup_open_step {e : PairEvent} (hne : e ≠ .result)
    (h : (s.step e).resolver.streams.lookup id = some entry) (ho : entry.state = .open) :
    s.resolver.streams.lookup id = some entry := by
  cases e with
  | resolve body now =>
    change (s.resolve body now).resolver.streams.lookup id = some entry at h
    unfold Pair.resolve at h
    rcases s.resolver.observeResolve_spec body now with
      ⟨err, heq⟩ | ⟨-, ⟨host, port, -, heq⟩ | ⟨addr, -, heq⟩⟩
    · rw [heq] at h
      exact h
    · rw [heq] at h
      rcases lookup_of_insert h with ⟨rfl, rfl⟩ | hol
      · cases ho
      · exact hol
    · rw [heq] at h
      rcases lookup_of_insert h with ⟨rfl, rfl⟩ | hol
      · cases ho
      · exact hol
  | resolved j ip now =>
    change (s.resolved j ip now).resolver.streams.lookup id = some entry at h
    unfold Pair.resolved at h
    rcases s.resolver.recordResolution_spec j ip now with ⟨err, heq⟩ | ⟨old, -, -, heq⟩
    · rw [heq] at h
      exact h
    rw [heq] at h
    rcases lookup_of_insert h with ⟨rfl, rfl⟩ | hol
    · cases ho
    · exact hol
  | resolutionFailed j tell | closeAtResolver j tell => exact lookup_closedAtResolver h
  | sweepResolver order now tell =>
    have hs : (s.resolver.sweepTimeouts order now).2.streams.lookup id = some entry := by
      change (tellClosed _ tell _).resolver.streams.lookup id = some entry at h
      rwa [tellClosed_resolver] at h
    exact lookup_sweepTimeouts hs
  | forward now =>
    change (s.forward now).resolver.streams.lookup id = some entry at h
    rwa [forward_resolver] at h
  | connected k status =>
    change (s.connected k status).resolver.streams.lookup id = some entry at h
    rwa [connected_resolver] at h
  | closeAtForwarder | sweepForwarder => exact h
  | result => exact absurd rfl hne

lemma Current.openingsAgree (h : Current s) (e : PairEvent) : s.OpeningsAgree e := by
  intro id hc hon
  obtain ⟨entry, he, hs⟩ := map_eq_some_iff.1 hon
  have hn : s.resolver.streams.lookup id ≠ some entry := fun ho =>
    hc (map_eq_some_iff.2 ⟨entry, ho, hs⟩)
  by_cases hr : e = .result
  · subst hr
    change s.result.resolver.streams.lookup id = some entry at he
    unfold Pair.result at he
    split at he
    · exact absurd he hn
    rename_i answer rest hq
    rcases lookup_observeHandoffResult he with ho | ⟨rfl, hok, -⟩
    · exact absurd ho hn
    have hm : answer ∈ s.toResolver := hq ▸ mem_cons_self
    have hid := h.answers answer hm
    have hd := h.dials answer.dial (mem_underWay.2 (.inr (.inr ⟨answer, hm, hok, rfl⟩)))
    rw [← hid] at hd
    refine ⟨answer, by rw [hq]; rfl, rfl, ?_, hid.symm, hd⟩
    have hst : answer.body.status = .ok := by simpa [HandoffStatus.isOk] using hok
    rw [← hst]
  · exact absurd (lookup_open_step hr he hs) hn

lemma current_new (policy : ResolverPolicy) (policy' : ForwarderPolicy) :
    Current (new policy policy') := by
  refine ⟨fun d hd => ?_, fun id e he => ?_, fun a ha => ?_⟩
  · cases hd
  · cases he
  · cases ha

/-- If ids are used again only when nothing of them is under way, openings agree. -/
theorem openings_agree (policy : ResolverPolicy) (policy' : ForwarderPolicy)
    (events : List PairEvent) (h : Along step ReusesSettled (new policy policy') events) :
    Along step OpeningsAgree (new policy policy') events :=
  along_of_inv (fun _ _ hs he => hs.step he) (fun _ e hs _ => hs.openingsAgree e) _
    events (current_new policy policy') h

def literal (id : UInt32) (n : UInt8) : ResolveBody :=
  ⟨id, .ipv4 (Vector.replicate 3 10 |>.push n) 80⟩

/-- A stream is closed and its id begun anew: the earlier result opens the new one. -/
theorem stale_result_opens :
    let s := run step (new .default .default)
      [.resolve (literal 1 1) 0, .forward 0, .connected 0 .ok, .closeAtResolver 1 true,
        .resolve (literal 1 2) 0]
    s.handed 1 = some ⟨.v4 (Vector.replicate 3 10 |>.push 2), 80⟩ ∧
      s.toResolver.map (·.dial) = [⟨1, ⟨.v4 (Vector.replicate 3 10 |>.push 1), 80⟩, 1⟩] ∧
      s.lives 1 = 2 ∧ s.resolver.streamState 1 = some .handing ∧
      (s.step .result).resolver.streamState 1 = some .open ∧
      (s.step .result).forwarder.streamDest 1 =
        some ⟨.v4 (Vector.replicate 3 10 |>.push 1), 80⟩ := by
  decide +kernel

def reusedLater : List PairEvent :=
  [.resolve (literal 1 1) 0, .forward 0, .connected 0 .ok, .result, .closeAtResolver 1 true,
    .forward 0, .resolve (literal 1 2) 0, .forward 0, .connected 0 .ok]

theorem openings_agree_reused :
    let s := run step (new .default .default) reusedLater
    s.resolver.streamState 1 = some .handing ∧
      (s.step .result).resolver.streamState 1 = some .open ∧ s.OpeningsAgree .result := by
  intro s
  have h := openings_agree .default .default (reusedLater ++ [.result]) (by decide +kernel)
  exact ⟨by decide +kernel, by decide +kernel, (along_append.1 h).2.1⟩

end Pair

/-! ### What the resolver hands off -/

def IpAddr.Mapped : IpAddr → Prop
  | .v4 _ => False
  | .v6 octets => isIpv4Mapped octets = true

namespace HandoffBody

/-- The handoff can be encoded and is read back. -/
def Sendable (h : HandoffBody) : Prop := ∃ b, h.encode = .ok b ∧ decode b = .ok h

lemma sendable_iff {h : HandoffBody} (hid : h.streamId ≠ 0) (hpr : h.addr.port ≠ 0) :
    h.Sendable ↔ ¬h.addr.ip.Mapped := by
  obtain ⟨id, ip, port⟩ := h
  have hi : beNat (beBytes 4 id.toNat) = _ := beNat_beBytes id.toNat_lt
  have hp : beNat (beBytes 2 port.toNat) = _ := beNat_beBytes port.toNat_lt
  have hv {n : ℕ} (v : Vector UInt8 n) (bs : Bytes) :
      vec n (v.toList ++ bs) = v ∧ (v.toList ++ bs).drop n = bs := by
    rw [← vec_take le_rfl, take_left' v.length_toList, drop_left' v.length_toList]
    exact ⟨vec_toList v, rfl⟩
  simp only [beBytes, nil_append, cons_append] at hi hp hid hpr
  cases ip with
  | v4 octets => simp [Sendable, encode, decode, IpAddr.Mapped, beBytes, *]
  | v6 octets =>
    by_cases hm : isIpv4Mapped octets = true <;>
      simp [Sendable, encode, decode, IpAddr.Mapped, beBytes, *]

end HandoffBody

lemma ResolveBody.of_decode {buf : Bytes} {body : ResolveBody} (h : decode buf = .ok body) :
    body.streamId ≠ 0 ∧ (∀ host port, body.target = .domain host port → port ≠ 0) ∧
      ∀ addr : SocketAddr, body.target = addr.target → addr.port ≠ 0 ∧ ¬addr.ip.Mapped := by
  unfold decode at h
  split at h
  · dsimp only at h
    split_ifs at h with hid
    split at h
    · cases h
    rename_i target port htr
    split_ifs at h with hl hp
    cases h
    unfold ResolveTarget.decode at htr
    refine ⟨hid, ?_⟩
    split at htr
    · split_ifs at htr
      cases htr
      exact ⟨nofun, by rintro ⟨_ | _, _⟩ ⟨⟩; exact ⟨hp, id⟩⟩
    · split_ifs at htr with hl hm
      cases htr
      exact ⟨nofun, by rintro ⟨_ | _, _⟩ ⟨⟩; exact ⟨hp, hm⟩⟩
    · split at htr
      · cases htr
      · dsimp only at htr
        split_ifs at htr
        cases htr
        exact ⟨fun _ _ ht => by cases ht; exact hp, by rintro ⟨_ | _, _⟩ ⟨⟩⟩
    · cases htr
  · cases h

namespace ResolverState

variable {r r' : ResolverState} {id : UInt32} {e : ResolverEntry} {c : ResolverCall}

def Ready (r : ResolverState) : Prop := ∀ id e, r.streams.lookup id = some e → id ≠ 0 ∧ e.port ≠ 0

/-- What the call hands off can be sent, and a stream that comes to wait for the forwarder has been
handed off. -/
def Sends (r : ResolverState) (c : ResolverCall) : Prop :=
  (∀ h ∈ (r.call c).1, h.Sendable) ∧ ∀ id, (r.call c).2.streamState id = some .handing →
    r.streamState id = some .handing ∨ ∃ h ∈ (r.call c).1, h.streamId = id

/-- An answer to a lookup that is under way is no IPv4 address written as an IPv6 one. -/
def Unmapped (r : ResolverState) : ResolverCall → Prop
  | .recordResolution id ip _ => r.streamState id = some .resolving → ¬ip.Mapped
  | _ => True

lemma Ready.quiet (hr : r.Ready) (hc : r.call c = (none, r'))
    (h : ∀ j e, r'.streams.lookup j = some e → ∃ e₀, r.streams.lookup j = some e₀ ∧
      e.port = e₀.port ∧ (e.state = .handing → e₀.state = .handing)) :
    (r.call c).2.Ready ∧ r.Sends c := by
  rw [Sends, hc]
  refine ⟨fun j e he => ?_, nofun, fun j hj => ?_⟩
  · obtain ⟨e₀, he₀, hp, -⟩ := h j e he
    rw [hp]
    exact hr j e₀ he₀
  · obtain ⟨e, he, hs⟩ := map_eq_some_iff.1 hj
    obtain ⟨e₀, he₀, -, hh⟩ := h j e he
    exact .inl (map_eq_some_iff.2 ⟨e₀, he₀, hh hs⟩)

lemma Ready.entry (hr : r.Ready) {ha : Option HandoffBody} (hc : r.call c = (ha, r'))
    (hr' : r'.streams = r.streams.insert id e) (hid : id ≠ 0) (hp : e.port ≠ 0)
    (hh : e.state = .handing → ∃ h ∈ ha, h.streamId = id) :
    (r.call c).2.Ready ∧ (r.Sends c ↔ ∀ h ∈ ha, h.Sendable) := by
  rw [Sends, hc]
  refine ⟨fun j e' he => ?_, and_iff_left fun j hj => ?_⟩
  · rw [hr'] at he
    rcases lookup_of_insert he with ⟨rfl, rfl⟩ | ho
    · exact ⟨hid, hp⟩
    · exact hr j e' ho
  · obtain ⟨e', he, hs⟩ := map_eq_some_iff.1 hj
    rw [hr'] at he
    rcases lookup_of_insert he with ⟨rfl, rfl⟩ | ho
    · exact .inr (hh hs)
    · exact .inl (map_eq_some_iff.2 ⟨e', ho, hs⟩)

lemma Ready.step (hr : r.Ready) (c : ResolverCall) :
    (r.call c).2.Ready ∧ (r.Sends c ↔ r.Unmapped c) := by
  have hsm (hc : r.call c = (none, r)) : (r.call c).2.Ready ∧ r.Sends c :=
    hr.quiet hc fun j e he => ⟨e, he, rfl, id⟩
  cases c with
  | observeResolve buf now =>
    cases hb : ResolveBody.decode buf with
    | error err => exact (hsm (by simp only [call, hb])).imp_right iff_true_intro
    | ok body =>
      obtain ⟨hid, hd, ha⟩ := ResolveBody.of_decode hb
      rcases r.observeResolve_spec body now with
        ⟨err, heq⟩ | ⟨-, ⟨host, port, ht, heq⟩ | ⟨addr, ht, heq⟩⟩
      · exact (hsm (by simp only [call, hb, heq])).imp_right iff_true_intro
      · have hc : r.call (.observeResolve buf now) =
            (none, r.addPending body.streamId ⟨.resolving, port, now⟩) := by
          simp only [call, hb, heq]
        simpa [Unmapped] using hr.entry hc rfl hid (hd host port ht) nofun
      · have hc : r.call (.observeResolve buf now) = (some ⟨body.streamId, addr⟩,
            r.addPending body.streamId ⟨.handing, addr.port, now⟩) := by
          simp only [call, hb, heq]
        obtain ⟨hp, hm⟩ := ha addr ht
        have := hr.entry hc rfl hid hp fun _ => ⟨_, rfl, rfl⟩
        simpa [HandoffBody.sendable_iff, hid, hp, hm, Unmapped] using this
  | recordResolution id ip now =>
    cases hl : r.streams.lookup id with
    | none =>
      refine (hsm (by simp only [call, recordResolution, hl]; rfl)).imp_right fun h => ?_
      simp [h, Unmapped, streamState, hl]
    | some entry =>
      obtain ⟨hid, hp⟩ := hr id entry hl
      by_cases hs : entry.state = .resolving
      · have hc : r.call (.recordResolution id ip now) = (some ⟨id, ip, entry.port⟩,
            r.setEntry id { entry with state := .handing, stateEntered := now }) := by
          simp only [call, recordResolution, hl, hs, ne_eq, not_true, if_false]
          rfl
        have := hr.entry hc rfl hid hp fun _ => ⟨_, rfl, rfl⟩
        simpa [HandoffBody.sendable_iff, hid, hp, Unmapped, streamState, hl, hs] using this
      · refine (hsm ?_).imp_right fun h => ?_
        · simp only [call, recordResolution, hl, ne_eq, hs, not_false_eq_true, if_true]
          rfl
        · simp [h, Unmapped, streamState, hl, hs]
  | closeStream id | recordResolutionFailure id =>
    exact (hr.quiet rfl fun _ e he => ⟨e, lookup_closeStream he, rfl, fun h => h⟩).imp_right
      iff_true_intro
  | sweepTimeouts order now =>
    exact (hr.quiet rfl fun _ e he => ⟨e, lookup_sweepTimeouts he, rfl, id⟩).imp_right
      iff_true_intro
  | observeHandoffResult body =>
    refine (hr.quiet rfl fun j e he => ?_).imp_right iff_true_intro
    rcases lookup_observeHandoffResult he with ho | ⟨-, -, e₀, he₀, rfl⟩
    · exact ⟨e, ho, rfl, id⟩
    · exact ⟨e₀, he₀, rfl, nofun⟩

/-- A call hands off what can be sent unless a lookup is answered with an IPv4-mapped address. -/
theorem handoffs_sendable_iff (policy : ResolverPolicy) (calls : List ResolverCall)
    (c : ResolverCall) : let r := run (fun r c => (r.call c).2) (new policy) calls
      r.Sends c ↔ r.Unmapped c :=
  have hrd := inv_run (I := Ready) (fun _ c hr _ => (Ready.step hr c).1) (new policy) calls nofun
    (along_true _ _)
  (hrd.step c).2

/-- The answer to the lookup of `a` is `::ffff:10.0.0.1`, and its handoff has no encoding. -/
theorem mapped_answer_unsendable :
    let buf : Bytes := [0, 0, 0, 1, 3, 1, 0x61, 0, 80]
    let ip : IpAddr := .v6 (vec 16 (replicate 10 0 ++ [0xff, 0xff, 10, 0, 0, 1]))
    let r := ((new .default).call (.observeResolve buf 0)).2
    r.streamState 1 = some .resolving ∧
      (r.call (.recordResolution 1 ip 0)).1 = some ⟨1, ip, 80⟩ ∧
      (r.call (.recordResolution 1 ip 0)).2.streamState 1 = some .handing ∧
      HandoffBody.encode ⟨1, ip, 80⟩ = .error ipv4MappedIpv6 := by
  decide +kernel

end ResolverState

end Mirage.SplitExit
