import Mirage.Proofs.MuxTable

/-!
# One stream of a net

A net seen through one stream id: the two entries, the frames in flight either way, and the logs. A
step of the net is a step of one view (`step_view`).
-/

namespace Mirage.Mux

open Words Function List StreamRole

/-- The scheduler keeps the order of the frames of a stream. -/
theorem filter_deficitRoundRobin (frames : List MuxFrame) (quantum : ℕ) (id : UInt32) :
    (deficitRoundRobin frames quantum).filter (·.streamId = id)
      = frames.filter (·.streamId = id) := by
  unfold deficitRoundRobin
  simp only
  split_ifs with hq hg
  · rfl
  · rw [RoundRobin.queues_head_group hg]
  · exact RoundRobin.filter_schedule (by omega) frames id

/-- A drain hands over what is queued, the frames of every stream in their order. -/
theorem pendingOutbound_perm (m : MuxState) :
    m.pendingOutbound.1.Perm m.outbound ∧ m.pendingOutbound.2.outbound = [] ∧
      ∀ id, m.pendingOutbound.1.filter (·.streamId = id) = m.outbound.filter (·.streamId = id) := by
  have h := filter_deficitRoundRobin m.outbound m.policy.drrQuantumBytes
  refine ⟨perm_iff_count.2 fun f => ?_, rfl, h⟩
  have hf (l : List MuxFrame) : count f (l.filter (·.streamId = f.streamId)) = count f l :=
    count_filter (by simp)
  rw [← hf, ← hf m.outbound]
  exact congrArg (count f) (h f.streamId)

variable {r : StreamRole} {id : UInt32} {e : Effect} {f : MuxFrame} {rest : List MuxFrame}

namespace StreamRole

variable (r : StreamRole)

@[simp] lemma peer_peer : r.peer.peer = r := by cases r <;> rfl

lemma peer_ne : r.peer ≠ r := by cases r <;> nofun

lemma eq_or_eq_peer (r' : StreamRole) : r' = r ∨ r' = r.peer := by
  cases r <;> cases r' <;> simp [peer]

def opener (id : UInt32) : StreamRole := if id % 2 = 0 then initiator else responder

lemma eq_opener {r : StreamRole} (h : r.owns id = true) : r = opener id := by
  cases r <;> simp_all [owns, opener]

end StreamRole

@[ext]
structure View where
  ent : StreamRole → Option Stream
  fly : StreamRole → List MuxFrame
  log : StreamRole → Log

namespace View

variable (v : View) (r : StreamRole)

def move (b : Option Stream) (out : List MuxFrame) (e : Effect) : View where
  ent := update v.ent r b
  fly := update v.fly r.peer (v.fly r.peer ++ out)
  log := update v.log r ((v.log r).after e)

def pop (rest : List MuxFrame) : View := { v with fly := update v.fly r rest }

def opened (window : UInt32) (f : MuxFrame) : View where
  ent := update (fun _ => none) r (some ⟨.synSent, window, window, none⟩)
  fly := update (fun _ => []) r.peer [f]
  log := fun _ => {}

/-- Neither end holds the stream, and no frame of it is in flight. -/
def NoTrace : Prop := ∀ r, v.ent r = none ∧ v.fly r = []

section

variable {v r} (b : Option Stream) (out rest : List MuxFrame) (e : Effect)

@[simp] lemma move_ent : (v.move r b out e).ent r = b := update_self ..

@[simp] lemma move_ent_peer : (v.move r b out e).ent r.peer = v.ent r.peer :=
  update_of_ne r.peer_ne ..

@[simp] lemma move_fly : (v.move r b out e).fly r = v.fly r :=
  update_of_ne r.peer_ne.symm ..

@[simp] lemma move_fly_peer : (v.move r b out e).fly r.peer = v.fly r.peer ++ out :=
  update_self ..

@[simp] lemma move_log : (v.move r b out e).log r = (v.log r).after e := update_self ..

@[simp] lemma move_log_peer : (v.move r b out e).log r.peer = v.log r.peer :=
  update_of_ne r.peer_ne ..

variable (window : UInt32) (f : MuxFrame)

@[simp] lemma opened_ent : (opened r window f).ent r = some ⟨.synSent, window, window, none⟩ := by
  simp [opened]

@[simp] lemma opened_ent_peer : (opened r window f).ent r.peer = none := by
  simp [opened, update_of_ne r.peer_ne]

@[simp] lemma opened_fly : (opened r window f).fly r = [] := by
  simp [opened, update_of_ne r.peer_ne.symm]

@[simp] lemma opened_fly_peer : (opened r window f).fly r.peer = [f] := by
  simp [opened]

@[simp] lemma opened_log (r' : StreamRole) : (opened r window f).log r' = {} := rfl

@[simp] lemma pop_ent : (v.pop r rest).ent = v.ent := rfl

@[simp] lemma pop_log : (v.pop r rest).log = v.log := rfl

@[simp] lemma pop_fly : (v.pop r rest).fly r = rest := update_self ..

@[simp] lemma pop_fly_peer : (v.pop r rest).fly r.peer = v.fly r.peer :=
  update_of_ne r.peer_ne ..

end

end View

/-- The steps of one stream. `mute` is that an `accept` may fail to queue its `BeginOk`. -/
inductive StreamStep (window : StreamRole → UInt32) (id : UInt32) (mute : Prop) : View → View → Prop
  | opened (v : View) (r : StreamRole) (body : Bytes) (hr : r.owns id = true) (hv : v.NoTrace) :
      StreamStep window id mute v (.opened r (window r) ⟨id, .begin, body⟩)
  | call (v : View) (r : StreamRole) (b : Option Stream) (out : List MuxFrame) (e : Effect)
      (h : CallStep (window r) id (v.ent r) b out e) (he : e ≠ .opened) (hm : out = [] → mute) :
      StreamStep window id mute v (v.move r b out e)
  | recv (v : View) (r : StreamRole) (f : MuxFrame) (rest : List MuxFrame) (b : Option Stream)
      (out : List MuxFrame) (e : Effect) (ev : Option MuxEvent) (hf : v.fly r = f :: rest)
      (h : RecvStep (window r) (r.peer.owns id = true) False f (v.ent r) b out e ev) :
      StreamStep window id mute v ((v.pop r rest).move r b out e)

namespace Net

variable {n : Net} {policy : StreamRole → MuxPolicy}

def inFlight (n : Net) (r : StreamRole) (id : UInt32) : List MuxFrame :=
  (n.chan r ++ (n.side r.peer).outbound).filter (·.streamId = id)

def view (n : Net) (id : UInt32) : View where
  ent r := (n.side r).streams.lookup id
  fly r := n.inFlight r id
  log r := n.log r id

/-- What every net keeps: roles, policies and the bounds of frames. -/
structure Sane (policy : StreamRole → MuxPolicy) (n : Net) : Prop where
  role_eq : ∀ r, (n.side r).role = r
  policy_eq : ∀ r, (n.side r).policy = policy r
  zero : ∀ r, (n.side r).streams.lookup 0 = none
  queued : ∀ r, ∀ f ∈ (n.side r).outbound, f.Bounded
  sent : ∀ r, ∀ f ∈ n.chan r, f.Bounded

lemma sane_init : Sane policy (init policy) where
  role_eq _ := rfl
  policy_eq _ := rfl
  zero _ := Finmap.lookup_empty _
  queued _ _ hf := absurd hf not_mem_nil
  sent _ _ hf := absurd hf not_mem_nil

lemma noTrace_init (policy : StreamRole → MuxPolicy) (id : UInt32) :
    ((init policy).view id).NoTrace := fun _ => ⟨rfl, rfl⟩

lemma forall_update {P : StreamRole → MuxState → Prop} {side : StreamRole → MuxState} {m : MuxState}
    (h : ∀ r, P r (side r)) (hm : P r m) (r' : StreamRole) : P r' (update side r m r') := by
  by_cases hr : r' = r
  · subst hr
    rwa [update_self]
  · rw [update_of_ne hr]
    exact h r'

section Logs

variable {log : StreamRole → UInt32 → Log} {r : StreamRole} {id : UInt32}

lemma logged_quiet {e : UInt32 × Effect} (h : e.2 = .quiet) : logged log r e = log := by
  funext r' j
  rw [logged, h]
  split_ifs <;> rfl

lemma logged_self (he : e ≠ .opened) : (fun r' => logged log r (id, e) r' id)
      = update (fun r' => log r' id) r ((log r id).after e) := by
  funext r'
  by_cases hr : r' = r
  · subst hr
    rw [update_self, logged, if_pos ⟨rfl, .inl rfl⟩]
  · rw [update_of_ne hr, logged, if_neg fun h => h.2.elim hr he]

variable {eff : UInt32 × Effect}

lemma logged_of (h : eff = (id, e) ∨ eff.2 = .quiet ∧ e = .quiet) (he : e ≠ .opened) :
    (fun r' => logged log r eff r' id) = update (fun r' => log r' id) r ((log r id).after e) := by
  rcases h with rfl | ⟨hq, rfl⟩
  · exact logged_self he
  · rw [logged_quiet hq, Log.after, update_eq_self]

lemma logged_of_ne {j : UInt32} (h : eff = (id, e) ∨ eff.2 = .quiet ∧ e = .quiet) (hj : j ≠ id) :
    (fun r' => logged log r eff r' j) = fun r' => log r' j := by
  funext r'
  rcases h with rfl | ⟨hq, rfl⟩
  · exact if_neg fun h => hj h.1
  · rw [logged_quiet hq]

lemma logged_opened (r' : StreamRole) : logged log r (id, .opened) r' id = {} :=
  if_pos ⟨rfl, .inr rfl⟩

end Logs

lemma drained_map {α : Type} {g : α → MuxReply} (hg : ∀ a fs, g a ≠ .drained fs) :
    ∀ r : Except MuxStateError α, drained (r.map g) = []
  | .error _ => rfl
  | .ok a => by
    rcases h : g a
    case drained fs => exact absurd h (hg a fs)
    all_goals simp [Except.map, h, drained]

variable {c : MuxCall} {b : Option Stream} {out : List MuxFrame}

lemma drained_call (m : MuxState) (hc : c ≠ .pendingOutbound) : drained (m.call c).1 = [] := by
  cases c
  case pendingOutbound => exact absurd rfl hc
  all_goals exact drained_map nofun _

lemma step_call (hc : c ≠ .pendingOutbound) :
    n.step (.call r c) = ⟨update n.side r ((n.side r).call c).2, n.chan,
      logged n.log r (c.effect ((n.side r).call c).1)⟩ := by
  simp [step, drained_call _ hc, update_eq_self]

lemma step_drain :
    n.step (.call r .pendingOutbound) = ⟨update n.side r { n.side r with outbound := [] },
      update n.chan r.peer (n.chan r.peer ++
        deficitRoundRobin (n.side r).outbound (n.side r).policy.drrQuantumBytes), n.log⟩ := by
  have hl : logged n.log r (MuxCall.effect .pendingOutbound
      ((n.side r).call .pendingOutbound).1) = n.log := logged_quiet rfl
  simp only [step, hl]
  rfl

section Views

variable {m' : MuxState} {r : StreamRole} {id j : UInt32} {b : Option Stream}
  {out : List MuxFrame} {log : StreamRole → UInt32 → Log}

lemma view_shift (hs : MuxState.Shift (n.side r) m' id b out) :
    view ⟨update n.side r m', n.chan, log⟩ id = ⟨update (n.view id).ent r b,
        update (n.view id).fly r.peer ((n.view id).fly r.peer ++ out), fun r' => log r' id⟩ := by
  have ho : out.filter (·.streamId = id) = out :=
    filter_eq_self.2 fun f hf => by simp [(hs.out_bounded f hf).1]
  ext r' : 2
  · rcases r.eq_or_eq_peer r' with rfl | rfl
    · simp [view, hs.lookup_self]
    · simp [view, update_of_ne r.peer_ne]
  · rcases r.eq_or_eq_peer r' with rfl | rfl
    · simp [view, inFlight, update_of_ne r'.peer_ne, update_of_ne r'.peer_ne.symm]
    · simp [view, inFlight, peer_peer, hs.outbound_eq, filter_append, ho]
  · rfl

lemma view_shift_ne (hs : MuxState.Shift (n.side r) m' id b out) (hj : j ≠ id) :
    view ⟨update n.side r m', n.chan, log⟩ j = { n.view j with log := fun r' => log r' j } := by
  have ho : out.filter (·.streamId = j) = [] :=
    filter_eq_nil_iff.2 fun f hf => by simp [(hs.out_bounded f hf).1, hj.symm]
  ext r' : 2
  · rcases r.eq_or_eq_peer r' with rfl | rfl
    · simp [view, hs.lookup_ne j hj]
    · simp [view, update_of_ne r.peer_ne]
  · rcases r.eq_or_eq_peer r' with rfl | rfl
    · simp [view, inFlight, update_of_ne r'.peer_ne]
    · simp [view, inFlight, peer_peer, hs.outbound_eq, filter_append, ho]
  · rfl

lemma view_drain : (n.step (.call r .pendingOutbound)).view id = n.view id := by
  rw [step_drain]
  ext r' : 2
  · rcases r.eq_or_eq_peer r' with rfl | rfl
    · simp [view]
    · simp [view, update_of_ne r.peer_ne]
  · rcases r.eq_or_eq_peer r' with rfl | rfl
    · simp [view, inFlight, update_of_ne r'.peer_ne, update_of_ne r'.peer_ne.symm]
    · simp [view, inFlight, peer_peer, filter_append, filter_deficitRoundRobin]
  · rfl

end Views

lemma mem_deficitRoundRobin {frames : List MuxFrame} {quantum : ℕ}
    (h : f ∈ deficitRoundRobin frames quantum) : f ∈ frames := by
  have hf : f ∈ (deficitRoundRobin frames quantum).filter (·.streamId = f.streamId) :=
    mem_filter.2 ⟨h, by simp⟩
  rw [filter_deficitRoundRobin] at hf
  exact (mem_filter.1 hf).1

lemma sane_shift {m' : MuxState} (hn : Sane policy n)
    (hs : MuxState.Shift (n.side r) m' id b out) (h0 : id = 0 → b = none)
    {chan : StreamRole → List MuxFrame} (hc : ∀ r, ∀ f ∈ chan r, f.Bounded)
    (log : StreamRole → UInt32 → Log) : Sane policy ⟨update n.side r m', chan, log⟩ where
  role_eq := forall_update (P := fun r m => m.role = r) hn.role_eq (hs.role_eq.trans (hn.role_eq r))
  policy_eq := forall_update (P := fun r m => m.policy = policy r) hn.policy_eq
    (hs.policy_eq.trans (hn.policy_eq r))
  zero := by
    refine forall_update (P := fun _ m => m.streams.lookup 0 = none) hn.zero ?_
    by_cases hid : 0 = id
    · rw [hid, hs.lookup_self, h0 hid.symm]
    · rw [hs.lookup_ne 0 hid, hn.zero]
  queued := by
    refine forall_update (P := fun _ m => ∀ f ∈ m.outbound, f.Bounded) hn.queued fun f hf => ?_
    rw [hs.outbound_eq] at hf
    exact (mem_append.1 hf).elim (hn.queued r f) fun h => (hs.out_bounded f h).2
  sent := hc

lemma sane_call (hn : Sane policy n) (c : MuxCall) : Sane policy (n.step (.call r c)) := by
  by_cases hc : c = .pendingOutbound
  · subst hc
    rw [step_drain]
    refine ⟨forall_update (P := fun r m => m.role = r) hn.role_eq (hn.role_eq r),
      forall_update (P := fun r m => m.policy = policy r) hn.policy_eq (hn.policy_eq r),
      forall_update (P := fun _ m => m.streams.lookup 0 = none) hn.zero (hn.zero r),
      forall_update (P := fun _ m => ∀ f ∈ m.outbound, f.Bounded) hn.queued nofun,
      fun r' f hf => ?_⟩
    by_cases hr : r' = r.peer
    · subst hr
      simp only [update_self] at hf
      exact (mem_append.1 hf).elim (hn.sent _ f) fun h =>
        hn.queued r f (mem_deficitRoundRobin h)
    · simp only [update_of_ne hr] at hf
      exact hn.sent r' f hf
  rw [step_call hc]
  rcases (n.side r).call_cases c hc with ⟨hsm, -⟩ | ⟨j, b, out, e, hs, ht, ho, -, -, -⟩
  · obtain ⟨b, hb, hs⟩ := hsm.shift
    exact sane_shift hn hs (fun _ => hb.trans (hn.zero r)) hn.sent _
  refine sane_shift hn hs (fun hj => ?_) hn.sent _
  subst hj
  rw [hn.zero] at ht
  exact absurd rfl (allocate_eq_some (ho ht.of_none).1).2.1

lemma sane_step (ev : NetEvent) (hn : Sane policy n) : Sane policy (n.step ev) := by
  cases ev with
  | call r c => exact sane_call hn c
  | deliver r =>
    rcases hf : n.chan r with _ | ⟨f, rest⟩
    · simpa only [step, hf] using hn
    obtain ⟨b, out, e, hs, -, -, -⟩ := (n.side r).recv_cases f
    have hh : f.Bounded := hn.sent r f (hf ▸ mem_cons_self)
    simp only [step, hf]
    refine sane_shift hn hs (fun h0 => absurd h0 hh.1) (fun r' g hg => ?_) _
    by_cases hr : r' = r
    · subst hr
      rw [update_self] at hg
      exact hn.sent r' g (hf ▸ mem_cons_of_mem _ hg)
    · rw [update_of_ne hr] at hg
      exact hn.sent r' g hg

/-- The id that is about to be allocated has left no trace. -/
def FreshOpen (n : Net) : NetEvent → Prop
  | .call r (.openLocal _) =>
    ∀ id ∈ (n.side r).role.allocate (n.side r).next, (n.view id).NoTrace
  | _ => True

/-- An `accept` that opens its stream has room for the `BeginOk`. -/
def RoomToAccept (n : Net) : NetEvent → Prop
  | .call r (.accept id) => (n.side r).streamState id = some .synReceived →
      (n.side r).outbound.length < (n.side r).policy.maxPendingOutbound
  | _ => True

/-- An overrun finds room for the `Reset`. -/
def RoomToReset (n : Net) : NetEvent → Prop
  | .deliver r => ∀ f ∈ (n.chan r).head?, f.command = .data →
      ∀ s ∈ (n.side r).streams.lookup f.streamId, (s.state = .open ∨ s.state = .halfClosedLocal) →
      s.recvWindow < UInt32.ofNat f.body.length →
      (n.side r).outbound.length < (n.side r).policy.maxPendingOutbound
  | _ => True

instance (n : Net) : DecidablePred n.FreshOpen := fun ev => by
  unfold FreshOpen View.NoTrace
  split
  · exact Option.decidableForallMem _
  · exact isTrue trivial

instance (n : Net) : DecidablePred n.RoomToAccept := fun ev => by
  unfold RoomToAccept
  split <;> infer_instance

instance (n : Net) : DecidablePred n.RoomToReset := fun ev => by
  unfold RoomToReset
  split <;> infer_instance

lemma view_call {mute : Prop} (hn : Sane policy n) (c : MuxCall) (hfr : n.FreshOpen (.call r c))
    (hm : mute ∨ n.RoomToAccept (.call r c)) : (n.step (.call r c)).view id = n.view id ∨
    StreamStep (fun r => (policy r).initialWindow) id mute (n.view id)
      ((n.step (.call r c)).view id) := by
  by_cases hc : c = .pendingOutbound
  · exact .inl (hc ▸ view_drain)
  rw [step_call hc]
  rcases (n.side r).call_cases c hc with ⟨hsm, hef⟩ | ⟨j, b, out, e, hs, ht, hon, -, ho, he⟩
  · left
    obtain ⟨b, hb, hs⟩ := hsm.shift
    have hlg : logged n.log r (c.effect ((n.side r).call c).1) = n.log := by
      rcases hef with hq | ⟨j, hj⟩
      · exact logged_quiet hq
      rw [hj]
      funext r' k
      simp only [logged, Log.after, append_nil]
      split_ifs <;> rfl
    rw [view_shift hs, hlg, hb, append_nil, update_eq_self]
    exact congrArg (View.mk · _ _) (update_eq_self r (n.view id).ent)
  by_cases hj : id = j
  · right
    subst hj
    rw [view_shift hs]
    by_cases hne : e = .opened
    · obtain ⟨ha, ⟨t, rfl⟩, -, -⟩ := hon hne
      subst hne
      obtain ⟨rfl, body, rfl⟩ := ht.of_opened
      have hno := hfr id ha
      rw [hn.role_eq] at ha
      have hen : (n.view id).ent = fun _ => none := funext fun r' => (hno r').1
      have hfl : (n.view id).fly = fun _ => [] := funext fun r' => (hno r').2
      have hef := he.resolve_right fun h => nomatch h.2
      rw [hen, hfl, hef, hn.policy_eq]
      simp only [logged_opened]
      exact StreamStep.opened _ r body (allocate_eq_some ha).2.2 hno
    · rw [logged_of he hne]
      refine StreamStep.call (n.view id) r b out e ?_ hne fun hnl => ?_
      · rw [← hn.policy_eq]
        exact ht
      rcases hm with hm | hr
      · exact hm
      subst hnl
      obtain ⟨rfl, hf⟩ := ho rfl
      obtain ⟨s, hl, hst⟩ := ht.of_nil
      have hlt := hr (by rw [MuxState.streamState, hl, Option.map_some, hst])
      rcases hf with hf | rfl
      · omega
      · rw [hn.zero] at hl
        cases hl
  · left
    rw [view_shift_ne hs hj, logged_of_ne he hj]
    rfl

lemma view_pop (hf : n.chan r = f :: rest) :
    ∃ fly, (n.view id).fly r = (if f.streamId = id then [f] else []) ++ fly ∧
      view { n with chan := update n.chan r rest } id = (n.view id).pop r fly := by
  refine ⟨(rest ++ (n.side r.peer).outbound).filter (·.streamId = id), ?_, ?_⟩
  · simp only [view, inFlight, hf, cons_append, filter_cons]
    split_ifs <;> simp_all
  ext r' : 2
  · rfl
  · rcases r.eq_or_eq_peer r' with rfl | rfl
    · simp [view, inFlight]
    · simp [view, inFlight, update_of_ne r.peer_ne]
  · rfl

lemma recvStep_of_room {ev : Option MuxEvent} {w : UInt32} {owned : Prop} (hn : Sane policy n)
    (hf : n.chan r = f :: rest) (hr : n.RoomToReset (.deliver r))
    (h : RecvStep w owned ((n.side r).Full f) f ((n.side r).streams.lookup f.streamId) b out e ev) :
    RecvStep w owned False f ((n.side r).streams.lookup f.streamId) b out e ev := by
  have hov : f.command = .data → ∀ s, (n.side r).streams.lookup f.streamId = some s →
      (s.state = .open ∨ s.state = .halfClosedLocal) →
      ¬(s.recvWindow < UInt32.ofNat f.body.length ∧ (n.side r).Full f) := by
    rintro hd s hs hst ⟨hw, hfl⟩
    have hlt := hr f (by rw [hf]; rfl) hd s hs hst hw
    have hid : f.streamId ≠ 0 := (hn.sent r f (hf ▸ mem_cons_self)).1
    rcases hfl with hfl | hfl
    · omega
    · exact hid hfl
  generalize (n.side r).streams.lookup f.streamId = a at h hov ⊢
  cases h with
  | ignored _ hi =>
    refine .ignored _ ?_
    rcases b with _ | s
    · unfold Ignored
      split <;> trivial
    by_cases hd : f.command = .data
    · simp only [Ignored, hd] at hi ⊢
      exact .inl fun hst => hi.elim (fun h => h hst) (hov hd s rfl hst)
    · unfold Ignored at hi ⊢
      split at hi <;> simp_all
  | refused _ code hf => exact .refused _ code hf
  | incoming t hf ho => exact .incoming t hf ho
  | established s hf hs => exact .established s hf hs
  | surfaced s hf hs hw => exact .surfaced s hf hs hw
  | overSent s hf hs hw => exact .overSent s hf hs hw
  | credited s hf hl => exact .credited s hf hl
  | ended s hf hs => exact .ended s hf hs
  | endedLast s hf hs => exact .endedLast s hf hs
  | wasReset s hf => exact .wasReset s hf

lemma step_deliver (hf : n.chan r = f :: rest) :
    n.step (.deliver r) = ⟨update n.side r ((n.side r).recv f).2,
      update n.chan r rest, logged n.log r (recvEffect ((n.side r).recv f).1)⟩ := by
  simp [step, hf]

lemma view_deliver_ne (hf : n.chan r = f :: rest) (hid : id ≠ f.streamId) :
    (n.step (.deliver r)).view id = n.view id := by
  obtain ⟨b, out, e, hs, -, -, he⟩ := (n.side r).recv_cases f
  obtain ⟨fly, hfl, hp⟩ := view_pop hf
  rw [step_deliver hf, view_shift_ne (n := { n with chan := update n.chan r rest }) hs hid,
    hp, logged_of_ne he hid]
  rw [if_neg (Ne.symm hid), nil_append] at hfl
  refine View.ext rfl ?_ rfl
  rw [View.pop, ← hfl, update_eq_self]

lemma view_deliver (hn : Sane policy n) (hrm : n.RoomToReset (.deliver r))
    (mute : Prop) : (n.step (.deliver r)).view id = n.view id ∨
    StreamStep (fun r => (policy r).initialWindow) id mute (n.view id)
      ((n.step (.deliver r)).view id) := by
  rcases hf : n.chan r with _ | ⟨f, rest⟩
  · simp [step, hf]
  by_cases hid : id = f.streamId
  · right
    subst hid
    obtain ⟨b, out, e, hs, ht, -, he⟩ := (n.side r).recv_cases f
    obtain ⟨fly, hfl, hp⟩ := view_pop hf
    rw [step_deliver hf, view_shift (n := { n with chan := update n.chan r rest }) hs,
      hp, logged_of he ht.ne_opened]
    rw [if_pos rfl] at hfl
    have hr := recvStep_of_room hn hf hrm ht
    rw [hn.role_eq, hn.policy_eq] at hr
    exact StreamStep.recv (n.view f.streamId) r f fly b out e _ hfl hr
  · exact .inl (view_deliver_ne hf hid)

/-- An event is, for one stream, nothing or a step of its view. -/
theorem step_view (mute : Prop) (hn : Sane policy n) (ev : NetEvent) (hf : n.FreshOpen ev)
    (hm : mute ∨ n.RoomToAccept ev) (hr : n.RoomToReset ev) : (n.step ev).view id = n.view id ∨
    StreamStep (fun r => (policy r).initialWindow) id mute (n.view id) ((n.step ev).view id) := by
  cases ev with
  | call r c => exact view_call hn c hf hm
  | deliver r => exact view_deliver hn hr mute

end Net

end Mirage.Mux
