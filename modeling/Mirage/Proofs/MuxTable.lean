import Mirage.Mux.State

/-!
# What a mux call can do to a stream

Every call and every inbound frame touches one stream, along the table of transitions (`CallStep`,
`RecvStep`).
-/

namespace Mirage.Mux

open Words MuxFrame UInt32

variable {id window : UInt32} {cmd : MuxCmd} {body : Bytes} {f : MuxFrame} {a b : Option Stream}
  {out : List MuxFrame} {e : Effect} {c : MuxCall}

lemma MuxFrame.new_eq_ok : new id cmd body = .ok f ↔ f = ⟨id, cmd, body⟩ ∧ f.Bounded := by
  unfold new MuxFrame.Bounded
  split_ifs with h1 h2
  · simp only [false_iff, not_and]
    rintro rfl h
    exact absurd h1 h
  · simp only [false_iff, not_and]
    rintro rfl -
    simpa using h2
  · simp only [Except.ok.injEq]
    constructor
    · rintro rfl
      exact ⟨rfl, h1, not_lt.1 h2⟩
    · exact fun h => h.1.symm

namespace StreamRole

lemma allocate_eq_some {role : StreamRole} {next : UInt32} (h : role.allocate next = some id) :
    id = next ∧ id ≠ 0 ∧ role.owns id = true := by
  unfold allocate at h
  simp only at h
  split_ifs at h with hok h0
  cases role <;> simp_all [owns]

end StreamRole

/-- The transitions of a call. -/
inductive CallStep (window : UInt32) (id : UInt32) :
    Option Stream → Option Stream → List MuxFrame → Effect → Prop
  | opened (a : Option Stream) (body : Bytes) :
      CallStep window id a (some ⟨.synSent, window, window, none⟩) [⟨id, .begin, body⟩] .opened
  | accepted (s : Stream) (h : s.state = .synReceived) :
      CallStep window id (some s) (some { s with state := .open, pendingTarget := none })
        [⟨id, .beginOk, []⟩] .quiet
  | acceptedMute (s : Stream) (h : s.state = .synReceived) :
      CallStep window id (some s) (some { s with state := .open, pendingTarget := none }) [] .quiet
  | aborted (s : Stream) (code : UInt8) :
      CallStep window id (some s) none [⟨id, .reset, [code]⟩] .quiet
  | sent (s : Stream) (chunk : Bytes) (h : s.state = .open ∨ s.state = .halfClosedRemote)
      (hc : chunk.length ≤ s.sendCredit.toNat) (hb : chunk.length ≤ maxMuxFrameBody) :
      CallStep window id (some s)
        (some { s with sendCredit := satSub s.sendCredit (ofNat chunk.length) })
        [⟨id, .data, chunk⟩] (.consumed chunk)
  | ended (s : Stream) (h : s.state = .open) :
      CallStep window id (some s) (some { s with state := .halfClosedLocal })
        [⟨id, .endLocal, []⟩] .quiet
  | endedLast (s : Stream) (h : s.state = .halfClosedRemote) :
      CallStep window id (some s) none [⟨id, .endLocal, []⟩] .quiet
  | granted (s : Stream) (delta : UInt32) :
      CallStep window id (some s) (some { s with recvWindow := satAdd s.recvWindow delta })
        [⟨id, .windowUpdate, beBytes 4 delta.toNat⟩] (.granted delta.toNat)

lemma CallStep.of_opened (h : CallStep window id a b out .opened) :
    b = some ⟨.synSent, window, window, none⟩ ∧ ∃ body, out = [⟨id, .begin, body⟩] := by
  cases h with
  | opened _ body => exact ⟨rfl, body, rfl⟩

lemma CallStep.of_none (h : CallStep window id none b out e) : e = .opened := by
  cases h
  rfl

lemma CallStep.of_nil (h : CallStep window id a b [] e) :
    ∃ s, a = some s ∧ s.state = .synReceived := by
  cases h with
  | acceptedMute s hs => exact ⟨s, rfl, hs⟩

/-- The frame leaves its stream as it is. -/
def Ignored (f : MuxFrame) (full : Prop) (a : Option Stream) : Prop :=
  match f.command, a with
  | .begin, _ => True
  | _, none => True
  | .beginOk, some s => s.state ≠ .synSent
  | .data, some s => ¬(s.state = .open ∨ s.state = .halfClosedLocal) ∨
      s.recvWindow < ofNat f.body.length ∧ full
  | .windowUpdate, some _ => f.body.length ≠ 4
  | .endLocal, some s => ¬(s.state = .open ∨ s.state = .halfClosedLocal)
  | .reset, some _ => False

/-- The transitions of a frame; `owned` is that the peer may open the stream. -/
inductive RecvStep (window : UInt32) (owned full : Prop) (f : MuxFrame) :
    Option Stream → Option Stream → List MuxFrame → Effect → Option MuxEvent → Prop
  | ignored (a : Option Stream) (h : Ignored f full a) :
      RecvStep window owned full f a a [] .quiet none
  | refused (a : Option Stream) (code : UInt8) (hf : f.command = .begin) :
      RecvStep window owned full f a a [⟨f.streamId, .reset, [code]⟩] .quiet none
  | incoming (t : MuxTarget) (hf : f.command = .begin) (ho : owned) :
      RecvStep window owned full f none (some ⟨.synReceived, window, window, some t⟩) [] .quiet
        (some (.incoming f.streamId t))
  | established (s : Stream) (hf : f.command = .beginOk) (h : s.state = .synSent) :
      RecvStep window owned full f (some s) (some { s with state := .open }) [] .quiet
        (some (.established f.streamId))
  | surfaced (s : Stream) (hf : f.command = .data)
      (h : s.state = .open ∨ s.state = .halfClosedLocal)
      (hw : ofNat f.body.length ≤ s.recvWindow) :
      RecvStep window owned full f (some s)
        (some { s with recvWindow := satSub s.recvWindow (ofNat f.body.length) }) []
        (.surfaced f.body) (some (.data f.streamId f.body))
  | overSent (s : Stream) (hf : f.command = .data)
      (h : s.state = .open ∨ s.state = .halfClosedLocal)
      (hw : s.recvWindow < ofNat f.body.length) :
      RecvStep window owned full f (some s) none [⟨f.streamId, .reset, [0x03]⟩] .quiet none
  | credited (s : Stream) (hf : f.command = .windowUpdate) (hl : f.body.length = 4) :
      RecvStep window owned full f (some s)
        (some { s with sendCredit := satAdd s.sendCredit (ofNat (beNat f.body)) }) []
        (.credited (ofNat (beNat f.body)).toNat)
        (some (.windowUpdate f.streamId (ofNat (beNat f.body))))
  | ended (s : Stream) (hf : f.command = .endLocal) (h : s.state = .open) :
      RecvStep window owned full f (some s) (some { s with state := .halfClosedRemote }) [] .ended
        (some (.peerEndLocal f.streamId))
  | endedLast (s : Stream) (hf : f.command = .endLocal) (h : s.state = .halfClosedLocal) :
      RecvStep window owned full f (some s) none [] .ended (some (.peerEndLocal f.streamId))
  | wasReset (s : Stream) (hf : f.command = .reset) :
      RecvStep window owned full f (some s) none [] .quiet
        (some (.reset f.streamId (f.body.head?.getD 0xff)))

lemma RecvStep.ne_opened {owned full : Prop} {ev : Option MuxEvent}
    (h : RecvStep window owned full f a b out e ev) : e ≠ .opened := by
  cases h <;> nofun

namespace MuxState

variable {m m' : MuxState}

/-- Only stream `id` changes, and `out` is queued. -/
structure Shift (m m' : MuxState) (id : UInt32) (b : Option Stream) (out : List MuxFrame) :
    Prop where
  role_eq : m'.role = m.role
  policy_eq : m'.policy = m.policy
  lookup_self : m'.streams.lookup id = b
  lookup_ne : ∀ j, j ≠ id → m'.streams.lookup j = m.streams.lookup j
  outbound_eq : m'.outbound = m.outbound ++ out
  room : out ≠ [] → m.outbound.length < m.policy.maxPendingOutbound
  out_single : out.length ≤ 1
  out_bounded : ∀ f ∈ out, f.streamId = id ∧ f.Bounded

lemma shift_quiet (hr : m'.role = m.role) (hp : m'.policy = m.policy)
    (ho : m'.outbound = m.outbound) (hs : m'.streams.lookup id = b)
    (hne : ∀ j, j ≠ id → m'.streams.lookup j = m.streams.lookup j) : Shift m m' id b [] :=
  ⟨hr, hp, hs, hne, ho.trans (List.append_nil _).symm, fun h => absurd rfl h,
    Nat.zero_le _, by simp⟩

lemma shift_refl (m : MuxState) (id : UInt32) : Shift m m id (m.streams.lookup id) [] :=
  shift_quiet rfl rfl rfl rfl fun _ _ => rfl

def Same (m m' : MuxState) : Prop := ∃ next, m' = { m with next := next }

lemma Same.shift (h : Same m m') : ∃ b, b = m.streams.lookup id ∧ Shift m m' id b [] := by
  obtain ⟨next, rfl⟩ := h
  exact ⟨_, rfl, shift_quiet rfl rfl rfl rfl fun _ _ => rfl⟩

/-- The count of open streams goes with the map. -/
def Counted (m m' : MuxState) (a b : Option Stream) : Prop :=
  match a, b with
  | none, some _ => m.openCount < m.policy.maxConcurrentStreams ∧ m'.openCount = m.openCount + 1
  | some s, none => s.state ≠ .closed → m'.openCount = satSub m.openCount 1
  | _, _ => m'.openCount = m.openCount

def queued (m : MuxState) (f : MuxFrame) : MuxState := { m with outbound := m.outbound ++ [f] }

/-- A frame is queued if it is within its bounds and there is room. -/
theorem emit_cases (m : MuxState) (id : UInt32) (cmd : MuxCmd) (body : Bytes) :
    (∃ err, m.emit id cmd body = .error err ∧
      (m.policy.maxPendingOutbound ≤ m.outbound.length ∨ ¬MuxFrame.Bounded ⟨id, cmd, body⟩)) ∨
    (m.emit id cmd body = .ok (m.queued ⟨id, cmd, body⟩) ∧
      m.outbound.length < m.policy.maxPendingOutbound ∧ MuxFrame.Bounded ⟨id, cmd, body⟩) := by
  unfold emit
  rcases h : MuxFrame.new id cmd body with e | f
  · refine .inl ⟨_, rfl, .inr fun hb => ?_⟩
    rw [new_eq_ok.2 ⟨rfl, hb⟩] at h
    cases h
  · obtain ⟨rfl, hb⟩ := new_eq_ok.1 h
    simp only [enqueue]
    split_ifs with hr
    · exact .inl ⟨_, rfl, .inl hr⟩
    · exact .inr ⟨rfl, not_le.1 hr, hb⟩

@[simp] lemma queued_policy (f : MuxFrame) : (m.queued f).policy = m.policy := rfl

section Shift

variable {id : UInt32} {s : Stream}

lemma shift_set (m : MuxState) (id : UInt32) (s : Stream) :
    Shift m (m.setStream id s) id (some s) [] :=
  shift_quiet rfl rfl rfl (Finmap.lookup_insert _) fun _ hj => Finmap.lookup_insert_of_ne _ hj

lemma closeStream_of_some (h : m.streams.lookup id = some s) : m.closeStream id =
    { m with
      streams := m.streams.erase id
      openCount := if s.state ≠ .closed then satSub m.openCount 1 else m.openCount } := by
  simp [closeStream, h]

lemma shift_close (h : m.streams.lookup id = some s) : Shift m (m.closeStream id) id none [] := by
  rw [closeStream_of_some h]
  exact shift_quiet rfl rfl rfl (Finmap.lookup_erase _ _) fun _ hj => Finmap.lookup_erase_ne hj

lemma Shift.of_queued (h : Shift (m.queued f) m' id b [])
    (hroom : m.outbound.length < m.policy.maxPendingOutbound) (hid : f.streamId = id)
    (hf : f.Bounded) : Shift m m' id b [f] where
  role_eq := h.role_eq
  policy_eq := h.policy_eq
  lookup_self := h.lookup_self
  lookup_ne := h.lookup_ne
  outbound_eq := by rw [h.outbound_eq, List.append_nil]; rfl
  room _ := hroom
  out_single := le_rfl
  out_bounded g hg := by
    rw [List.mem_singleton.1 hg]
    exact ⟨hid, hf⟩

lemma counted_close (h : m.streams.lookup id = some s) :
    Counted m (m.closeStream id) (some s) none := by
  intro hs
  rw [closeStream_of_some h]
  simp [if_pos hs]

end Shift

/-- The call is a transition of one stream. -/
def CallMoves (m : MuxState) (c : MuxCall) : Prop :=
  ∃ id b out e, Shift m (m.call c).2 id b out ∧
    CallStep m.policy.initialWindow id (m.streams.lookup id) b out e ∧
    (e = .opened → m.role.allocate m.next = some id ∧ (∃ t, c = .openLocal t) ∧
      m.openCount < m.policy.maxConcurrentStreams ∧ (m.call c).2.openCount = m.openCount + 1) ∧
    (e ≠ .opened → Counted m (m.call c).2 (m.streams.lookup id) b) ∧
    (out = [] → c = .accept id ∧ (m.policy.maxPendingOutbound ≤ m.outbound.length ∨ id = 0)) ∧
    (c.effect (m.call c).1 = (id, e) ∨ (c.effect (m.call c).1).2 = .quiet ∧ e = .quiet)

def CallStays (m : MuxState) (c : MuxCall) : Prop :=
  Same m (m.call c).2 ∧
    ((c.effect (m.call c).1).2 = .quiet ∨ ∃ id, c.effect (m.call c).1 = (id, .consumed []))

lemma effect_error (err : MuxStateError) : c.effect (.error err) = (0, .quiet) := by
  cases c <;> rfl

lemma CallStays.of_error {α : Type} {g : α → MuxReply} {r : Except MuxStateError α × MuxState}
    (hr : m.call c = reply g r) (err : MuxStateError) (h : r = (.error err, m)) :
    CallStays m c := by
  rw [h] at hr
  refine ⟨⟨m.next, by rw [hr]; rfl⟩, .inl ?_⟩
  rw [hr]
  exact congrArg Prod.snd (effect_error err)

lemma CallMoves.intro {r : Except MuxStateError MuxReply} (hc : m.call c = (r, m'))
    (ha : m.streams.lookup id = a) (hs : Shift m m' id b out)
    (ht : CallStep m.policy.initialWindow id a b out e) (hne : e ≠ .opened) (hn : Counted m m' a b)
    (ho : out = [] → c = .accept id ∧ (m.policy.maxPendingOutbound ≤ m.outbound.length ∨ id = 0))
    (he : c.effect r = (id, e) ∨ (c.effect r).2 = .quiet ∧ e = .quiet) : CallMoves m c := by
  refine ⟨id, b, out, e, ?_, ha ▸ ht, fun h => absurd h hne, fun _ => ?_, ho, ?_⟩
  · rw [hc]
    exact hs
  · rw [hc, ha]
    exact hn
  · rw [hc]
    exact he

def opened (m : MuxState) (id : UInt32) (body : Bytes) : MuxState :=
  { m with
    streams := m.streams.insert id (m.freshStream .synSent none)
    next := m.next + 2
    outbound := m.outbound ++ [⟨id, .begin, body⟩]
    openCount := m.openCount + 1 }

lemma openLocal_ok {t : MuxTarget} (hlm : m.openCount < m.policy.maxConcurrentStreams)
    (ha : m.role.allocate m.next = some id) (ht : t.encode = .ok body)
    (hb : MuxFrame.Bounded ⟨id, .begin, body⟩)
    (hroom : m.outbound.length < m.policy.maxPendingOutbound) :
    m.openLocal t = (.ok id, m.opened id body) := by
  have hn : MuxFrame.new id .begin body = .ok ⟨id, .begin, body⟩ :=
    MuxFrame.new_eq_ok.2 ⟨rfl, hb⟩
  simp only [openLocal, if_neg (UInt32.not_le.2 hlm), ha, ht, emit, hn, enqueue,
    if_neg (not_le.2 hroom)]
  rfl

lemma shift_opened (hb : MuxFrame.Bounded ⟨id, .begin, body⟩)
    (hroom : m.outbound.length < m.policy.maxPendingOutbound) :
    Shift m (m.opened id body) id (some (m.freshStream .synSent none)) [⟨id, .begin, body⟩] :=
  .of_queued (shift_quiet rfl rfl rfl (Finmap.lookup_insert _)
    fun _ hj => Finmap.lookup_insert_of_ne _ hj) hroom rfl hb

lemma openLocal_spec (m : MuxState) (t : MuxTarget) :
    (∃ err, (m.openLocal t).1 = .error err ∧ Same m (m.openLocal t).2) ∨
    ∃ id body, m.openLocal t = (.ok id, m.opened id body) ∧ m.role.allocate m.next = some id ∧
      m.openCount < m.policy.maxConcurrentStreams ∧ MuxFrame.Bounded ⟨id, .begin, body⟩ ∧
      m.outbound.length < m.policy.maxPendingOutbound := by
  have hey : ∀ err next,
      m.openLocal t = (.error err, { m with next := next }) →
      ∃ err, (m.openLocal t).1 = .error err ∧ Same m (m.openLocal t).2 :=
    fun err next h => ⟨err, by rw [h], next, by rw [h]⟩
  by_cases hlm : m.policy.maxConcurrentStreams ≤ m.openCount
  · exact .inl (hey _ m.next (by rw [openLocal, if_pos hlm]))
  rcases ha : m.role.allocate m.next with _ | id
  · exact .inl (hey _ _ (by simp only [openLocal, if_neg hlm, ha]; rfl))
  rcases ht : t.encode with e | bytes
  · exact .inl (hey _ _ (by simp only [openLocal, if_neg hlm, ha, ht]; rfl))
  rcases emit_cases { m with next := m.next + 2 } id .begin bytes with ⟨err, he, -⟩ | ⟨-, hroom, hb⟩
  · exact .inl (hey _ _ (by simp only [openLocal, if_neg hlm, ha, ht, he]; rfl))
  · have hlt := UInt32.not_le.1 hlm
    exact .inr ⟨id, bytes, openLocal_ok hlt ha ht hb hroom, rfl, hlt, hb, hroom⟩

lemma openLocal_cases (t : MuxTarget) :
    CallStays m (.openLocal t) ∨ CallMoves m (.openLocal t) := by
  rcases m.openLocal_spec t with ⟨err, he, hs⟩ | ⟨id, body, hr, ha, hlt, hb, hroom⟩
  · refine .inl ⟨hs, .inl ?_⟩
    rw [call, reply, he]
    exact congrArg Prod.snd (effect_error err)
  right
  refine ⟨id, _, [⟨id, .begin, body⟩], .opened, ?_, .opened _ body, fun _ => ?_,
    fun h => absurd rfl h, nofun, .inl ?_⟩
  · rw [call, reply, hr]
    exact shift_opened hb hroom
  · rw [call, reply, hr]
    exact ⟨ha, ⟨t, rfl⟩, hlt, rfl⟩
  · rw [call, reply, hr]
    rfl

lemma accept_cases : CallStays m (.accept id) ∨ CallMoves m (.accept id) := by
  have hey := CallStays.of_error (m := m) (c := .accept id) rfl
  rcases hl : m.streams.lookup id with _ | s
  · exact .inl (hey (.unknownStream id) (by simp [accept, hl]))
  by_cases hst : s.state = .synReceived
  · rcases hp : s.pendingTarget with _ | target
    · exact .inl (hey (.internal "SynReceived missing pending_target") (by
        simp [accept, hl, hst, hp]))
    · right
      have hs := shift_set m id { s with state := .open, pendingTarget := none }
      rcases emit_cases (m.setStream id { s with state := .open, pendingTarget := none }) id
        .beginOk [] with ⟨err, he, hf⟩ | ⟨he, hroom, hb⟩
      · have hz : m.policy.maxPendingOutbound ≤ m.outbound.length ∨ id = 0 := by
          refine hf.imp_right fun hb => ?_
          by_contra hid
          exact hb ⟨hid, by simp [muxHeaderLen, maxMuxFrameLen]⟩
        refine .intro (r := .error err) ?_ hl hs (.acceptedMute s hst) nofun rfl
          (fun _ => ⟨rfl, hz⟩) (.inr ⟨rfl, rfl⟩)
        simp only [call, accept, hl, hst, hp, he, ne_eq, not_true_eq_false, if_false]
        rfl
      · refine .intro (r := .ok (.accepted target)) ?_ hl (Shift.of_queued (shift_set
          (m.queued ⟨id, .beginOk, []⟩) id { s with state := .open, pendingTarget := none })
          hroom rfl hb) (.accepted s hst) nofun rfl nofun (.inr ⟨rfl, rfl⟩)
        simp only [call, accept, hl, hst, hp, he, ne_eq, not_true_eq_false, if_false]
        rfl
  · exact .inl (hey (.badState id s.state) (by simp [accept, hl, hst]))

lemma abort_moves {code : UInt8} {s : Stream} (hl : m.streams.lookup id = some s)
    (hroom : m.outbound.length < m.policy.maxPendingOutbound)
    (hb : MuxFrame.Bounded ⟨id, .reset, [code]⟩)
    (hc : m.call c = (.ok .done, (m.queued ⟨id, .reset, [code]⟩).closeStream id))
    (he : c.effect (.ok .done) = (0, .quiet)) : CallMoves m c :=
  .intro hc hl ((shift_close (m := m.queued ⟨id, .reset, [code]⟩) hl).of_queued hroom rfl hb)
    (.aborted s code) nofun (counted_close hl) nofun
    (.inr ⟨by rw [he], rfl⟩)

lemma reject_cases : CallStays m (.reject id) ∨ CallMoves m (.reject id) := by
  have hey := CallStays.of_error (m := m) (c := .reject id) rfl
  rcases hl : m.streams.lookup id with _ | s
  · exact .inl (hey (.unknownStream id) (by simp [reject, hl]))
  by_cases hst : s.state = .synReceived
  · rcases emit_cases m id .reset [0x01] with ⟨err, he, -⟩ | ⟨he, hroom, hb⟩
    · exact .inl (hey err (by simp [reject, hl, hst, he]))
    · refine .inr (abort_moves hl hroom hb ?_ rfl)
      simp only [call, reject, hl, hst, he, ne_eq, not_true_eq_false, if_false]
      rfl
  · exact .inl (hey (.badState id s.state) (by simp [reject, hl, hst]))

lemma reset_cases (code : UInt8) : CallStays m (.reset id code) ∨ CallMoves m (.reset id code) := by
  have hey := CallStays.of_error (m := m) (c := .reset id code) rfl
  rcases hl : m.streams.lookup id with _ | s
  · exact .inl (hey (.unknownStream id) (by simp [reset, hl]))
  rcases emit_cases m id .reset [code] with ⟨err, he, -⟩ | ⟨he, hroom, hb⟩
  · exact .inl (hey err (by simp [reset, hl, he]))
  · refine .inr (abort_moves hl hroom hb ?_ rfl)
    simp only [call, reset, hl, he]
    rfl

lemma length_take_maxChunk (s : Stream) (payload : Bytes) :
    (payload.take (maxChunk s payload)).length = maxChunk s payload := by
  rw [List.length_take]
  exact min_eq_left (min_le_right _ _)

lemma sendData_cases (payload : Bytes) :
    CallStays m (.sendData id payload) ∨ CallMoves m (.sendData id payload) := by
  have hey := CallStays.of_error (m := m) (c := .sendData id payload) rfl
  have hzr : m.sendData id payload = (.ok 0, m) → CallStays m (.sendData id payload) := by
    intro h
    refine ⟨⟨m.next, by rw [call, h]; rfl⟩, .inr ⟨id, ?_⟩⟩
    rw [call, h]
    simp [reply, Except.map, MuxCall.effect]
  rcases hl : m.streams.lookup id with _ | s
  · exact .inl (hey (.unknownStream id) (by simp [sendData, hl]))
  by_cases hst : s.state = .open ∨ s.state = .halfClosedRemote
  · by_cases hz : s.sendCredit = 0
    · exact .inl (hzr (by simp [sendData, hl, hst, hz]))
    by_cases hk : maxChunk s payload = 0
    · exact .inl (hzr (by simp [sendData, hl, hst, hz, hk]))
    rcases emit_cases m id .data (payload.take (maxChunk s payload)) with
      ⟨err, he, -⟩ | ⟨he, hroom, hb⟩
    · exact .inl (hey err (by simp [sendData, hl, hst, hz, hk, he]))
    right
    have hln := length_take_maxChunk s payload
    have hs : CallStep m.policy.initialWindow id (some s) _ _ _ :=
      .sent s (payload.take (maxChunk s payload)) hst
        (hln.le.trans ((min_le_left _ _).trans (min_le_right _ _)))
        (hln.le.trans ((min_le_left _ _).trans (min_le_left _ _)))
    rw [hln] at hs
    refine .intro (r := .ok (.consumed (maxChunk s payload))) ?_ hl
      ((shift_set (m.queued ⟨id, .data, payload.take (maxChunk s payload)⟩) id _).of_queued
        hroom rfl hb) hs nofun rfl nofun (.inl rfl)
    simp only [call, sendData, hl, hst, hz, hk, he, not_true_eq_false, if_false]
    rfl
  · exact .inl (hey (.badState id s.state) (by simp [sendData, hl, hst]))

lemma endLocal_cases : CallStays m (.endLocal id) ∨ CallMoves m (.endLocal id) := by
  have hey := CallStays.of_error (m := m) (c := .endLocal id) rfl
  rcases hl : m.streams.lookup id with _ | s
  · exact .inl (hey (.unknownStream id) (by simp [endLocal, hl]))
  rcases emit_cases m id .endLocal [] with ⟨err, he, -⟩ | ⟨he, hroom, hb⟩
  · refine .inl ?_
    cases hst : s.state
    case «open» => exact hey err (by simp [endLocal, hl, hst, he])
    case halfClosedRemote => exact hey err (by simp [endLocal, hl, hst, he])
    all_goals exact hey (.badState id s.state) (by simp [endLocal, hl, hst])
  cases hst : s.state
  case «open» =>
    refine .inr (.intro (r := .ok .done) ?_ hl ((shift_set (m.queued ⟨id, .endLocal, []⟩) id
      { s with state := .halfClosedLocal }).of_queued hroom rfl hb) (.ended s hst) nofun rfl
      nofun (.inr ⟨rfl, rfl⟩))
    simp only [call, endLocal, hl, hst, he]
    rfl
  case halfClosedRemote =>
    refine .inr (.intro (r := .ok .done) ?_ hl ((shift_close (m := m.queued ⟨id, .endLocal, []⟩)
      hl).of_queued hroom rfl hb) (.endedLast s hst) nofun
      (counted_close hl) nofun (.inr ⟨rfl, rfl⟩))
    simp only [call, endLocal, hl, hst, he]
    rfl
  all_goals exact .inl (hey (.badState id s.state) (by simp [endLocal, hl, hst]))

lemma grantCredit_cases (delta : UInt32) :
    CallStays m (.grantCredit id delta) ∨ CallMoves m (.grantCredit id delta) := by
  have hey := CallStays.of_error (m := m) (c := .grantCredit id delta) rfl
  rcases hl : m.streams.lookup id with _ | s
  · exact .inl (hey (.unknownStream id) (by simp [grantCredit, hl]))
  by_cases hst : s.state = .closed
  · exact .inl (hey (.badState id s.state) (by simp [grantCredit, hl, hst]))
  rcases emit_cases m id .windowUpdate (beBytes 4 delta.toNat) with ⟨err, he, -⟩ | ⟨he, hroom, hb⟩
  · exact .inl (hey err (by simp [grantCredit, hl, hst, he]))
  refine .inr (.intro (r := .ok .done) ?_ hl ((shift_set
    (m.queued ⟨id, .windowUpdate, beBytes 4 delta.toNat⟩) id
    { s with recvWindow := satAdd s.recvWindow delta }).of_queued hroom rfl hb)
    (.granted s delta) nofun rfl nofun (.inl rfl))
  simp only [call, grantCredit, hl, hst, he, if_false]
  rfl

theorem call_cases (m : MuxState) (c : MuxCall) (hc : c ≠ .pendingOutbound) :
    CallStays m c ∨ CallMoves m c := by
  cases c with
  | openLocal t => exact openLocal_cases t
  | accept id => exact accept_cases
  | reject id => exact reject_cases
  | sendData id payload => exact sendData_cases payload
  | endLocal id => exact endLocal_cases
  | reset id code => exact reset_cases code
  | grantCredit id delta => exact grantCredit_cases delta
  | pendingOutbound => exact absurd rfl hc

section Room

variable {id : UInt32} {s : Stream}

lemma bounded_control (hid : id ≠ 0) (hb : body.length ≤ 4) : MuxFrame.Bounded ⟨id, cmd, body⟩ := by
  refine ⟨hid, ?_⟩
  simp only [muxHeaderLen, maxMuxFrameLen]
  omega

lemma emit_ok (hb : MuxFrame.Bounded ⟨id, cmd, body⟩)
    (hroom : m.outbound.length < m.policy.maxPendingOutbound) :
    m.emit id cmd body = .ok (m.queued ⟨id, cmd, body⟩) := by
  rcases m.emit_cases id cmd body with ⟨err, -, hf | hnb⟩ | ⟨he, -⟩
  · exact absurd hf (not_le.2 hroom)
  · exact absurd hb hnb
  · exact he

variable (hl : m.streams.lookup id = some s) (hid : id ≠ 0)
  (hroom : m.outbound.length < m.policy.maxPendingOutbound)

include hl hid hroom

lemma reset_ok (code : UInt8) :
    m.reset id code = (.ok (), (m.queued ⟨id, .reset, [code]⟩).closeStream id) := by
  have hb : MuxFrame.Bounded ⟨id, .reset, [code]⟩ := bounded_control hid (by simp)
  simp [reset, hl, emit_ok hb hroom]

lemma shift_reset (code : UInt8) : Shift m (m.reset id code).2 id none [⟨id, .reset, [code]⟩] := by
  rw [reset_ok hl hid hroom]
  exact (shift_close (m := m.queued _) hl).of_queued hroom rfl (bounded_control hid (by simp))

lemma shift_reject (hs : s.state = .synReceived) :
    (m.reject id).1 = .ok () ∧ Shift m (m.reject id).2 id none [⟨id, .reset, [0x01]⟩] := by
  have hb : MuxFrame.Bounded ⟨id, .reset, [0x01]⟩ := bounded_control hid (by simp)
  simp only [reject, hl, hs, ne_eq, not_true_eq_false, if_false, emit_ok hb hroom]
  exact ⟨trivial, (shift_close (m := m.queued _) hl).of_queued hroom rfl hb⟩

lemma shift_grantCredit (hs : s.state ≠ .closed) (delta : UInt32) :
    Shift m (m.grantCredit id delta).2 id (some { s with recvWindow := satAdd s.recvWindow delta })
      [⟨id, .windowUpdate, beBytes 4 delta.toNat⟩] := by
  have hb : MuxFrame.Bounded ⟨id, .windowUpdate, beBytes 4 delta.toNat⟩ :=
    bounded_control hid (by simp)
  simp only [grantCredit, hl, if_neg hs, emit_ok hb hroom]
  exact (shift_set (m.queued _) id _).of_queued hroom rfl hb

lemma shift_endLocal (hs : s.state = .open ∨ s.state = .halfClosedRemote) :
    (m.endLocal id).1.isOk = true ∧ Shift m (m.endLocal id).2 id
      (if s.state = .open then some { s with state := .halfClosedLocal } else none)
      [⟨id, .endLocal, []⟩] := by
  have hb : MuxFrame.Bounded ⟨id, .endLocal, []⟩ := bounded_control hid (by simp)
  rcases hs with hs | hs <;> simp only [endLocal, hl, hs, emit_ok hb hroom]
  · exact ⟨rfl, (shift_set (m.queued _) id _).of_queued hroom rfl hb⟩
  · exact ⟨rfl, (shift_close (m := m.queued _) hl).of_queued hroom rfl hb⟩

end Room

lemma shift_accept {s : Stream} (hl : m.streams.lookup id = some s) (hs : s.state = .synReceived)
    (ht : s.pendingTarget.isSome) :
    ∃ out, Shift m (m.accept id).2 id (some { s with state := .open, pendingTarget := none })
      out := by
  obtain ⟨target, ht⟩ := Option.isSome_iff_exists.1 ht
  simp only [accept, hl, hs, ht, ne_eq, not_true_eq_false, if_false]
  have hst := shift_set m id { s with state := .open, pendingTarget := none }
  rcases emit_cases (m.setStream id { s with state := .open, pendingTarget := none }) id .beginOk []
    with ⟨err, he, -⟩ | ⟨he, hroom, hb⟩
  · rw [he]
    exact ⟨[], hst⟩
  · rw [he]
    exact ⟨_, (shift_set (m.queued ⟨id, .beginOk, []⟩) id _).of_queued hroom rfl hb⟩

def Full (m : MuxState) (f : MuxFrame) : Prop :=
  m.policy.maxPendingOutbound ≤ m.outbound.length ∨ f.streamId = 0

/-- The frame is a transition of its stream. -/
def RecvMoves (m : MuxState) (f : MuxFrame) : Prop :=
  ∃ b out e, Shift m (m.recv f).2 f.streamId b out ∧
    RecvStep m.policy.initialWindow (m.role.peer.owns f.streamId = true) (m.Full f) f
      (m.streams.lookup f.streamId) b out e (m.recv f).1.toOption ∧
    Counted m (m.recv f).2 (m.streams.lookup f.streamId) b ∧
    (recvEffect (m.recv f).1 = (f.streamId, e) ∨ (recvEffect (m.recv f).1).2 = .quiet ∧ e = .quiet)

lemma RecvMoves.intro {r : Except MuxStateError MuxEvent} (hc : m.recv f = (r, m'))
    (ha : m.streams.lookup f.streamId = a) (hs : Shift m m' f.streamId b out)
    (ht : RecvStep m.policy.initialWindow (m.role.peer.owns f.streamId = true) (m.Full f) f a b
      out e r.toOption) (hn : Counted m m' a b)
    (he : recvEffect r = (f.streamId, e) ∨ (recvEffect r).2 = .quiet ∧ e = .quiet) :
    RecvMoves m f := by
  refine ⟨b, out, e, ?_, ?_, ?_, ?_⟩
  · rw [hc]
    exact hs
  · rw [hc, ha]
    exact ht
  · rw [hc, ha]
    exact hn
  · rw [hc]
    exact he

lemma counted_same (hc : m'.openCount = m.openCount) : Counted m m' a a := by
  cases a <;> exact hc

lemma recv_ignored (err : MuxStateError) (h : m.recv f = (.error err, m))
    (hi : Ignored f (m.Full f) (m.streams.lookup f.streamId)) : RecvMoves m f :=
  .intro h rfl (shift_refl m _) (.ignored _ hi) (counted_same rfl) (.inr ⟨rfl, rfl⟩)

lemma recv_begin (hf : f.command = .begin) : RecvMoves m f := by
  have hi : Ignored f (m.Full f) (m.streams.lookup f.streamId) := by simp [Ignored, hf]
  have hr : ∀ code err,
      MuxFrame.Bounded ⟨f.streamId, .reset, [code]⟩ →
      m.outbound.length < m.policy.maxPendingOutbound →
      m.recv f = (.error err, m.queued ⟨f.streamId, .reset, [code]⟩) → RecvMoves m f :=
    fun code err hb hroom h => .intro h rfl ((shift_refl _ _).of_queued hroom rfl hb)
      (.refused _ code hf) (counted_same rfl) (.inr ⟨rfl, rfl⟩)
  by_cases ho : m.role.peer.owns f.streamId = true
  · rcases hd : MuxTarget.decode f.body with e | target
    · exact recv_ignored (.target e) (by simp [recv, hf, recvBegin, ho, hd]) hi
    rcases hl : m.streams.lookup f.streamId with _ | s
    · by_cases hlm : m.policy.maxConcurrentStreams ≤ m.openCount
      · rcases emit_cases m f.streamId .reset [0x02] with ⟨err, he, -⟩ | ⟨he, hroom, hb⟩
        · exact recv_ignored err (by simp [recv, hf, recvBegin, ho, hd, hl, hlm, he]) hi
        · exact hr 0x02 (.streamLimit m.policy.maxConcurrentStreams) hb hroom (by
            simp [recv, hf, recvBegin, ho, hd, hl, hlm, he, queued_policy])
      · have hst := shift_set m f.streamId (m.freshStream .synReceived (some target))
        have hs : Shift m { m.setStream f.streamId (m.freshStream .synReceived (some target))
            with openCount := m.openCount + 1 } f.streamId _ [] := { hst with }
        refine .intro (r := .ok (.incoming f.streamId target)) ?_ hl hs
          (.incoming target hf ho) ⟨UInt32.not_le.1 hlm, rfl⟩ (.inr ⟨rfl, rfl⟩)
        simp [recv, hf, recvBegin, ho, hd, hl, hlm]
    · exact recv_ignored (.badState f.streamId s.state) (by
        simp only [recv, hf, recvBegin, ho, hd, hl, not_true_eq_false, if_false]) (hl ▸ hi)
  · rcases emit_cases m f.streamId .reset [0x03] with ⟨err, he, -⟩ | ⟨he, hroom, hb⟩
    · exact recv_ignored err (by simp only [recv, hf, recvBegin, if_pos ho, he]) hi
    · exact hr 0x03 (.foreignStreamId f.streamId) hb hroom (by
        simp only [recv, hf, recvBegin, if_pos ho, he])

lemma recv_unknown (hl : m.streams.lookup f.streamId = none)
    (hr : m.recv f = (.error (.unknownStream f.streamId), m)) : RecvMoves m f := by
  refine recv_ignored _ hr ?_
  unfold Ignored
  rw [hl]
  cases f.command <;> trivial

lemma recv_beginOk (hf : f.command = .beginOk) : RecvMoves m f := by
  rcases hl : m.streams.lookup f.streamId with _ | s
  · exact recv_unknown hl (by simp [recv, hf, recvBeginOk, hl])
  by_cases hst : s.state = .synSent
  · refine .intro (r := .ok (.established f.streamId)) ?_ hl
      (shift_set m f.streamId { s with state := .open }) (.established s hf hst) rfl
      (.inr ⟨rfl, rfl⟩)
    simp [recv, hf, recvBeginOk, hl, hst]
  · refine recv_ignored (.badState f.streamId s.state) ?_ ?_
    · simp [recv, hf, recvBeginOk, hl, hst]
    · simp [Ignored, hf, hl, hst]

lemma recv_data (hf : f.command = .data) : RecvMoves m f := by
  rcases hl : m.streams.lookup f.streamId with _ | s
  · exact recv_unknown hl (by simp [recv, hf, recvData, hl])
  by_cases hst : s.state = .open ∨ s.state = .halfClosedLocal
  · by_cases hw : s.recvWindow < UInt32.ofNat f.body.length
    · rcases emit_cases m f.streamId .reset [0x03] with ⟨err, he, hfl⟩ | ⟨he, hroom, hb⟩
      · refine recv_ignored err ?_ ?_
        · simp [recv, hf, recvData, hl, hst, hw, he]
        · simp only [Ignored, hf, hl]
          refine .inr ⟨hw, hfl.imp_right fun hb => ?_⟩
          by_contra hid
          exact hb ⟨hid, by simp [muxHeaderLen, maxMuxFrameLen]⟩
      · refine .intro (r := .error (.badState f.streamId .closed)) ?_ hl
          ((shift_close (m := m.queued ⟨f.streamId, .reset, [0x03]⟩) hl).of_queued hroom rfl hb)
          (.overSent s hf hst hw) (counted_close hl) (.inr ⟨rfl, rfl⟩)
        simp [recv, hf, recvData, hl, hst, hw, he]
    · refine .intro (r := .ok (.data f.streamId f.body)) ?_ hl (shift_set m f.streamId _)
        (.surfaced s hf hst (UInt32.not_lt.1 hw)) rfl (.inl rfl)
      simp [recv, hf, recvData, hl, hst, hw]
  · refine recv_ignored (.badState f.streamId s.state) ?_ ?_
    · simp [recv, hf, recvData, hl, hst]
    · simp [Ignored, hf, hl, hst]

lemma recv_windowUpdate (hf : f.command = .windowUpdate) : RecvMoves m f := by
  by_cases hb : f.body.length = 4
  · rcases hl : m.streams.lookup f.streamId with _ | s
    · exact recv_unknown hl (by simp [recv, hf, recvWindowUpdate, hb, hl])
    · refine .intro (r := .ok (.windowUpdate f.streamId (ofNat (beNat f.body)))) ?_ hl
        (shift_set m f.streamId _) (.credited s hf hb) rfl (.inl rfl)
      simp [recv, hf, recvWindowUpdate, hb, hl]
  · refine recv_ignored (.frame .bodyLength) ?_ ?_
    · simp [recv, hf, recvWindowUpdate, hb]
    · unfold Ignored
      rw [hf]
      rcases m.streams.lookup f.streamId with _ | s
      · trivial
      · exact hb

lemma recv_endLocal (hf : f.command = .endLocal) : RecvMoves m f := by
  rcases hl : m.streams.lookup f.streamId with _ | s
  · exact recv_unknown hl (by simp [recv, hf, recvEndLocal, hl])
  cases hst : s.state
  case «open» =>
    refine .intro (r := .ok (.peerEndLocal f.streamId)) ?_ hl
      (shift_set m f.streamId { s with state := .halfClosedRemote }) (.ended s hf hst) rfl
      (.inl rfl)
    simp [recv, hf, recvEndLocal, hl, hst]
  case halfClosedLocal =>
    refine .intro (r := .ok (.peerEndLocal f.streamId)) ?_ hl (shift_close hl)
      (.endedLast s hf hst) (counted_close hl) (.inl rfl)
    simp [recv, hf, recvEndLocal, hl, hst]
  all_goals
    refine recv_ignored (.badState f.streamId s.state) ?_ ?_
    · simp [recv, hf, recvEndLocal, hl, hst]
    · simp [Ignored, hf, hl, hst]

lemma recv_reset (hf : f.command = .reset) : RecvMoves m f := by
  rcases hl : m.streams.lookup f.streamId with _ | s
  · exact recv_unknown hl (by simp [recv, hf, recvReset, hl])
  · refine .intro (r := .ok (.reset f.streamId (f.body.head?.getD 0xff))) ?_ hl (shift_close hl)
      (.wasReset s hf) (counted_close hl) (.inr ⟨rfl, rfl⟩)
    simp [recv, hf, recvReset, hl]

/-- Every frame is a transition of its stream, and of no other. -/
theorem recv_cases (m : MuxState) (f : MuxFrame) : RecvMoves m f := by
  rcases hf : f.command
  · exact recv_begin hf
  · exact recv_beginOk hf
  · exact recv_data hf
  · exact recv_windowUpdate hf
  · exact recv_endLocal hf
  · exact recv_reset hf

end MuxState

def localhost : Vector UInt8 4 := #v[127, 0, 0, 1]

end Mirage.Mux
