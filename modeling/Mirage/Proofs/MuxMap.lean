import Mirage.Proofs.MuxTable

/-!
# The stream map over whole runs

The map, its count and the outbound queue stay consistent as long as the id `open_local` is about to
allocate is not in use (`mapInv_of_fresh`).
-/

namespace Mirage.Mux

open Words Runs Finmap UInt32

variable {role : StreamRole} {s : Stream} {a b : Option Stream} {out : List MuxFrame}

namespace MuxState

variable {m m' : MuxState} {id : UInt32}

/-- An entry of the map, in a state its role can have. -/
structure EntryOk (role : StreamRole) (id : UInt32) (s : Stream) : Prop where
  not_closed : s.state ≠ .closed
  pending_iff : s.state = .synReceived ↔ s.pendingTarget.isSome
  peer_owns : s.state = .synReceived → role.peer.owns id = true
  owns : s.state = .synSent → role.owns id = true

lemma EntryOk.of_settled (hc : s.state ≠ .closed) (hr : s.state ≠ .synReceived)
    (hs : s.state ≠ .synSent) (ht : s.pendingTarget = none) : EntryOk role id s :=
  ⟨hc, by simp [hr, ht], fun h => absurd h hr, fun h => absurd h hs⟩

lemma EntryOk.target_none (h : EntryOk role id s) (hr : s.state ≠ .synReceived) :
    s.pendingTarget = none := by
  have := h.pending_iff.not.1 hr
  simpa using this

variable {w : UInt32} {s' : Stream} {e : Effect}

lemma entryOk_call
    (h : ∀ s, a = some s → EntryOk role id s) (ho : e = .opened → role.owns id = true)
    (ht : CallStep w id a (some s') out e) : EntryOk role id s' := by
  cases ht with
  | opened body => exact ⟨nofun, by simp, nofun, fun _ => ho rfl⟩
  | accepted s hs | acceptedMute s hs => exact .of_settled nofun nofun nofun rfl
  | sent s chunk hs _ _ | granted s delta => exact { h s rfl with }
  | ended s hs =>
    exact .of_settled nofun nofun nofun ((h s rfl).target_none (by rw [hs]; nofun))

lemma entryOk_recv {full : Prop} {f : MuxFrame}
    {ev : Option MuxEvent} (h : ∀ s, a = some s → EntryOk role f.streamId s)
    (ht : RecvStep w (role.peer.owns f.streamId = true) full f a (some s') out e ev) :
    EntryOk role f.streamId s' := by
  cases ht with
  | ignored a hi | refused a code hf => exact h s' rfl
  | incoming t hf ho => exact ⟨nofun, by simp, fun _ => ho, nofun⟩
  | established s hf hs | ended s hf hs =>
    exact .of_settled nofun nofun nofun ((h s rfl).target_none (by rw [hs]; nofun))
  | surfaced s hf hs hw | credited s hf hl => exact { h s rfl with }

lemma mem_keys_iff (j : UInt32) : j ∈ m.streams.keys ↔ (m.streams.lookup j).isSome := by
  rw [mem_keys, lookup_isSome]

lemma Shift.card (h : Shift m m' id b out) :
    m'.streams.keys.card + (if (m.streams.lookup id).isSome then 1 else 0)
      = m.streams.keys.card + if b.isSome then 1 else 0 := by
  have ho : m'.streams.keys.erase id = m.streams.keys.erase id := by
    ext j
    simp only [Finset.mem_erase]
    refine and_congr_right fun hj => ?_
    rw [mem_keys_iff, mem_keys_iff, h.lookup_ne j hj]
  have hc : ∀ M : MuxState, (M.streams.keys.erase id).card
      + (if (M.streams.lookup id).isSome then 1 else 0) = M.streams.keys.card := by
    intro M
    by_cases hin : id ∈ M.streams.keys
    · rw [if_pos (mem_keys_iff id |>.1 hin)]
      exact Finset.card_erase_add_one hin
    · rw [if_neg (fun hs => hin (mem_keys_iff id |>.2 hs)), Finset.erase_eq_of_notMem hin,
        Nat.add_zero]
  have h1 := hc m
  have h2 := hc m'
  rw [ho, h.lookup_self] at h2
  omega

lemma Counted.count_eq (hc : Counted m m' a b) (h : Shift m m' id b out)
    (ha : m.streams.lookup id = a) (hcl : ∀ s, a = some s → s.state ≠ .closed)
    (hn : m.openCount.toNat = m.streams.keys.card)
    (hle : m.openCount ≤ m.policy.maxConcurrentStreams) :
    m'.openCount.toNat = m'.streams.keys.card ∧ m'.openCount ≤ m'.policy.maxConcurrentStreams := by
  have hcr := h.card
  rw [ha] at hcr
  rw [h.policy_eq]
  rw [le_iff_toNat_le] at hle ⊢
  rcases a with _ | s <;> rcases b with _ | s' <;> simp only [Counted] at hc <;>
    simp only [Option.isSome_none, Option.isSome_some, if_true, Bool.false_eq_true, if_false] at hcr
  · rw [hc]
    exact ⟨by omega, hle⟩
  · obtain ⟨hlt, hc⟩ := hc
    rw [lt_iff_toNat_lt] at hlt
    have hm := m.policy.maxConcurrentStreams.toNat_lt
    have hs : (m.openCount + 1).toNat = m.openCount.toNat + 1 := by
      rw [UInt32.toNat_add]
      exact Nat.mod_eq_of_lt (by simp only [toNat_ofNat]; omega)
    rw [hc, hs]
    exact ⟨by omega, by omega⟩
  · rw [hc (hcl s rfl), toNat_satSub]
    have h1 : (1 : UInt32).toNat = 1 := rfl
    exact ⟨by omega, by omega⟩
  · rw [hc]
    exact ⟨by omega, hle⟩

/-- Everything the map, its count and the queue are meant to satisfy. -/
structure MapInv (m : MuxState) : Prop where
  count_eq : m.openCount.toNat = m.streams.keys.card
  count_le : m.openCount ≤ m.policy.maxConcurrentStreams
  entries : ∀ id s, m.streams.lookup id = some s → EntryOk m.role id s
  outbound_le : m.outbound.length ≤ m.policy.maxPendingOutbound
  bounded : ∀ f ∈ m.outbound, f.Bounded

/-- The id that is about to be allocated is not in use. -/
def Fresh (m : MuxState) : MuxInput → Prop
  | .call (.openLocal _) => ∀ id, m.role.allocate m.next = some id → m.streams.lookup id = none
  | _ => True

instance (m : MuxState) : DecidablePred m.Fresh := fun _ => by
  unfold Fresh
  split
  · exact Option.decidableForallMem _
  · exact isTrue trivial

lemma mapInv_new (role : StreamRole) (policy : MuxPolicy) : MapInv (new role policy) where
  count_eq := rfl
  count_le := by
    exact Nat.zero_le _
  entries id s h := by
    cases h
  outbound_le := Nat.zero_le _
  bounded := by simp [new]

lemma mapInv_same (h : MapInv m) (hs : Same m m') : MapInv m' := by
  obtain ⟨next, rfl⟩ := hs
  exact { h with }

lemma mapInv_shift (h : MapInv m) (hs : Shift m m' id b out) (ha : m.streams.lookup id = a)
    (hc : Counted m m' a b) (hb : ∀ s, b = some s → EntryOk m.role id s) : MapInv m' := by
  have hcl : ∀ s, a = some s → s.state ≠ .closed := fun s hs' =>
    (h.entries id s (ha.trans hs')).not_closed
  obtain ⟨hcn, hle⟩ := hc.count_eq hs ha hcl h.count_eq h.count_le
  refine ⟨hcn, hle, fun j s hj => ?_, ?_, fun f hf => ?_⟩
  · rw [hs.role_eq]
    by_cases hji : j = id
    · subst hji
      rw [hs.lookup_self] at hj
      exact hb s hj
    · rw [hs.lookup_ne j hji] at hj
      exact h.entries j s hj
  · rw [hs.outbound_eq, hs.policy_eq, List.length_append]
    rcases out with _ | ⟨f, out⟩
    · exact h.outbound_le
    · have hr := hs.room (List.cons_ne_nil _ _)
      have ho := hs.out_single
      omega
  · rw [hs.outbound_eq] at hf
    rcases List.mem_append.1 hf with hf | hf
    · exact h.bounded f hf
    · exact (hs.out_bounded f hf).2

lemma mapInv_call (h : MapInv m) (c : MuxCall) (hf : m.Fresh (.call c)) : MapInv (m.call c).2 := by
  by_cases hc : c = .pendingOutbound
  · subst hc
    exact { h with outbound_le := Nat.zero_le _, bounded := by simp [call, pendingOutbound] }
  rcases m.call_cases c hc with ⟨hsm, -⟩ | ⟨id, b, out, e, hs, ht, ho, hcn, -, -⟩
  · exact mapInv_same h hsm
  refine mapInv_shift h hs rfl ?_ fun s hb => entryOk_call (h.entries id)
    (fun he => (StreamRole.allocate_eq_some (ho he).1).2.2) (hb ▸ ht)
  by_cases he : e = .opened
  · obtain ⟨ha, ⟨t, rfl⟩, hlt, hsc⟩ := ho he
    have hn : m.streams.lookup id = none := hf id ha
    subst he
    rw [hn, ht.of_opened.1]
    exact ⟨hlt, hsc⟩
  · exact hcn he

lemma mapInv_recv (h : MapInv m) (f : MuxFrame) : MapInv (m.recv f).2 := by
  obtain ⟨b, out, e, hs, ht, hc, -⟩ := m.recv_cases f
  exact mapInv_shift h hs rfl hc fun s hb => entryOk_recv (h.entries f.streamId) (hb ▸ ht)

lemma mapInv_input (m : MuxState) (i : MuxInput) (h : MapInv m) (hf : m.Fresh i) :
    MapInv (m.input i).2 := by
  cases i with
  | call c => exact mapInv_call h c hf
  | frame f => exact mapInv_recv h f

/-- As long as no id in use is allocated again, the map and its count stay consistent. -/
theorem mapInv_of_fresh (role : StreamRole) (policy : MuxPolicy) (is : List MuxInput)
    (hf : Along (fun m i => (input m i).2) Fresh (new role policy) is) :
    MapInv (run (fun m i => (input m i).2) (new role policy) is) :=
  Runs.inv_run mapInv_input _ is (mapInv_new role policy) hf

theorem mapInv_of_fresh_incoming :
    let is : List MuxInput := [.call (.openLocal (.ipv4 #v[127, 0, 0, 1] 80)),
      .frame ⟨2, .begin, [1, 127, 0, 0, 1, 0, 80]⟩, .call (.accept 2),
      .call (.sendData 2 [1, 2, 3]), .frame ⟨9, .data, [4]⟩, .call .pendingOutbound]
    Along (fun m i => (input m i).2) Fresh (new .responder .default) is ∧
    MapInv (run (fun m i => (input m i).2) (new .responder .default) is) :=
  ⟨by decide +kernel, mapInv_of_fresh _ _ _ (by decide +kernel)⟩

section Failing

variable {err : MuxStateError}

/-- The input queues its frame before it changes anything. -/
def QueuesFirst : MuxInput → Prop
  | .call (.openLocal _) | .call (.accept _) => False
  | _ => True

/-- The errors after which a caller drains the queue, or mends the target, and tries again. -/
def Retryable (i : MuxInput) (err : MuxStateError) : Prop :=
  (∃ cap, err = .outboundQueueFull cap) ∨
    (∃ t, i = .call (.openLocal t)) ∧ ((∃ e, err = .target e) ∨ ∃ e, err = .frame e)

lemma call_error {c : MuxCall} (hq : QueuesFirst (.call c)) (h : (m.call c).1 = .error err) :
    (m.call c).2 = m := by
  revert h
  cases c
  case openLocal => exact hq.elim
  case accept => exact hq.elim
  all_goals
    simp only [call, reply, MuxState.reject, MuxState.sendData, MuxState.endLocal, MuxState.reset,
      MuxState.grantCredit]
    repeat' split
    all_goals simp [Except.map]

variable {cap : ℕ} {α : Type}

lemma recv_error {f : MuxFrame} (h : (m.recv f).1 = .error (.outboundQueueFull cap)) :
    (m.recv f).2 = m := by
  revert h
  unfold recv
  all_goals
    simp only [recvBegin, recvBeginOk, recvData, recvWindowUpdate, recvEndLocal, recvReset]
    repeat' split
    all_goals simp

lemma openLocal_error {t : MuxTarget} (h : (m.openLocal t).1 = .error err)
    (hr : Retryable (.call (.openLocal t)) err) : (m.openLocal t).2.next = m.next + 2 := by
  have hl : ∀ cap, err ≠ .streamLimit cap := by
    rintro cap rfl
    simp [Retryable] at hr
  revert h
  unfold openLocal
  split_ifs with hlm
  · intro h
    exact absurd (Except.error.inj h).symm (hl _)
  · simp only
    repeat' split
    all_goals simp [setStream]

lemma accept_error (h : (m.accept id).1 = .error (.outboundQueueFull cap)) :
    m.streamState id = some .synReceived ∧ (m.accept id).2.streamState id = some .open := by
  revert h
  unfold accept
  rcases hl : m.streams.lookup id with _ | s
  · simp
  simp only
  split_ifs with hs
  · simp
  · repeat' split
    all_goals simp_all [streamState, setStream]

lemma failure_eq_some {r : Except MuxStateError α} : failure r = some err ↔ r = .error err := by
  cases r <;> simp [failure]

lemma map_eq_error {f : α → MuxReply} {r : Except MuxStateError α} :
    r.map f = .error err ↔ r = .error err := by
  cases r <;> simp [Except.map]

/-- A failed input changes nothing exactly when it queues its frame before all else. -/
theorem unchanged_iff (m : MuxState) (i : MuxInput) (err : MuxStateError)
    (h : (m.input i).1 = some err) (hr : Retryable i err) : (m.input i).2 = m ↔ QueuesFirst i := by
  have hf : (∀ t, i ≠ .call (.openLocal t)) → ∃ cap, err = .outboundQueueFull cap := fun hi =>
    hr.elim id fun ⟨⟨t, ht⟩, _⟩ => absurd ht (hi t)
  by_cases hq : QueuesFirst i
  · refine iff_of_true ?_ hq
    rcases i with c | f
    · exact call_error hq (failure_eq_some.1 h)
    · obtain ⟨cap, rfl⟩ := hf nofun
      exact recv_error (failure_eq_some.1 h)
  refine iff_of_false (fun hs => ?_) hq
  rcases i with (t | id | _ | _ | _ | _ | _ | _) | _ <;>
    simp only [QueuesFirst, not_true_eq_false] at hq
  · have hn := openLocal_error (map_eq_error.1 (failure_eq_some.1 h)) hr
    replace hs : (m.openLocal t).2 = m := hs
    rw [hs, eq_comm, add_eq_left] at hn
    cases hn
  · obtain ⟨cap, rfl⟩ := hf nofun
    obtain ⟨hb, ha⟩ := accept_error (map_eq_error.1 (failure_eq_some.1 h))
    replace hs : (m.accept id).2 = m := hs
    rw [hs, hb] at ha
    cases ha

theorem unchanged_iff_sendData :
    let m := run (fun m i => (input m i).2)
      (new .responder { MuxPolicy.default with maxPendingOutbound := 1 })
      [.frame ⟨2, .begin, [1, 127, 0, 0, 1, 0, 80]⟩, .call (.accept 2)]
    (m.input (.call (.sendData 2 [7]))).1 = some (.outboundQueueFull 1) ∧
    ((m.input (.call (.sendData 2 [7]))).2 = m ↔ QueuesFirst (.call (.sendData 2 [7]))) :=
  ⟨by decide +kernel, unchanged_iff _ _ (.outboundQueueFull 1) (by decide +kernel) (.inl ⟨1, rfl⟩)⟩

/-- With the queue full `accept` fails and has opened the stream, and `open_local` fails and has
used up an id. -/
theorem full_queue_not_atomic :
    let m := run (fun m i => (input m i).2)
      (new .responder { MuxPolicy.default with maxPendingOutbound := 1 })
      [.call (.openLocal (.ipv4 #v[127, 0, 0, 1] 80)), .frame ⟨2, .begin, [1, 127, 0, 0, 1, 0, 80]⟩]
    let accepted := (m.input (.call (.accept 2))).2
    let opened := (m.input (.call (.openLocal (.ipv4 #v[127, 0, 0, 1] 80)))).2
    (m.input (.call (.accept 2))).1 = some (.outboundQueueFull 1) ∧
    m.streamState 2 = some .synReceived ∧ accepted.streamState 2 = some .open ∧
    (accepted.pendingOutbound.2.input (.call (.accept 2))).1 = some (.badState 2 .open) ∧
    (m.input (.call (.openLocal (.ipv4 #v[127, 0, 0, 1] 80)))).1 = some (.outboundQueueFull 1) ∧
    m.next = 3 ∧ opened.next = 5 := by
  decide +kernel

end Failing

section Wrap

variable {t : MuxTarget} {bytes : Bytes}

def openReset (t : MuxTarget) (id : UInt32) : List MuxInput :=
  [.call (.openLocal t), .call (.reset id 0), .call .pendingOutbound]

lemma erase_insert_of_lookup_none {S : Finmap fun _ : UInt32 => Stream} (h : S.lookup id = none) :
    (S.insert id s).erase id = S := by
  refine ext_lookup fun j => ?_
  by_cases hj : j = id
  · rw [hj, lookup_erase, h]
  · rw [lookup_erase_ne hj, lookup_insert_of_ne _ hj]

lemma run_openReset (hlm : m.openCount < m.policy.maxConcurrentStreams)
    (ha : m.role.allocate m.next = some id) (ht : t.encode = .ok bytes)
    (hb : MuxFrame.Bounded ⟨id, .begin, bytes⟩) (hn : m.streams.lookup id = none)
    (ho : m.outbound = []) (hcp : 2 ≤ m.policy.maxPendingOutbound) :
    run (fun m i => (input m i).2) m (openReset t id) = { m with next := m.next + 2 } := by
  have hon := openLocal_ok hlm ha ht hb (by
    rw [ho]
    exact Nat.lt_of_lt_of_le Nat.two_pos hcp)
  have hl : (m.opened id bytes).streams.lookup id = some (m.freshStream .synSent none) :=
    lookup_insert _
  have hid := (StreamRole.allocate_eq_some ha).2.1
  have hrm : (m.opened id bytes).outbound.length < m.policy.maxPendingOutbound := by
    simp only [opened, ho, List.nil_append, List.length_singleton]
    omega
  have hr := reset_ok hl hid hrm 0
  have hc : satSub (m.openCount + 1) 1 = m.openCount := by
    rw [lt_iff_toNat_lt] at hlm
    have hm := m.policy.maxConcurrentStreams.toNat_lt
    refine UInt32.toNat_inj.1 ?_
    rw [toNat_satSub, UInt32.toNat_add, Nat.mod_eq_of_lt] <;> simp only [UInt32.toNat_ofNat] <;>
      omega
  have hs : (m.freshStream .synSent none).state ≠ .closed := nofun
  have hcl := closeStream_of_some (m := (m.opened id bytes).queued ⟨id, .reset, [0]⟩) hl
  simp only [openReset, run_cons, run_nil, input, call, reply, hon, hr, hcl]
  simp only [pendingOutbound, queued, opened, if_pos hs, hc, erase_insert_of_lookup_none hn, ho]

def holdingOne (next : UInt32) : MuxState :=
  { new .responder .default with
    streams := (∅ : Finmap fun _ : UInt32 => Stream).insert 1 ⟨.synSent, 65536, 65536, none⟩
    next := next
    openCount := 1 }

lemma run_openResets (k : ℕ) (hk : k < 2 ^ 31) : run (fun m i => (input m i).2) (holdingOne 3)
      ((List.range k).flatMap fun i => openReset (.ipv4 localhost 80)
        (ofNat (3 + 2 * i))) = holdingOne (ofNat (3 + 2 * k)) := by
  induction k with
  | zero => rfl
  | succ k ih =>
    have hnt : (ofNat (3 + 2 * k)).toNat = 3 + 2 * k :=
      toNat_ofNat_of_lt' (by simp only [size]; omega)
    have ho : ofNat (3 + 2 * k) % 2 = 1 := by
      refine UInt32.toNat_inj.1 ?_
      rw [UInt32.toNat_mod, hnt]
      exact (by omega : (3 + 2 * k) % 2 = 1)
    have hne : ∀ c, c.toNat < 3 → ofNat (3 + 2 * k) ≠ c := by
      rintro c hc rfl
      omega
    have hn : ofNat (3 + 2 * k) + 2 = ofNat (3 + 2 * (k + 1)) := by
      rw [show (2 : UInt32) = ofNat 2 from rfl, ← ofNat_add]
      rfl
    rw [List.range_succ, List.flatMap_append, run_append, ih (by omega), List.flatMap_singleton]
    refine (run_openReset (m := holdingOne (ofNat (3 + 2 * k)))
      (show (1 : UInt32) < 256 by decide) ?_ rfl ?_ ?_ rfl (show 2 ≤ 1024 by decide)).trans ?_
    · simp only [StreamRole.allocate, holdingOne, new, ho, hne 0 (by decide), decide_true,
        if_true, if_false]
    · exact ⟨hne 0 (by decide), show muxHeaderLen + 7 ≤ maxMuxFrameLen by decide⟩
    · exact (lookup_insert_of_ne _ (hne 1 (by decide))).trans (lookup_empty _)
    · rw [← hn]
      rfl

/-- A responder whose counter has wrapped opens stream `1` while it holds the first. -/
def wrapRun : List MuxInput :=
  [.call (.openLocal (.ipv4 localhost 80)), .call .pendingOutbound]
    ++ (List.range (2 ^ 31 - 1)).flatMap (fun i =>
      openReset (.ipv4 localhost 80) (ofNat (3 + 2 * i)))
    ++ [.call (.openLocal (.ipv4 localhost 80))]

/-- Two streams are counted where the map has one. -/
theorem count_diverges :
    let m := run (fun m i => (input m i).2) (new .responder .default) wrapRun
    m.openCount = 2 ∧ m.streams.keys.card = 1 := by
  have hf : run (fun m i => (input m i).2) (new .responder .default)
      [.call (.openLocal (.ipv4 localhost 80)), .call .pendingOutbound]
      = holdingOne 3 := by
    rfl
  simp only [wrapRun, run_append, hf, run_openResets _ (show 2 ^ 31 - 1 < 2 ^ 31 by decide)]
  exact ⟨rfl, by decide⟩

end Wrap

end MuxState

namespace StreamRole

variable {role : StreamRole} {n i j : ℕ}

def NeverRepeats (l : List (Option UInt32)) : Prop :=
  l.Pairwise fun a b => (a = none → b = none) ∧ ∀ id, a = some id → b ≠ some id

lemma allocations_eq (next : UInt32) : role.allocations n next =
    (List.range n).map fun k => role.allocate (next + .ofNat (2 * k)) := by
  induction n generalizing next with
  | zero => rfl
  | succ n ih =>
    rw [allocations, ih, List.range_succ_eq_map, List.map_cons, List.map_map]
    congr 1
    · simp
    · refine List.map_congr_left fun k _ => congrArg role.allocate ?_
      simp [Nat.mul_succ, ofNat_add, add_assoc, add_comm]

lemma le_of_allocate_eq_none (h : role.allocate (role.firstId + .ofNat (2 * i)) = none) :
    2 ^ 31 ≤ i + 1 := by
  cases role <;> simp [allocate, firstId, ← UInt32.toNat_inj] at h <;> omega

lemma neverRepeats_of_le (h : n ≤ 2 ^ 31) : NeverRepeats (role.allocations n role.firstId) := by
  rw [NeverRepeats, allocations_eq, List.pairwise_map]
  refine List.pairwise_lt_range.imp_of_mem fun {i j} _ hm hij => ?_
  have hj := List.mem_range.1 hm
  refine ⟨fun hi => ?_, fun id hi hj => ?_⟩
  · have := le_of_allocate_eq_none hi
    omega
  have heq := (allocate_eq_some hi).1.symm.trans (allocate_eq_some hj).1
  rw [← UInt32.toNat_inj, UInt32.toNat_add, UInt32.toNat_add, UInt32.toNat_ofNat',
    UInt32.toNat_ofNat'] at heq
  omega

lemma le_of_neverRepeats (h : NeverRepeats (role.allocations n role.firstId)) : n ≤ 2 ^ 31 := by
  by_contra hlt
  rw [NeverRepeats, allocations_eq, List.pairwise_map, List.pairwise_iff_getElem] at h
  have h0 := (h 0 (2 ^ 31) (by simp; omega) (by simp; omega) (by decide)).2
  cases role <;> exact h0 _ (by simp [allocate, firstId]; rfl) (by simp [allocate, firstId])

/-- The counter comes back to its start after `2 ^ 31` calls. -/
theorem neverRepeats_iff (role : StreamRole) (n : ℕ) :
    NeverRepeats (role.allocations n role.firstId) ↔ n ≤ 2 ^ 31 :=
  ⟨le_of_neverRepeats, neverRepeats_of_le⟩

theorem wrapped_id_returns : ¬ NeverRepeats (allocations .responder (2 ^ 31 + 1) 1) :=
  fun h => absurd (le_of_neverRepeats h) (by decide)

end StreamRole
end Mirage.Mux
