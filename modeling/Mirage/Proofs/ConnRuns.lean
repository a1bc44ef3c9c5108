import Mirage.Proofs.ConnSteps

/-!
# The connection driver over whole runs

The driver drops the results of `grant_credit`, `end_local` and `reset`; its buffers agree with the
state while the queue has room for these (`Careful`).
-/

namespace Mirage.Mux

open Words Runs Conn Option MuxFrame List

variable {k : ℕ}

namespace Conn

open MuxState

variable {c c' : Conn} {r : ℕ} {id : UInt32} {policy : MuxPolicy}

/-- The end of the stream is still to be sent. -/
def Ending (c : Conn) (r : ℕ) : Prop :=
  (c.cell r).shared.out.ending = true ∧ (c.cell r).shared.out.endedSent = false
deriving Decidable

def turnFrames (c : Conn) (r : ℕ) : ℕ := (c.cell r).shared.out.buf.length / maxMuxFrameBody + 2

lemma inv_prune (h : Inv policy c) : c.prune = c := by
  have hs : (fun id => if (c.state.streamState id).isSome then c.streams id else none)
      = c.streams := by
    funext id
    split_ifs with hl
    · rfl
    · rw [streamState, isSome_map, not_isSome_iff_eq_none] at hl
      exact (h.dead id hl).1.symm
  rw [prune, hs]

lemma Touch.prune (h : Inv policy c) (t : Touch c c' r) (hst : c'.streams = c.streams) :
    Touch c c'.prune r :=
  { t with
    route_ne := fun j hj => by
      simp only [Conn.prune, streamState, t.lookup_ne j hj, hst, isSome_map]
      split_ifs with hl
      · rfl
      · exact (h.dead j (not_isSome_iff_eq_none.1 hl)).1.symm }

/-- A turn of the writer for reference `r` queues at most `k` frames. -/
structure Served (c c' : Conn) (r k : ℕ) : Prop where
  touch : Touch c c' r
  dead : c.state.streams.lookup (c.idOf r) = none → c'.state.streams.lookup (c.idOf r) = none
  length_le : c'.state.outbound.length ≤ c.state.outbound.length + k
  buf_le : (c'.cell r).shared.out.buf.length ≤ (c.cell r).shared.out.buf.length
  holder_eq : (c'.cell r).holder = (c.cell r).holder
  ending : c'.Ending r → c.Ending r

lemma Served.trans {c'' : Conn} {k' : ℕ} (h : Served c c' r k) (h' : Served c' c'' r k') :
    Served c c'' r (k + k') where
  touch := h.touch.trans h'.touch
  dead hn := h.touch.id_eq ▸ h'.dead (h.touch.id_eq ▸ h.dead hn)
  length_le := by
    have := h.length_le
    have := h'.length_le
    omega
  buf_le := h'.buf_le.trans h.buf_le
  holder_eq := h'.holder_eq.trans h.holder_eq
  ending he := h.ending (h'.ending he)

lemma endLocal_of_ending (h : Inv policy c) (hr : c.Held r) (he : c.Ending r)
    (hrm : c.Room) : ∃ b out, c.state.Shift (c.state.endLocal (c.idOf r)).2 (c.idOf r) b out ∧
      (c.state.streams.lookup (c.idOf r) = none → b = none) ∧
      ∀ s, c.state.streams.lookup (c.idOf r) = some s → (c.cell r).holder = .stream ∧
        (c.state.endLocal (c.idOf r)).1.isOk = true ∧
        ∀ s', b = some s' → s'.state = .halfClosedLocal ∧ s'.recvWindow = s.recvWindow := by
  rcases hl : c.state.streams.lookup (c.idOf r) with _ | s
  · refine ⟨none, [], ?_, fun _ => rfl, fun s hs => by cases hs⟩
    simp only [MuxState.endLocal, hl]
    exact shift_dead hl
  obtain ⟨hid, ht⟩ := h.tied hr hl
  have hsr : (c.cell r).holder = .stream := by
    by_contra hne
    cases he.1.symm.trans (ht.linked.quiet hne)
  have hst : s.state = .open ∨ s.state = .halfClosedRemote := by
    have hp := ht.linked.phase
    rw [Cell.InPhase, hsr] at hp
    rcases hp with hst | hst | ⟨-, hsn⟩
    · exact .inl hst
    · exact .inr hst
    · cases he.2.symm.trans hsn
  obtain ⟨hok, hs⟩ := shift_endLocal hl hid hrm hst
  refine ⟨_, _, hs, (by rintro ⟨⟩), fun s₀ hs₀ => ?_⟩
  obtain rfl := some.inj hs₀
  refine ⟨hsr, hok, fun s' hs' => ?_⟩
  split_ifs at hs'
  obtain rfl := some.inj hs'
  exact ⟨rfl, rfl⟩

lemma finish_spec (h : Inv policy c) (hr : c.Held r) (he : c.Ending r) (hrm : c.Room) :
    Inv policy (c.finish r).prune ∧ Served c (c.finish r) r 1 := by
  obtain ⟨b, out, hs, hnn, hsm⟩ := endLocal_of_ending h hr he hrm
  have t : Touch c (c.finish r) r := by
    rw [finish]
    exact (Touch.setState hs).trans (.modify rfl)
  have hcl : (c.finish r).cell r = { c.cell r with
      shared := { (c.cell r).shared with
        out := { (c.cell r).shared.out with endedSent := true } }
      endQueued := (c.cell r).endQueued || (c.state.endLocal (c.idOf r)).1.isOk } :=
    Function.update_self _ _ _
  refine ⟨h.touch hr (t.prune h rfl) ?_ (fun hn => ⟨?_, ?_⟩) fun s' hl' => ?_,
    t, fun hn => hs.lookup_self.trans (hnn hn), ?_, ?_, ?_, ?_⟩
  · rw [show (c.finish r).prune.cell = (c.finish r).cell from rfl, hcl]
    exact h.inb r
  · have hn' : (c.finish r).state.streams.lookup (c.idOf r) = none := hn
    simp [prune, streamState, hn']
  · rcases hl : c.state.streams.lookup (c.idOf r) with _ | s
    · exact (h.dead _ hl).2
    · exact h.waiter_none hr (by rw [(hsm s hl).1]; rintro ⟨⟩)
  · have hb := hs.lookup_self.symm.trans hl'
    rcases hl : c.state.streams.lookup (c.idOf r) with _ | s
    · cases (hnn hl).symm.trans hb
    obtain ⟨hid, ht⟩ := h.tied hr hl
    obtain ⟨hsr, hok, hs'⟩ := hsm s hl
    obtain ⟨hst, hw⟩ := hs' s' hb
    have hlx : (c.finish r).state.streams.lookup (c.idOf r) = some s' := hl'
    refine ⟨hid, ?_, ?_, ?_⟩
    · simp only [prune, streamState, hlx, map_some, isSome_some, if_true]
      exact ht.route
    · rw [show (c.finish r).prune.cell = (c.finish r).cell from rfl, hcl]
      exact ht.waiter
    · rw [show (c.finish r).prune.cell = (c.finish r).cell from rfl, hcl]
      refine ⟨?_, ?_, fun _ => by simp [hok], ht.linked.quiet⟩
      · rw [hw]
        exact ht.linked.credit
      · simp only [Cell.InPhase, hsr]
        exact .inr (.inr ⟨hst, trivial⟩)
  · rw [show (c.finish r).state = (c.state.endLocal (c.idOf r)).2 from rfl, hs.outbound_eq,
      length_append]
    exact Nat.add_le_add_left hs.out_single _
  · rw [hcl]
  · rw [hcl]
  · rw [Ending, hcl]
    exact fun hc => by cases hc.2

lemma serve_spec (h : Inv policy c) (hr : c.Held r) (hrm : c.Ending r →
    c.state.outbound.length + c.turnFrames r ≤ c.state.policy.maxPendingOutbound) :
    Inv policy (c.serve r).prune ∧ Served c (c.serve r) r (c.turnFrames r) := by
  obtain ⟨hf, hl⟩ := flush_spec (c.cell r).shared.out.buf.length c.state (c.cell r).shared.out.buf
  simp only [serve]
  generalize flush (c.cell r).shared.out.buf.length c.state (c.idOf r)
    (c.cell r).shared.out.buf = p at hf hl
  obtain ⟨m, buf⟩ := p
  have hi := h.modifyOut (f := fun ob => { ob with buf := buf }) hr hf rfl (.inl rfl)
  have hs : Served c ((c.setState m).modifyOut r fun ob => { ob with buf := buf }) r
      ((c.cell r).shared.out.buf.length / maxMuxFrameBody + 1) := by
    refine ⟨(Touch.flushed hf).trans (.modifyOut _), hf.none_iff.2, hf.length_le, ?_, ?_, ?_⟩
    all_goals simp only [Ending, cell_modifyOut]
    · exact hl
    · rfl
    · exact id
  have hsm : ((c.setState m).modifyOut r fun ob => { ob with buf := buf }).Ending r ↔
      c.Ending r := by
    simp only [Ending, cell_modifyOut]
    rfl
  generalize ((c.setState m).modifyOut r fun ob => { ob with buf := buf }) = c₁ at hi hs hsm
  split_ifs with hen
  · simp only [Bool.and_eq_true, Bool.not_eq_true'] at hen
    have he : c.Ending r := ⟨hen.1.1, hen.2⟩
    have hrm₁ : c₁.Room := by
      have hl := hs.length_le
      have hrm := hrm he
      rw [turnFrames] at hrm
      rw [Room, hs.touch.policy_eq]
      omega
    have hr₁ : c₁.Held r := by
      rw [Held, hs.holder_eq]
      exact hr
    obtain ⟨hi', hs'⟩ := finish_spec hi hr₁ (hsm.2 he) hrm₁
    exact ⟨hi', hs.trans hs'⟩
  · rw [inv_prune hi]
    exact ⟨hi, { hs with
      length_le := hs.length_le.trans (Nat.add_le_add_left (Nat.le_succ _) _) }⟩

lemma prune_serve : c.prune.serve r = { c.serve r with streams := c.prune.streams } := by
  simp only [serve, show c.prune.state = c.state from rfl, show c.prune.cell = c.cell from rfl,
    show c.prune.idOf r = c.idOf r from rfl]
  split_ifs <;> rfl

lemma serve_streams : (c.serve r).streams = c.streams := by
  simp only [serve]
  split_ifs <;> rfl

lemma Served.of_prune (h : Served c.prune (c.prune.serve r) r k) : Served c (c.serve r) r k := by
  rw [prune_serve] at h
  exact
    { touch := { h.touch with route_ne := fun j _ => congrFun serve_streams j }
      dead := h.dead
      length_le := h.length_le
      buf_le := h.buf_le
      holder_eq := h.holder_eq
      ending := h.ending }

lemma Served.prune_serve_prune (h : Served c (c.serve r) r k) :
    (c.prune.serve r).prune = (c.serve r).prune := by
  rw [prune_serve]
  simp only [prune, serve_streams, mk.injEq, true_and, and_true]
  funext id
  by_cases hl : ((c.serve r).state.streamState id).isSome = true
  · have hl' : (c.state.streamState id).isSome = true := by
      rw [streamState, isSome_map] at hl ⊢
      by_contra hn
      rw [not_isSome_iff_eq_none] at hn
      by_cases hid : id = c.idOf r
      · rw [hid, h.dead (hid ▸ hn)] at hl
        cases hl
      · rw [h.touch.lookup_ne id hid, hn] at hl
        cases hl
    rw [if_pos hl, if_pos hl, if_pos hl']
  · rw [if_neg hl, if_neg hl]

/-- If an end is to be sent, the queue has room for all the turns. -/
def Budget (c : Conn) (rs : List ℕ) : Prop :=
  (∃ r ∈ rs, c.Ending r) →
    c.state.outbound.length + (rs.map c.turnFrames).sum ≤ c.state.policy.maxPendingOutbound
deriving Decidable

lemma Served.turnFrames_le (h : Served c c' r k) (r' : ℕ) : c'.turnFrames r' ≤ c.turnFrames r' := by
  by_cases hr : r' = r
  · rw [hr, turnFrames, turnFrames]
    exact Nat.add_le_add_right (Nat.div_le_div_right h.buf_le) 2
  · rw [turnFrames, turnFrames, h.touch.cell_ne r' hr]

lemma Served.budget {rs : List ℕ} (h : Served c c' r (c.turnFrames r))
    (hb : c.Budget (r :: rs)) : c'.Budget rs := by
  rintro ⟨r', hm, he⟩
  have he' : c.Ending r' := by
    by_cases hr : r' = r
    · rw [hr] at he ⊢
      exact h.ending he
    · rw [Ending, h.touch.cell_ne r' hr] at he
      exact he
  have hs := hb ⟨r', mem_cons_of_mem _ hm, he'⟩
  have hl := h.length_le
  have hle : (rs.map c'.turnFrames).sum ≤ (rs.map c.turnFrames).sum :=
    sum_le_sum fun r' _ => h.turnFrames_le r'
  rw [map_cons, sum_cons] at hs
  rw [h.touch.policy_eq]
  omega

lemma inv_serve : ∀ (rs : List ℕ) (c : Conn), Inv policy c.prune → (∀ r ∈ rs, c.Held r) →
    c.Budget rs → Inv policy (rs.foldl serve c).prune
  | [], _, h, _, _ => h
  | r :: rs, c, h, hh, hb => by
    obtain ⟨hi, hs⟩ := serve_spec h (hh r mem_cons_self) fun he => by
      have hsm := hb ⟨r, mem_cons_self, he⟩
      rw [map_cons, sum_cons, ← Nat.add_assoc] at hsm
      exact (Nat.le_add_right _ _).trans hsm
    replace hs : Served c (c.serve r) r (c.turnFrames r) := hs.of_prune
    rw [hs.prune_serve_prune] at hi
    refine inv_serve rs (c.serve r) hi (fun r' hr' => ?_) (hs.budget hb)
    have hr := hh r' (mem_cons_of_mem _ hr')
    by_cases he : r' = r
    · rw [Held, he, hs.holder_eq, ← he]
      exact hr
    · rw [Held, hs.touch.cell_ne r' he]
      exact hr

def visited (c : Conn) (order : List UInt32) : List ℕ := order.filterMap c.streams

lemma inv_drainPass (h : Inv policy c) (order : List UInt32) (hb : c.Budget (c.visited order)) :
    Inv policy (c.drainPass order).2 := by
  have hh : ∀ r ∈ c.visited order, c.Held r := fun r hr => by
    obtain ⟨id, -, hid⟩ := mem_filterMap.1 hr
    rcases hl : c.state.streams.lookup id with _ | s
    · rw [(h.dead id hl).1] at hid
      cases hid
    obtain ⟨-, r', hr', ht⟩ := h.live id s hl
    have hrt := ht.route
    rw [hr', hid] at hrt
    obtain rfl := some.inj hrt
    exact ht.held
  have hi := inv_serve (c.visited order) c ((inv_prune h).symm ▸ h) hh hb
  exact hi.setState rfl fun _ => rfl

/-- A held stream has its credit accounted for and its end queued; under an old id there is a later
one. -/
structure Sound (c : Conn) : Prop where
  credit : ∀ r s, c.Held r → c.state.streams.lookup (c.idOf r) = some s →
    s.recvWindow.toNat + (c.cell r).shared.inb.buffered + (c.cell r).shared.inb.unacked.toNat
      = c.state.policy.initialWindow.toNat
  ended : ∀ r, c.Held r → c.Live r → (c.cell r).shared.out.endedSent = true →
    (c.cell r).endQueued = true
  dropped : ∀ r < c.count, ¬c.Held r → c.Live r →
    ∃ r' < c.count, r < r' ∧ c.Held r' ∧ c.idOf r' = c.idOf r

lemma Inv.sound (h : Inv policy c) : c.Sound where
  credit r s hr hl := (h.tied hr hl).2.linked.credit
  ended r hr hlv hs := by
    obtain ⟨s, hl⟩ := live_iff.1 hlv
    exact (h.tied hr hl).2.linked.ended hs
  dropped r hlt hr hlv := by
    obtain ⟨s, hl⟩ := live_iff.1 hlv
    obtain ⟨-, r', hid, ht⟩ := h.live _ s hl
    have hle := h.newest r' r ht.held hlt hid.symm
    refine ⟨r', h.held_lt r' ht.held, lt_of_le_of_ne hle ?_, ht.held, hid⟩
    rintro rfl
    exact hr ht.held

lemma inv_new (role : StreamRole) (policy : MuxPolicy) : Inv policy (new role policy) where
  policy_eq := rfl
  held_lt _ hr := absurd rfl hr
  newest _ _ hr := absurd rfl hr
  inb _ := InBuf.ok_empty
  dead _ _ := ⟨rfl, rfl⟩
  live id s hl := by
    cases hl

/-- A `Begin` comes while no handle has its id, and finds room for the `Reset`. -/
def MayBegin (c : Conn) (acceptor : Bool) (f : MuxFrame) : Prop :=
  f.command = .begin → c.state.streamState f.streamId = none →
    c.Unheld f.streamId ∧ (acceptor = true ∨ c.Room)

/-- An id that is used anew is not held, and a frame whose result is dropped finds room. -/
def Careful (c : Conn) : ConnStep → Prop
  | .open _ => ∀ id ∈ c.state.role.allocate c.state.next, c.Unheld id
  | .accept _ | .pollWrite _ _ | .pollShutdown _ => True
  | .reject r _ | .dropIncoming r => c.Undecided r → c.Live r → c.Room
  | .dropStream r => (c.cell r).holder = .stream → c.Live r → c.Room
  | .pollRead r n => (c.cell r).holder = .stream → c.Live r → c.NoGrant r n ∨ c.Room
  | .readFrame acc acceptor => ∀ p ∈ (decodeOne acc).toOption, c.MayBegin acceptor p.1
  | .drainPass order => c.Budget (c.visited order)

lemma inv_step (c : Conn) (step : ConnStep) (h : Inv policy c) (hc : c.Careful step) :
    Inv policy (c.step step) := by
  cases step with
  | «open» target => exact inv_open h target hc
  | accept r =>
    simp only [step]
    split_ifs with hu
    · exact inv_accept h hu
    · exact h
  | reject r code =>
    simp only [step]
    split_ifs with hu
    · exact inv_reject h hu (hc hu) code
    · exact h
  | dropIncoming r =>
    simp only [step]
    split_ifs with hu
    · exact inv_dropIncoming h hu (hc hu)
    · exact h
  | pollRead r n =>
    simp only [step]
    split_ifs with hst
    · exact inv_pollRead h hst (hc hst)
    · exact h
  | pollWrite r buf =>
    simp only [step]
    split_ifs with hst
    · exact inv_pollWrite h hst buf
    · exact h
  | pollShutdown r =>
    simp only [step]
    split_ifs with hst
    · exact inv_pollShutdown h hst
    · exact h
  | dropStream r =>
    simp only [step]
    split_ifs with hst
    · exact inv_dropStream h hst (hc hst)
    · exact h
  | readFrame acc acceptor =>
    simp only [step, readFrame]
    rcases hd : decodeOne acc with err | ⟨f, n⟩
    · exact h
    refine inv_handleFrame h (bounded_of_decodeOne hd) fun hf hl => ?_
    refine hc (f, n) (by rw [hd]; rfl) hf ?_
    rw [streamState, hl]
    rfl
  | drainPass order => exact inv_drainPass h order hc

/-- Along every run of careful steps the driver conserves credit, ends its streams and leaves none
behind. -/
theorem sound_of_careful (role : StreamRole) (policy : MuxPolicy) (steps : List ConnStep)
    (hc : Along step Careful (new role policy) steps) : (run step (new role policy) steps).Sound :=
  (Runs.inv_run inv_step _ steps (inv_new role policy) hc).sound

section Decidable

instance (c : Conn) (id : UInt32) : Decidable (c.Unheld id) :=
  inferInstanceAs (Decidable (∀ r < c.count, c.Held r → c.idOf r ≠ id))

instance (c : Conn) (acceptor : Bool) (f : MuxFrame) : Decidable (c.MayBegin acceptor f) :=
  inferInstanceAs (Decidable (_ → _ → _ ∧ _))

instance (c : Conn) : DecidablePred c.Careful := fun _ => by
  unfold Careful
  split <;> first | exact Option.decidableForallMem _ | infer_instance

end Decidable

/-- A stream is accepted, read and written, its credit granted and its end sent before its handle
is dropped. -/
theorem sound_of_careful_dropped :
    let steps : List ConnStep :=
      [.readFrame (encode ⟨2, .begin, [1, 127, 0, 0, 1, 0, 80]⟩) true, .accept 0,
        .drainPass [2], .readFrame (encode ⟨2, .data, [1, 2, 3]⟩) true, .pollRead 0 2,
        .pollWrite 0 [7], .pollShutdown 0, .drainPass [2], .dropStream 0]
    Along step Careful (new .responder ⟨4, 4, 8, 4096⟩) steps ∧
    (run step (new .responder ⟨4, 4, 8, 4096⟩) steps).Sound :=
  ⟨by decide +kernel, sound_of_careful _ _ _ (by decide +kernel)⟩

def acceptedFull : Conn :=
  run step (new .responder ⟨2, 4, 1, 4096⟩)
    [.readFrame (encode ⟨2, .begin, [1, 127, 0, 0, 1, 0, 80]⟩) true, .accept 0]

/-- With the queue full, credit, an `EndLocal` and a drop get lost, and a late read credits the next
stream. -/
theorem full_queue_unsound :
    let read := run step acceptedFull [.readFrame (encode ⟨2, .data, [1, 2]⟩) true, .pollRead 0 2]
    let ended := run step acceptedFull [.pollShutdown 0, .drainPass [2]]
    let dropped := run step acceptedFull [.dropStream 0]
    let reused := run step acceptedFull
      [.drainPass [2], .readFrame (encode ⟨2, .data, [1, 2]⟩) true,
        .readFrame (encode ⟨2, .reset, [0]⟩) true,
        .readFrame (encode ⟨2, .begin, [1, 127, 0, 0, 1, 0, 80]⟩) true, .accept 1,
        .drainPass [2], .pollRead 0 2]
    ((read.state.streams.lookup 2).map (·.recvWindow) = some 0 ∧
      (read.cell 0).shared.inb.buffered = 0 ∧ (read.cell 0).shared.inb.unacked = 0 ∧
      ¬read.Sound) ∧
    ((ended.cell 0).shared.out.endedSent = true ∧ (ended.cell 0).endQueued = false ∧
      ended.state.streamState 2 = some .open ∧ ¬ended.Sound) ∧
    ((dropped.cell 0).holder = .gone ∧ dropped.state.streamState 2 = some .open ∧
      dropped.state.openCount = 1 ∧ ¬dropped.Sound) ∧
    ((reused.state.streams.lookup 2).map (·.recvWindow) = some 4 ∧
      reused.state.policy.initialWindow = 2 ∧ ¬reused.Sound) := by
  refine ⟨⟨by decide +kernel, by decide +kernel, by decide +kernel, fun h => ?_⟩,
    ⟨by decide +kernel, by decide +kernel, by decide +kernel, fun h => ?_⟩,
    ⟨by decide +kernel, by decide +kernel, by decide +kernel, fun h => ?_⟩,
    ⟨by decide +kernel, by decide +kernel, fun h => ?_⟩⟩
  · have := h.credit 0 ⟨.open, 2, 0, none⟩ (by decide +kernel) (by decide +kernel)
    revert this
    decide +kernel
  · have := h.ended 0 (by decide +kernel) (by decide +kernel) (by decide +kernel)
    revert this
    decide +kernel
  · obtain ⟨r, hlt, hp, -⟩ := h.dropped 0 (by decide +kernel) (by decide +kernel)
      (by decide +kernel)
    exact absurd (Nat.lt_one_iff.1 hlt) hp.ne'
  · have := h.credit 1 ⟨.open, 2, 4, none⟩ (by decide +kernel) (by decide +kernel)
    revert this
    decide +kernel

end Conn

end Mirage.Mux
