import Mirage.Proofs.ConnInv

/-!
# Handles and the reader

The steps of `IncomingStream`, `MuxStream` and `open`, and the reader's, keep the invariant.
-/

namespace Mirage.Mux

open Words Function Conn Option UInt32 InBuf

variable {m : MuxState} {s : Stream} {acceptor : Bool}

namespace Conn

open MuxState

variable {c c' : Conn} {r : ℕ} {id : UInt32} {policy : MuxPolicy}

lemma Inv.waiter_none (h : Inv policy c) (hr : c.Held r) (ho : (c.cell r).holder ≠ .opening) :
    c.openWaiters (c.idOf r) = none := by
  rcases hl : c.state.streams.lookup (c.idOf r) with _ | s
  · exact (h.dead _ hl).2
  · rw [(h.tied hr hl).2.waiter, if_neg ho]

variable {out : List MuxFrame} {inb : InBuf} {k : ℕ}

lemma Inv.abandon (h : Inv policy c) (hr : c.Held r)
    (ho : (c.cell r).holder ≠ .opening) (hs : c.state.Shift m (c.idOf r) none out) :
    Inv policy (((c.setState m).setRoute (c.idOf r) none).release r .gone) := by
  refine h.touch hr (((Touch.setState hs).trans (.setRoute _ r none)).trans (.release .gone)) ?_
    (fun _ => ⟨update_self _ _ _, h.waiter_none hr ho⟩) fun s hl => ?_
  · simp only [cell_release]
    exact h.inb r
  · cases hs.lookup_self.symm.trans hl

lemma shift_dead (hl : c.state.streams.lookup id = none) : c.state.Shift c.state id none [] := by
  have := c.state.shift_refl id
  rwa [hl] at this

lemma Inv.abandon_dead (h : Inv policy c) (hr : c.Held r) (ho : (c.cell r).holder ≠ .opening)
    (hl : c.state.streams.lookup (c.idOf r) = none) (hm : m = c.state) :
    Inv policy (((c.setState m).setRoute (c.idOf r) none).release r .gone) := by
  subst hm
  exact h.abandon hr ho (shift_dead hl)

lemma held_of_stream (h : (c.cell r).holder = .stream) : c.Held r := by
  rw [Held, h]
  rintro ⟨⟩

lemma Undecided.held : c.Undecided r → c.Held r := by
  rintro ⟨target, h⟩
  rw [Held, h]
  rintro ⟨⟩

lemma Undecided.ne_opening : c.Undecided r → (c.cell r).holder ≠ .opening := by
  rintro ⟨target, h⟩
  rw [h]
  nofun

lemma Undecided.phase : c.Undecided r → (c.cell r).InPhase s →
    s.state = .synReceived ∧ s.pendingTarget.isSome := by
  rintro ⟨target, h⟩ hp
  rwa [Cell.InPhase, h] at hp

lemma inv_accept (h : Inv policy c) (hu : c.Undecided r) : Inv policy (c.accept r) := by
  have hr := hu.held
  have hw := h.waiter_none hr hu.ne_opening
  have hi : ((c.accept r).cell r).shared.inb.Ok := by
    simp only [accept, release, modify, update_self]
    exact h.inb r
  rcases hl : c.state.streams.lookup (c.idOf r) with _ | s
  · have hm : (c.state.accept (c.idOf r)).2 = c.state := by simp [MuxState.accept, hl]
    have hs : c.state.Shift (c.state.accept (c.idOf r)).2 (c.idOf r) none [] := by
      rw [hm]
      exact shift_dead hl
    refine h.touch hr ((Touch.setState hs).trans (.release .stream)) hi
      (fun _ => ⟨(h.dead _ hl).1, hw⟩) fun s hl' => ?_
    cases hs.lookup_self.symm.trans hl'
  · obtain ⟨hid, ht⟩ := h.tied hr hl
    obtain ⟨hst, htg⟩ := hu.phase ht.linked.phase
    obtain ⟨out, hs⟩ := shift_accept hl hst htg
    refine h.touch hr ((Touch.setState hs).trans (.release .stream)) hi (fun hn => ?_)
      fun s' hl' => ?_
    · cases hs.lookup_self.symm.trans hn
    obtain rfl := some.inj (hs.lookup_self.symm.trans hl')
    refine ⟨hid, ht.route, hw.trans ?_, ?_⟩ <;>
      simp only [accept, release, modify, setState, update_self]
    · rfl
    · exact ⟨ht.linked.credit, .inl rfl, ht.linked.ended, fun hne => absurd rfl hne⟩

/-- The stream of the reference is in the state. -/
def Live (c : Conn) (r : ℕ) : Prop := (c.state.streamState (c.idOf r)).isSome
deriving Decidable

def Room (c : Conn) : Prop := c.state.outbound.length < c.state.policy.maxPendingOutbound
deriving Decidable

lemma live_iff : c.Live r ↔ ∃ s, c.state.streams.lookup (c.idOf r) = some s := by
  rw [Live, streamState, isSome_map, isSome_iff_exists]

lemma inv_reject (h : Inv policy c) (hu : c.Undecided r) (hrm : c.Live r → c.Room)
    (code : UInt8) : Inv policy (c.reject r code) := by
  have hr := hu.held
  have ho := hu.ne_opening
  rcases hl : c.state.streams.lookup (c.idOf r) with _ | s
  · exact h.abandon_dead hr ho hl (by simp [MuxState.reset, hl])
  · exact h.abandon hr ho (shift_reset hl (h.tied hr hl).1 (hrm (live_iff.2 ⟨s, hl⟩)) code)

lemma inv_dropIncoming (h : Inv policy c) (hu : c.Undecided r) (hrm : c.Live r → c.Room) :
    Inv policy (c.dropIncoming r) := by
  have hr := hu.held
  have ho := hu.ne_opening
  simp only [dropIncoming]
  rcases hl : c.state.streams.lookup (c.idOf r) with _ | s
  · exact h.abandon_dead hr ho hl (by simp [MuxState.reject, MuxState.reset, hl])
  obtain ⟨hid, ht⟩ := h.tied hr hl
  obtain ⟨hst, -⟩ := hu.phase ht.linked.phase
  obtain ⟨hok, hs⟩ := shift_reject hl hid (hrm (live_iff.2 ⟨s, hl⟩)) hst
  simp only [hok]
  exact h.abandon hr ho hs

lemma inv_dropStream (h : Inv policy c) (hst : (c.cell r).holder = .stream)
    (hrm : c.Live r → c.Room) : Inv policy (c.dropStream r) := by
  have hr := held_of_stream hst
  have ho : (c.cell r).holder ≠ .opening := hst ▸ nofun
  have hd : c.state.streams.lookup (c.idOf r) = none →
      Inv policy ((c.setRoute (c.idOf r) none).release r .gone) := fun hl =>
    h.abandon_dead hr ho hl rfl
  simp only [dropStream]
  rcases hrt : c.streams (c.idOf r) with _ | r'
  · refine hd ?_
    by_contra hl
    obtain ⟨s, hl⟩ := ne_none_iff_exists'.1 hl
    rw [(h.tied hr hl).2.route] at hrt
    cases hrt
  · split_ifs with hlv
    · obtain ⟨s, hl⟩ := live_iff.1 hlv
      exact h.abandon hr ho (shift_reset hl (h.tied hr hl).1 (hrm hlv) 0x00)
    · refine hd ?_
      by_contra hl
      exact hlv (live_iff.2 (ne_none_iff_exists'.1 hl))

lemma Inv.modifyIn {b : Option Stream} {f : InBuf → InBuf}
    (h : Inv policy c) (hr : c.Held r) (hs : c.state.Shift m (c.idOf r) b out)
    (hok : (f (c.cell r).shared.inb).Ok)
    (hnn : b = none → c.state.streams.lookup (c.idOf r) = none)
    (hsm : ∀ s', b = some s' → ∃ s, c.state.streams.lookup (c.idOf r) = some s ∧
      s'.recvWindow.toNat + (f (c.cell r).shared.inb).buffered
        + (f (c.cell r).shared.inb).unacked.toNat = policy.initialWindow.toNat ∧
      (c.cell r).InPhase s') : Inv policy ((c.setState m).modifyIn r f) := by
  have hcl : ((c.setState m).modifyIn r f).cell r = _ := update_self _ _ _
  refine h.touch hr ((Touch.setState hs).trans (.modifyIn _ r f)) ?_ (fun hn => ?_) fun s' hl' => ?_
  · rw [hcl]
    exact hok
  · exact h.dead _ (hnn (hs.lookup_self.symm.trans hn))
  obtain ⟨s, hl, hc, hp⟩ := hsm s' (hs.lookup_self.symm.trans hl')
  obtain ⟨hid, ht⟩ := h.tied hr hl
  refine ⟨hid, ht.route, ?_, ?_⟩ <;> rw [hcl]
  · exact ht.waiter
  · refine ⟨?_, hp, ht.linked.ended, ht.linked.quiet⟩
    rw [h.policy_eq]
    exact hc

/-- A read of `n` bytes stays under half a window and grants nothing. -/
def NoGrant (c : Conn) (r n : ℕ) : Prop :=
  let sh := (c.cell r).shared
  min n sh.inb.buffered = 0 ∨ sh.inb.unacked.toNat + min n sh.inb.buffered < (sh.window / 2).toNat
deriving Decidable

lemma grant_eq_none {window : UInt32}
    (h : k = 0 ∨ inb.unacked.toNat + k < (window / 2).toNat) : inb.grant window k = none := by
  refine if_neg fun ⟨hk, hle⟩ => ?_
  rcases h with h | h
  · exact hk h
  · rw [le_iff_toNat_le, acked, toNat_satAdd, toNat_ofNat'] at hle
    omega

lemma toNat_acked (h : inb.unacked.toNat + k < 2 ^ 32) :
    (inb.acked k).toNat = inb.unacked.toNat + k := by
  rw [acked, toNat_satAdd, toNat_ofNat', Nat.mod_eq_of_lt (by omega)]
  omega

lemma state_ne_closed (hst : (c.cell r).holder = .stream) (h : (c.cell r).InPhase s) :
    s.state ≠ .closed := by
  rw [Cell.InPhase, hst] at h
  rcases h with h | h | ⟨h, -⟩ <;> rw [h] <;> rintro ⟨⟩

lemma inv_pollRead {n : ℕ} (h : Inv policy c) (hst : (c.cell r).holder = .stream)
    (hrm : c.Live r → c.NoGrant r n ∨ c.Room) : Inv policy (c.pollRead r n).2 := by
  have hr := held_of_stream hst
  obtain ⟨hcr, hb⟩ := h.inb r
  obtain ⟨hc', hsm, hle⟩ := read_spec (c.cell r).shared.inb.chunks n _ hcr
  simp only [NoGrant] at hrm
  simp only [pollRead]
  generalize read n (c.cell r).shared.inb.chunks (c.cell r).shared.inb.cursor = R at *
  obtain ⟨chunks, cursor, copied⟩ := R
  simp only at hc' hsm hle ⊢
  have hk : copied.length = min n (c.cell r).shared.inb.buffered := by omega
  rw [← hk] at hrm
  -- what the credit equation says of the bytes that are read
  have hc : ∀ s, c.state.streams.lookup (c.idOf r) = some s →
      s.recvWindow.toNat + (c.cell r).shared.inb.buffered + (c.cell r).shared.inb.unacked.toNat
        = policy.initialWindow.toNat ∧ (c.cell r).InPhase s := fun s hl => by
    have hln := (h.tied hr hl).2.linked
    rw [h.policy_eq] at hln
    exact ⟨hln.credit, hln.phase⟩
  have hw := policy.initialWindow.toNat_lt
  by_cases hz : copied.length = 0
  · have hin := h.modifyIn (f := fun inb => { inb with chunks := chunks, cursor := cursor }) hr
      (c.state.shift_refl _) ⟨hc', by simp only; omega⟩ id fun s hl =>
        ⟨s, hl, (hc s hl).1, (hc s hl).2⟩
    split_ifs <;> exact hin
  have hok : ∀ u, InBuf.Ok ((c.cell r).shared.inb.consume chunks cursor copied.length u) :=
    fun u => ⟨hc', by simp only [consume]; omega⟩
  simp only [if_neg hz]
  rcases hg : (c.cell r).shared.inb.grant (c.cell r).shared.window copied.length with _ | g
  · refine h.modifyIn hr (c.state.shift_refl _) (hok _) id fun s hl => ?_
    obtain ⟨hsm', hp⟩ := hc s hl
    refine ⟨s, hl, ?_, hp⟩
    simp only [consume, toNat_acked (show (c.cell r).shared.inb.unacked.toNat
      + copied.length < 2 ^ 32 by omega)]
    omega
  rcases hl : c.state.streams.lookup (c.idOf r) with _ | s
  · have hm : (c.state.grantCredit (c.idOf r) g).2 = c.state := by simp [MuxState.grantCredit, hl]
    have hs : c.state.Shift (c.state.grantCredit (c.idOf r) g).2 (c.idOf r) none [] := by
      rw [hm]
      exact shift_dead hl
    exact h.modifyIn hr hs (hok 0) (fun _ => hl) fun s hs' => by cases hs'
  obtain ⟨hsm', hp⟩ := hc s hl
  have hr' : c.Room := by
    refine (hrm (live_iff.2 ⟨s, hl⟩)).resolve_left fun hno => ?_
    rw [grant_eq_none hno] at hg
    cases hg
  refine h.modifyIn hr (shift_grantCredit hl (h.tied hr hl).1 hr' (state_ne_closed hst hp) g)
    (hok 0) (fun hn => by cases hn) fun s' hs' => ?_
  obtain rfl := some.inj hs'
  refine ⟨s, hl, ?_, hp⟩
  have hgk : g.toNat = (c.cell r).shared.inb.unacked.toNat + copied.length := by
    rw [grant] at hg
    split_ifs at hg
    obtain rfl := some.inj hg
    exact toNat_acked (by omega)
  simp only [consume, toNat_satAdd, hgk, UInt32.toNat_zero]
  omega

lemma Inv.modifyOut {f : OutBuf → OutBuf} (h : Inv policy c) (hr : c.Held r)
    (hf : c.state.Flushed m (c.idOf r) k)
    (he : (f (c.cell r).shared.out).endedSent = (c.cell r).shared.out.endedSent)
    (hen : (f (c.cell r).shared.out).ending = (c.cell r).shared.out.ending ∨
      (c.cell r).holder = .stream) : Inv policy ((c.setState m).modifyOut r f) := by
  have hc : ((c.setState m).modifyOut r f).cell r = { c.cell r with
      shared := { (c.cell r).shared with out := f (c.cell r).shared.out } } :=
    cell_modifyOut f
  refine h.touch hr ((Touch.flushed hf).trans (.modifyOut f)) ?_
    (fun hn => h.dead _ (hf.none_iff.1 hn)) fun s' hl' => ?_
  · rw [hc]
    exact h.inb r
  rcases hl : c.state.streams.lookup (c.idOf r) with _ | s
  · cases hl'.symm.trans (hf.none_iff.2 hl)
  obtain ⟨credit, hlx⟩ := hf.of_some hl
  obtain rfl := some.inj (hlx.symm.trans hl')
  obtain ⟨hid, ht⟩ := h.tied hr hl
  refine ⟨hid, ht.route, ?_, ?_⟩ <;> rw [hc]
  · exact ht.waiter
  refine ⟨ht.linked.credit, ?_, ?_, fun hne => ?_⟩
  · have hp := ht.linked.phase
    simp only [Cell.InPhase, he] at hp ⊢
    exact hp
  · simp only [he]
    exact ht.linked.ended
  · exact (hen.resolve_right hne).trans (ht.linked.quiet hne)

lemma inv_pollWrite (h : Inv policy c) (hst : (c.cell r).holder = .stream) (buf : Bytes) :
    Inv policy (c.pollWrite r buf).2 := by
  have hr := held_of_stream hst
  simp only [pollWrite]
  split_ifs
  · exact h
  · exact h
  · exact h.modifyOut (f := fun ob => { ob with buf := _ }) hr (.refl c.state _ 0) rfl (.inr hst)

lemma inv_pollShutdown (h : Inv policy c) (hst : (c.cell r).holder = .stream) :
    Inv policy (c.pollShutdown r).2 := by
  have hr := held_of_stream hst
  have ho : Inv policy (c.modifyOut r fun ob => { ob with ending := true }) :=
    h.modifyOut hr (.refl c.state _ 0) rfl (.inr hst)
  simp only [pollShutdown]
  split_ifs <;> exact ho

lemma Inv.fault {c₁ : Conn} (h : Inv policy c) (hr : c.Held r) (t : Touch c c₁ r)
    (hi : (c₁.cell r).shared.inb = (c.cell r).shared.inb)
    (hl : c₁.state.streams.lookup (c.idOf r) = none) (hrt : c₁.streams (c.idOf r) = some r)
    (hw : c₁.openWaiters (c.idOf r) = none) (code : UInt8) :
    Inv policy (c₁.faultStream (c.idOf r) code) := by
  have t' : Touch c₁ (c₁.setRoute (c.idOf r) none) r := t.id_eq ▸ .setRoute c₁ r none
  simp only [faultStream, hrt]
  refine h.touch hr (((t.trans t').trans (.modifyIn _ r _)).trans (.modifyOut _)) ?_
    (fun _ => ⟨update_self _ _ _, hw⟩) fun s hl' => ?_
  · simp only [Conn.modifyOut, Conn.modifyIn, modify, Conn.setRoute, update_self, hi]
    exact ⟨(h.inb r).cursor_le, (h.inb r).buffered_eq⟩
  · cases hl.symm.trans hl'

section Reader

variable {m : MuxState} {f : MuxFrame} {w : UInt32} {owned full : Prop} {b : Option Stream}
  {out : List MuxFrame} {e : Effect}

lemma Inv.setState_same (h : Inv policy c)
    (hs : c.state.Shift m id (c.state.streams.lookup id) out) : Inv policy (c.setState m) := by
  refine h.setState hs.policy_eq fun j => ?_
  by_cases hj : j = id
  · rw [hj, hs.lookup_self]
  · exact hs.lookup_ne j hj

lemma inv_error (h : Inv policy c) (hs : c.state.Shift m f.streamId b out)
    (ht : RecvStep w owned full f (c.state.streams.lookup f.streamId) b out e none) :
    Inv policy (if m.streamState f.streamId = none then (c.setState m).faultStream f.streamId 0xff
      else c.setState m) := by
  have hsm : b = c.state.streams.lookup f.streamId → Inv policy
      (if m.streamState f.streamId = none then (c.setState m).faultStream f.streamId 0xff
        else c.setState m) := by
    rintro rfl
    split_ifs with hn
    · rw [streamState, map_eq_none_iff, hs.lookup_self] at hn
      have hr : (c.setState m).streams f.streamId = none := (h.dead _ hn).1
      simp only [faultStream, hr]
      exact h.setState_same hs
    · exact h.setState_same hs
  generalize ha : c.state.streams.lookup f.streamId = a at ht hsm
  cases ht with
  | ignored _ _ | refused _ code _ => exact hsm rfl
  | overSent s hf hst hw =>
    obtain ⟨-, r, hid, ht⟩ := h.live _ s ha
    rw [← hid] at hs ⊢
    have hsr := ht.linked.phase.stream
      (by rcases hst with h | h <;> rw [h] <;> nofun)
      (by rcases hst with h | h <;> rw [h] <;> nofun)
    rw [if_pos (by rw [streamState, hs.lookup_self]; rfl)]
    exact h.fault ht.held (.setState hs) rfl hs.lookup_self ht.route
      (h.waiter_none ht.held (by rw [hsr]; rintro ⟨⟩)) 0xff

lemma setWaiter_none (hw : c.openWaiters id = none) : c.setWaiter id none = c := by
  rw [setWaiter, ← hw, update_eq_self]

variable (h : Inv policy c)

include h

lemma inv_incoming {t : MuxTarget} (hid : id ≠ 0)
    (hs : c.state.Shift m id (some ⟨.synReceived, policy.initialWindow, policy.initialWindow,
      some t⟩) []) (hn : c.state.streams.lookup id = none) (hu : c.Unheld id)
    (hr : acceptor = true ∨ c.Room) :
    Inv policy ((c.setState m).handleEvent acceptor (.incoming id t)) := by
  have hsh := h.share (.incoming t) hs hid hu rfl ⟨rfl, rfl⟩
  rw [if_neg (by nofun), setWaiter_none (c := (c.setState m).share id (.incoming t))
    (h.dead _ hn).2] at hsh
  simp only [handleEvent]
  split_ifs with ha
  · exact hsh
  refine inv_dropIncoming hsh ⟨t, ?_⟩ fun _ => ?_
  · simp [share]
  have hr' := hr.resolve_left ha
  rw [Room] at hr' ⊢
  rw [show ((c.setState m).share id (.incoming t)).state = m from rfl, hs.outbound_eq,
    hs.policy_eq, List.append_nil]
  exact hr'

lemma inv_established (ht : c.Tied r s) (hid : c.idOf r ≠ 0) (hst : s.state = .synSent)
    (hs : c.state.Shift m (c.idOf r) (some { s with state := .open }) out) :
    Inv policy ((c.setState m).handleEvent acceptor (.established (c.idOf r))) := by
  have ho := ht.linked.phase.opening hst
  have hw : (c.setState m).openWaiters (c.idOf r) = some r :=
    ht.waiter.trans (if_pos ho)
  simp only [handleEvent, hw]
  refine h.touch ht.held (((Touch.setState hs).trans (.setWaiter none)).trans
    (.release .stream)) ?_ (fun hn => ?_) fun s' hl' => ?_
  · simp only [release, modify, setWaiter, setState, update_self]
    exact h.inb r
  · cases hs.lookup_self.symm.trans hn
  obtain rfl := some.inj (hs.lookup_self.symm.trans hl')
  refine ⟨hid, ht.route, ?_, ?_⟩ <;>
    simp only [release, modify, setWaiter, setState, update_self]
  · rfl
  · exact ⟨ht.linked.credit, .inl rfl, ht.linked.ended, fun hne => absurd rfl hne⟩

lemma inv_data {body : Bytes} (ht : c.Tied r s)
    (hl : c.state.streams.lookup (c.idOf r) = some s) (hb : body.length < 2 ^ 32)
    (hle : ofNat body.length ≤ s.recvWindow) (hs : c.state.Shift m (c.idOf r)
      (some { s with recvWindow := satSub s.recvWindow (ofNat body.length) }) out) :
    Inv policy ((c.setState m).handleEvent acceptor (.data (c.idOf r) body)) := by
  have hr : (c.setState m).streams (c.idOf r) = some r := ht.route
  simp only [handleEvent, hr]
  refine h.modifyIn (f := fun inb =>
    { inb with buffered := inb.buffered + body.length, chunks := inb.chunks ++ [body] }) ht.held hs
    ((h.inb r).push body) nofun fun s' hs' => ?_
  obtain rfl := some.inj hs'
  refine ⟨s, hl, ?_, ht.linked.phase⟩
  have hc := ht.linked.credit
  rw [h.policy_eq] at hc
  rw [le_iff_toNat_le, toNat_ofNat_of_lt' hb] at hle
  simp only [toNat_satSub, toNat_ofNat_of_lt' hb]
  omega

lemma inv_peerEndLocal (ht : c.Tied r s)
    (hl : c.state.streams.lookup (c.idOf r) = some s) (hs : c.state.Shift m (c.idOf r) b out)
    (hb : s.state = .open ∧ b = some { s with state := .halfClosedRemote } ∨
      s.state = .halfClosedLocal ∧ b = none) :
    Inv policy ((c.setState m).handleEvent acceptor (.peerEndLocal (c.idOf r))) := by
  have hr : (c.setState m).streams (c.idOf r) = some r := ht.route
  have hsr := ht.linked.phase.stream
    (by rcases hb with ⟨h, -⟩ | ⟨h, -⟩ <;> rw [h] <;> rintro ⟨⟩)
    (by rcases hb with ⟨h, -⟩ | ⟨h, -⟩ <;> rw [h] <;> rintro ⟨⟩)
  simp only [handleEvent, hr]
  rcases hb with ⟨hst, rfl⟩ | ⟨hst, rfl⟩
  · rw [if_neg (by
      rw [show (c.setState m).state = m from rfl, streamState, hs.lookup_self]
      rintro ⟨⟩)]
    refine h.modifyIn ht.held hs ⟨(h.inb r).cursor_le, (h.inb r).buffered_eq⟩
      (fun hn => by cases hn) fun s' hs' => ?_
    obtain rfl := some.inj hs'
    refine ⟨s, hl, ?_, ?_⟩
    · have hc := ht.linked.credit
      rwa [h.policy_eq] at hc
    · rw [Cell.InPhase, hsr]
      exact .inr (.inl rfl)
  · rw [if_pos (by
      rw [show (c.setState m).state = m from rfl, streamState, hs.lookup_self]
      rfl)]
    have t : Touch c ((c.setState m).modifyIn r fun inb => { inb with eof := true }) r :=
      (Touch.setState hs).trans (.modifyIn _ r _)
    have t' := Touch.setRoute ((c.setState m).modifyIn r fun inb => { inb with eof := true }) r none
    rw [t.id_eq] at t'
    refine h.touch ht.held (t.trans t') ?_ (fun _ => ⟨update_self _ _ _,
      h.waiter_none ht.held (by rw [hsr]; rintro ⟨⟩)⟩) fun s' hl' => ?_
    · simp only [setRoute, modifyIn, modify, update_self]
      exact ⟨(h.inb r).cursor_le, (h.inb r).buffered_eq⟩
    · cases hs.lookup_self.symm.trans hl'

lemma inv_reset {code : UInt8} (ht : c.Tied r s) (hs : c.state.Shift m (c.idOf r) none out) :
    Inv policy ((c.setState m).handleEvent acceptor (.reset (c.idOf r) code)) := by
  by_cases ho : (c.cell r).holder = .opening
  · have hw : (c.setState m).openWaiters (c.idOf r) = some r := ht.waiter.trans (if_pos ho)
    simp only [handleEvent, hw]
    refine h.fault ht.held (((Touch.setState hs).trans (.setWaiter none)).trans
      (.release .gone)) ?_ hs.lookup_self ht.route (update_self _ _ _) code
    simp [release, modify, setWaiter, setState]
  · have hw : (c.setState m).openWaiters (c.idOf r) = none := ht.waiter.trans (if_neg ho)
    simp only [handleEvent, hw]
    exact h.fault ht.held (.setState hs) rfl hs.lookup_self ht.route hw code

lemma inv_event {ev : MuxEvent} (hb : f.Bounded) (hs : c.state.Shift m f.streamId b out)
    (hon : f.command = .begin → c.state.streams.lookup f.streamId = none →
      c.Unheld f.streamId ∧ (acceptor = true ∨ c.Room))
    (ht : RecvStep c.state.policy.initialWindow owned full f (c.state.streams.lookup f.streamId) b
      out e (some ev)) : Inv policy ((c.setState m).handleEvent acceptor ev) := by
  have hln : f.body.length < 2 ^ 32 := by
    have := hb.2
    simp only [maxMuxFrameLen] at this
    omega
  have hlv := h.live f.streamId
  generalize ha : c.state.streams.lookup f.streamId = a at ht hon
  cases ht with
  | incoming t hf ho =>
    rw [h.policy_eq] at hs
    exact inv_incoming h hb.1 hs ha (hon hf rfl).1 (hon hf rfl).2
  | established s hf hst =>
    obtain ⟨hid, r, hr, ht⟩ := hlv s ha
    rw [← hr] at hs hid ⊢
    exact inv_established h ht hid hst hs
  | surfaced s hf hst hw =>
    obtain ⟨hid, r, hr, ht⟩ := hlv s ha
    rw [← hr] at hs ha ⊢
    exact inv_data h ht ha hln hw hs
  | credited s hf hl =>
    obtain ⟨hid, r, hr, ht⟩ := hlv s ha
    rw [← hr] at hs hid
    refine h.touch ht.held (.setState hs) (h.inb r) (fun hn => ?_) fun s' hl' => ?_
    · cases hs.lookup_self.symm.trans hn
    · obtain rfl := some.inj (hs.lookup_self.symm.trans hl')
      exact ⟨hid, ht.route, ht.waiter, { ht.linked with }⟩
  | ended s hf hst =>
    obtain ⟨hid, r, hr, ht⟩ := hlv s ha
    rw [← hr] at hs ha ⊢
    exact inv_peerEndLocal h ht ha hs (.inl ⟨hst, rfl⟩)
  | endedLast s hf hst =>
    obtain ⟨hid, r, hr, ht⟩ := hlv s ha
    rw [← hr] at hs ha ⊢
    exact inv_peerEndLocal h ht ha hs (.inr ⟨hst, rfl⟩)
  | wasReset s hf =>
    obtain ⟨hid, r, hr, ht⟩ := hlv s ha
    rw [← hr] at hs ⊢
    exact inv_reset h ht hs

lemma inv_handleFrame (hb : f.Bounded)
    (ho : f.command = .begin → c.state.streams.lookup f.streamId = none →
      c.Unheld f.streamId ∧ (acceptor = true ∨ c.Room)) :
    Inv policy (c.handleFrame f acceptor) := by
  obtain ⟨b, out, e, hs, ht, -, -⟩ := c.state.recv_cases f
  simp only [handleFrame]
  generalize c.state.recv f = p at hs ht
  obtain ⟨err | ev, m⟩ := p
  · exact inv_error h hs ht
  · exact inv_event h hb hs ho ht

end Reader

lemma inv_open (h : Inv policy c) (target : MuxTarget)
    (hu : ∀ id ∈ c.state.role.allocate c.state.next, c.Unheld id) :
    Inv policy (c.open target).2 := by
  rcases c.state.openLocal_spec target with
    ⟨err, he, next, hs⟩ | ⟨id, body, hr, ha, -, hb, hrm⟩
  · have hr : c.open target =
        (.error (mapOpenErr err), c.setState { c.state with next := next }) := by
      rw [Conn.open, ← Prod.mk.eta (p := c.state.openLocal target), he, hs]
    rw [hr]
    exact h.setState rfl fun _ => rfl
  · have hr' : c.open target = (.ok c.count,
        ((c.setState (c.state.opened id body)).share id .opening).setWaiter id (some c.count)) := by
      rw [Conn.open, hr]
    rw [hr']
    exact h.share .opening (shift_opened hb hrm) hb.1 (hu id ha)
      (congrArg MuxPolicy.initialWindow h.policy_eq) rfl

end Conn

end Mirage.Mux
