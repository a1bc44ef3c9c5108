import Mirage.Proofs.MuxDelivery

/-!
# Credit on a stream

Credit, data in flight and window updates on their way back make up the receiver's window
(`Conserved`).
-/

namespace Mirage.Mux

open Words Runs View Log StreamRole Option UInt32

def deltas (F : List MuxFrame) : ℕ :=
  (F.map fun f => if f.command = .windowUpdate then beNat f.body else 0).sum

@[simp] lemma deltas_nil : deltas [] = 0 := rfl

@[simp] lemma deltas_cons (f : MuxFrame) (F : List MuxFrame) :
    deltas (f :: F) = (if f.command = .windowUpdate then beNat f.body else 0) + deltas F := by
  simp [deltas]

@[simp] lemma deltas_append (F G : List MuxFrame) : deltas (F ++ G) = deltas F + deltas G := by
  simp [deltas]

lemma deltas_eq_zero {F : List MuxFrame} (h : ¬Has .windowUpdate F) : deltas F = 0 := by
  induction F with
  | nil => rfl
  | cons f F ih =>
    rw [has_cons, not_or] at h
    rw [deltas_cons, if_neg h.1, ih h.2]

lemma beNat_lt_size {bs : Bytes} (h : bs.length = 4) : beNat bs < 2 ^ 32 := by
  have hlt := beNat_lt bs
  rwa [h] at hlt

lemma toNat_ofNat_length {n : ℕ} (h : n ≤ maxMuxFrameBody) : (UInt32.ofNat n).toNat = n :=
  toNat_ofNat_of_lt' (lt_of_le_of_lt h (by decide))

lemma toNat_eq_min (x : UInt32) : x.toNat = min x.toNat (2 ^ 32 - 1) :=
  (min_eq_left (Nat.le_pred_of_lt x.toNat_lt)).symm

section Tables

variable {w id : UInt32} {a b : Option Stream} {out : List MuxFrame} {e : Effect}
  {ev : Option MuxEvent} {l : Log}
  {owned : Prop} {f : MuxFrame}

section

variable (h : CallStep w id a b out e)

include h

lemma CallStep.small : ∀ f ∈ out, f.command = .data → f.body.length ≤ maxMuxFrameBody := by
  cases h <;> simp_all

lemma CallStep.sized : ∀ f ∈ out, f.command = .windowUpdate → f.body.length = 4 := by
  cases h <;> simp_all

lemma CallStep.sendCredit (he : e ≠ .opened) :
    ∀ s' ∈ b, ∃ s ∈ a, s'.sendCredit.toNat + (dataOf out).length = s.sendCredit.toNat := by
  cases h with
  | opened => exact absurd rfl he
  | sent s chunk hs hc hb =>
    simp only [mem_def, some.injEq, forall_eq', exists_eq_left', dataOf_cons, if_true,
      dataOf_nil, List.append_nil, toNat_satSub, toNat_ofNat_length hb]
    omega
  | _ => simp

lemma CallStep.data_le (he : e ≠ .opened) : ∃ s ∈ a, (dataOf out).length ≤ s.sendCredit.toNat := by
  cases h <;> simp_all

lemma CallStep.recvWindow (he : e ≠ .opened) : ∀ s' ∈ b, ∃ s ∈ a,
      s'.recvWindow.toNat = min (s.recvWindow.toNat + deltas out) (2 ^ 32 - 1) := by
  cases h with
  | opened => exact absurd rfl he
  | granted s delta =>
    have hd : beNat (beBytes 4 delta.toNat) = delta.toNat := beNat_beBytes delta.toNat_lt
    simp [hd]
  | aborted | endedLast => simp
  | _ => simpa using toNat_eq_min _

lemma CallStep.answers (ha : stateOf a = some .synReceived)
    (hb : stateOf b = some .open) (ho : out ≠ []) : Has .beginOk out := by
  cases h <;> simp_all

lemma CallStep.granted_eq (he : e ≠ .opened) :
    (l.after e).granted = l.granted + deltas out ∧ (l.after e).credited = l.credited := by
  cases h with
  | opened => exact absurd rfl he
  | granted s delta =>
    have hd : beNat (beBytes 4 delta.toNat) = delta.toNat := beNat_beBytes delta.toNat_lt
    simp [after, hd]
  | _ => simp [after]

end

def MuxFrame.delta (f : MuxFrame) : ℕ := if f.command = .windowUpdate then beNat f.body else 0

variable (h : RecvStep w owned False f a b out e ev)

include h

lemma RecvStep.sendCredit (hf : f.command = .windowUpdate → f.body.length = 4) :
    ∀ s' ∈ b, (∃ s ∈ a, s'.sendCredit.toNat = min (s.sendCredit.toNat + f.delta) (2 ^ 32 - 1) ∧
      (l.after e).credited = l.credited + f.delta) ∨
      a = none ∧ f.command = .begin ∧ s'.sendCredit = w ∧ s'.recvWindow = w ∧ e = .quiet := by
  intro s' hs'
  cases h with
  | ignored _ hi =>
    rcases a with _ | s
    · cases hs'
    obtain rfl := some.inj hs'
    have hd : f.delta = 0 := if_neg fun hw => by
      simp only [Ignored, hw] at hi
      exact hi (hf hw)
    exact .inl ⟨s, rfl, by simpa [hd] using toNat_eq_min _, by simp [hd, after]⟩
  | refused _ code hb =>
    have hd : f.delta = 0 := if_neg (by rw [hb]; rintro ⟨⟩)
    exact .inl ⟨s', hs', by simpa [hd] using toNat_eq_min _, by simp [hd, after]⟩
  | incoming t hb ho =>
    obtain rfl := some.inj hs'
    exact .inr ⟨rfl, hb, rfl, rfl, rfl⟩
  | credited s hw hl =>
    obtain rfl := some.inj hs'
    have hlt := beNat_lt_size hl
    have hd : f.delta = beNat f.body := if_pos hw
    refine .inl ⟨s, rfl, ?_, ?_⟩
    · rw [toNat_satAdd, toNat_ofNat_of_lt' hlt, hd]
    · rw [hd, after, toNat_ofNat_of_lt' hlt]
  | established s hb hs | surfaced s hb hs | ended s hb hs =>
    obtain rfl := some.inj hs'
    have hd : f.delta = 0 := if_neg (by rw [hb]; rintro ⟨⟩)
    exact .inl ⟨s, rfl, by simpa [hd] using toNat_eq_min _, by simp [hd, after]⟩
  | overSent | endedLast | wasReset => cases hs'

lemma RecvStep.credited_le :
    l.credited ≤ (l.after e).credited ∧ (l.after e).credited ≤ l.credited + f.delta ∧
      (l.after e).granted = l.granted := by
  cases h with
  | credited s hw hl =>
    have hd : f.delta = beNat f.body := if_pos hw
    rw [hd, after, toNat_ofNat_of_lt' (beNat_lt_size hl)]
    exact ⟨Nat.le_add_right _ _, le_rfl, rfl⟩
  | _ => simp [after]

lemma RecvStep.recvWindow (hf : f.command = .data → f.body.length ≤ maxMuxFrameBody) :
    ∀ s' ∈ b, (∃ s ∈ a, s'.recvWindow.toNat + (l.after e).surfaced.length
      = s.recvWindow.toNat + l.surfaced.length) ∨
      a = none ∧ f.command = .begin ∧ s'.sendCredit = w ∧ s'.recvWindow = w ∧ e = .quiet := by
  intro s' hs'
  cases h with
  | incoming t hb ho =>
    obtain rfl := some.inj hs'
    exact .inr ⟨rfl, hb, rfl, rfl, rfl⟩
  | surfaced s hd hs hw =>
    obtain rfl := some.inj hs'
    rw [le_iff_toNat_le, toNat_ofNat_length (hf hd)] at hw
    refine .inl ⟨s, rfl, ?_⟩
    simp only [after, List.length_append, toNat_satSub, toNat_ofNat_length (hf hd)]
    omega
  | ignored | refused => exact .inl ⟨s', hs', rfl⟩
  | established s | credited s | ended s =>
    obtain rfl := some.inj hs'
    exact .inl ⟨s, rfl, rfl⟩
  | overSent | endedLast | wasReset => cases hs'

end Tables

/-- The window and the credit of one direction, and what is in between. -/
structure Credit (W : ℕ) (a b : Option Stream) (F G : List MuxFrame) (l l' : Log) : Prop where
  small : ∀ f ∈ F, f.command = .data → f.body.length ≤ maxMuxFrameBody
  sized : ∀ f ∈ G, f.command = .windowUpdate → f.body.length = 4
  window : ∀ s ∈ b, s.recvWindow.toNat + l'.surfaced.length = W + l'.granted
  credit : ∀ s ∈ a, s.sendCredit.toNat + l.consumed.length = W + l.credited
  spent : l.consumed.length ≤ W + l.credited
  updates : l.credited + deltas G ≤ l'.granted
  heard : ∀ s ∈ a, l.credited + deltas G = l'.granted

namespace Credit

variable {W : ℕ} {w id : UInt32} {a a' b b' : Option Stream} {F G out rest : List MuxFrame}
  {e : Effect} {ev : Option MuxEvent} {l l' : Log} {owned : Prop} {f : MuxFrame}

lemma call_send (h : Credit W a b F G l l') (hc : CallStep w id a a' out e) (he : e ≠ .opened) :
    Credit W a' b (F ++ out) G (l.after e) l' := by
  obtain ⟨-, hcr⟩ := hc.granted_eq (l := l) he
  have hcn := congrArg List.length (hc.consumed_eq (l := l) he)
  rw [List.length_append] at hcn
  refine ⟨?_, h.sized, h.window, fun s' hs' => ?_, ?_, ?_, fun s' hs' => ?_⟩
  · intro f hf
    exact (List.mem_append.1 hf).elim (h.small f) (hc.small f)
  · obtain ⟨s, hs, heq⟩ := hc.sendCredit he s' hs'
    have := h.credit s hs
    omega
  · obtain ⟨s, hs, hle⟩ := hc.data_le he
    have := h.credit s hs
    omega
  · rw [hcr]
    exact h.updates
  · obtain ⟨s, hs, -⟩ := hc.sendCredit he s' hs'
    rw [hcr]
    exact h.heard s hs

lemma call_read (h : Credit W a b F G l l') (hc : CallStep w id b b' out e) (he : e ≠ .opened)
    (hW : W < 2 ^ 32) (hg : (l'.after e).granted ≤ (l'.after e).surfaced.length) :
    Credit W a b' F (G ++ out) l (l'.after e) := by
  obtain ⟨hgr, -⟩ := hc.granted_eq (l := l') he
  obtain ⟨hsr, -⟩ := hc.read_eq he
  refine ⟨h.small, ?_, fun s' hs' => ?_, h.credit, h.spent, ?_, fun s hs => ?_⟩
  · intro f hf
    exact (List.mem_append.1 hf).elim (h.sized f) (hc.sized f)
  · obtain ⟨s, hs, heq⟩ := hc.recvWindow he s' hs'
    have hw := h.window s hs
    rw [hsr] at hg ⊢
    omega
  · have := h.updates
    rw [deltas_append]
    omega
  · have := h.heard s hs
    rw [deltas_append]
    omega

lemma recv_send (h : Credit W a b F (f :: rest) l l')
    (hr : RecvStep w owned False f a a' out e ev) (hW : W < 2 ^ 32) (hw : w.toNat = W)
    (hg : l'.granted ≤ l.consumed.length) (hnw : f.command = .begin → l.consumed = []) :
    Credit W a' b (F ++ out) rest (l.after e) l' := by
  have hc := hr.consumed_eq (l := l)
  obtain ⟨hlo, hhi, -⟩ := hr.credited_le (l := l)
  have hsz := h.sized f List.mem_cons_self
  have hu := h.updates
  have hdl : deltas (f :: rest) = f.delta + deltas rest := deltas_cons f rest
  have hsp := h.spent
  refine ⟨?_, fun g hg => h.sized g (List.mem_cons_of_mem _ hg), h.window, fun s' hs' => ?_, ?_, ?_,
    fun s' hs' => ?_⟩
  · intro g hg
    refine (List.mem_append.1 hg).elim (h.small g) fun ho hd => ?_
    exact absurd ⟨g, ho, hd⟩ (hr.no_out nofun)
  · rw [hc]
    rcases hr.sendCredit (l := l) hsz s' hs' with ⟨s, hs, heq, hcr⟩ | ⟨-, hb, hcr, -, rfl⟩
    · have := h.credit s hs
      omega
    have hn := hnw hb
    rw [hn] at hg ⊢
    simp only [List.length_nil, after] at hg ⊢
    rw [hcr]
    omega
  · rw [hc]
    omega
  · omega
  · rcases hr.sendCredit (l := l) hsz s' hs' with ⟨s, hs, -, hcr⟩ | ⟨-, hb, -, -, rfl⟩
    · have := h.heard s hs
      omega
    · have hn := hnw hb
      rw [hn] at hg
      simp only [List.length_nil, after] at hg ⊢
      omega

lemma recv_read (h : Credit W a b (f :: rest) G l l') (hr : RecvStep w owned False f b b' out e ev)
    (hw : w.toNat = W) (hg : l'.granted ≤ l'.surfaced.length)
    (hp : l'.surfaced.length ≤ l.consumed.length) (hn : f.command = .begin → l.consumed = []) :
    Credit W a b' rest (G ++ out) l (l'.after e) := by
  obtain ⟨-, -, hgr⟩ := hr.credited_le (l := l')
  have hsm := h.small f List.mem_cons_self
  have hot := deltas_eq_zero (hr.no_out nofun)
  refine ⟨fun g hg => h.small g (List.mem_cons_of_mem _ hg), ?_, fun s' hs' => ?_, h.credit,
    h.spent, ?_, fun s hs => ?_⟩
  · intro g hg
    refine (List.mem_append.1 hg).elim (h.sized g) fun ho hu => ?_
    exact absurd ⟨g, ho, hu⟩ (hr.no_out nofun)
  · rcases hr.recvWindow (l := l') hsm s' hs' with ⟨s, hs, heq⟩ | ⟨-, hb, -, hwn, rfl⟩
    · have := h.window s hs
      omega
    · have hnl := hn hb
      rw [hnl] at hp
      simp only [List.length_nil] at hp
      simp only [after, hwn]
      omega
  · rw [deltas_append, hot, hgr]
    exact h.updates
  · rw [deltas_append, hot, hgr]
    exact h.heard s hs

end Credit

def View.Within (v : View) : Prop := ∀ r, (v.log r).granted ≤ (v.log r).surfaced.length

/-- Credit is conserved either way. -/
def Balanced (W : ℕ) (v : View) : Prop :=
  ∀ r, Credit W (v.ent r) (v.ent r.peer) (v.fly r.peer) (v.fly r) (v.log r) (v.log r.peer)

/-- An accepted stream has its `BeginOk` on the way. -/
def Answered (X : StreamRole) (v : View) : Prop :=
  stateOf (v.ent X) = some .synSent → stateOf (v.ent X.peer) = none ∨
    stateOf (v.ent X.peer) = some .synReceived ∨ Has .beginOk (v.fly X)

variable {r : StreamRole} {s : Stream}

section Steps

variable {window : StreamRole → UInt32} {W : ℕ} {id : UInt32} {v v' : View} {X : StreamRole}

lemma Wf.surfaced_le (h : Wf X v) (r : StreamRole) :
    (v.log r.peer).surfaced.length ≤ (v.log r).consumed.length := by
  rcases X.eq_or_eq_peer r with rfl | rfl
  · exact h.forward.surfaced_prefix.length_le
  · rw [peer_peer]
    exact h.back.surfaced_prefix.length_le

variable {f : MuxFrame} {rest : List MuxFrame} {s' : Stream}

lemma Wf.consumed_nil (h : Wf X v) (hf : v.fly r = f :: rest)
    (hb : f.command = .begin) (r' : StreamRole) : (v.log r').consumed = [] := by
  have he : Has .begin (v.fly X.peer) := by
    rcases X.eq_or_eq_peer r with rfl | rfl
    · exact absurd (hf ▸ has_cons.2 (.inl hb)) h.handshake.back
    · exact hf ▸ has_cons.2 (.inl hb)
  have hn := (h.handshake.early (.inl he)).consumed
  rcases X.eq_or_eq_peer r' with rfl | rfl
  · exact hn.1
  · exact hn.2

lemma balanced_step (hW : ∀ r, (window r).toNat = W) (hwf : Wf X v) (hg : v.Within)
    (h : Balanced W v) (hs : StreamStep window id False v v') (hg' : v'.Within) :
    Balanced W v' := by
  have hlt : W < 2 ^ 32 := by
    rw [← hW]
    exact (window .initiator).toNat_lt
  cases hs with
  | opened r body hr hv =>
    intro r'
    rcases r.eq_or_eq_peer r' with rfl | rfl
    · exact ⟨by simp, by simp, by simp, by simp [hW], by simp, by simp, by simp⟩
    · exact ⟨by simp, by simp, by simp [hW], by simp, by simp, by simp, by simp⟩
  | call r b out e hc he hm =>
    intro r'
    rcases r.eq_or_eq_peer r' with rfl | rfl
    · simp only [move_ent, move_ent_peer, move_fly, move_fly_peer, move_log, move_log_peer]
      exact (h r').call_send hc he
    have hgr := hg' r
    rw [move_log] at hgr
    have ho := h r.peer
    simp only [peer_peer, move_ent, move_ent_peer, move_fly,
      move_fly_peer, move_log, move_log_peer] at ho ⊢
    exact ho.call_read hc he hlt hgr
  | recv r f rest b out e ev hf hr =>
    intro r'
    rcases r.eq_or_eq_peer r' with rfl | rfl
    · have ho := h r'
      rw [hf] at ho
      simp only [move_ent, move_ent_peer, move_fly, move_fly_peer, move_log, move_log_peer, pop_ent,
        pop_fly, pop_fly_peer, pop_log]
      exact ho.recv_send hr hlt (hW r') ((hg r'.peer).trans (hwf.surfaced_le r'))
        fun hb => hwf.consumed_nil hf hb r'
    · have ho := h r.peer
      have hp := hwf.surfaced_le r.peer
      simp only [peer_peer, move_ent, move_ent_peer, move_fly, move_fly_peer, move_log,
        move_log_peer, pop_ent, pop_fly, pop_fly_peer, pop_log] at ho hp ⊢
      rw [hf] at ho
      exact ho.recv_read hr (hW r) (hg r) hp fun hb => hwf.consumed_nil hf hb r.peer

lemma answered_step (hX : ∀ r, r.owns id = true → r = X) (hwf : Wf X v)
    (h : Answered X v) (hs : StreamStep window id False v v') : Answered X v' := by
  cases hs with
  | opened r body hr hv =>
    obtain rfl := hX r hr
    intro _
    simp
  | call r b out e hc he hm =>
    have hst := hc.state_cases he
    rcases X.eq_or_eq_peer r with rfl | rfl
    · simp only [Answered, move_ent, move_ent_peer, move_fly]
      intro hx
      refine h ?_
      rcases hst with h1 | h1 | ⟨-, h1⟩ | ⟨-, h1⟩ <;> simp_all
    have hfl := move_fly_peer (v := v) (r := X.peer) b out e
    have hen := move_ent_peer (v := v) (r := X.peer) b out e
    rw [peer_peer] at hfl hen
    simp only [Answered, move_ent, hfl, hen, has_append]
    intro hx
    have ho := h hx
    rcases hst with h1 | h1 | ⟨h1, -⟩ | ⟨h1, h2⟩
    · exact .inl h1
    · rw [h1]
      tauto
    · exact .inr (.inr (.inl (by simpa [h1] using ho)))
    · exact .inr (.inr (.inr (hc.answers h1 h2 hm)))
  | recv r f rest b out e ev hf hr =>
    have hst := hr.state_cases
    rcases X.eq_or_eq_peer r with rfl | rfl
    · simp only [Answered, move_ent, move_ent_peer, move_fly, pop_ent, pop_fly]
      intro hx'
      have hx : stateOf (v.ent r) = some .synSent := by
        rcases hst with h1 | h1 | ⟨-, h1, -⟩ | ⟨-, h1, -⟩ | ⟨-, h1, -⟩ <;> simp_all
      have hok : f.command ≠ .beginOk := fun hok => by
        simp [hr.of_beginOk hok hx] at hx'
      have ho := h hx
      rwa [hf, has_cons, or_iff_right hok] at ho
    · have hfl := move_fly_peer (v := v.pop X.peer rest) (r := X.peer) b out e
      have hen := move_ent_peer (v := v.pop X.peer rest) (r := X.peer) b out e
      have hp := pop_fly_peer (v := v) (r := X.peer) rest
      rw [peer_peer] at hfl hen hp
      simp only [Answered, move_ent, hfl, hen, hp, pop_ent, has_append]
      intro hx
      have ho := h hx
      rcases hst with h1 | h1 | ⟨-, h1, -⟩ | ⟨h1, -⟩ | ⟨h1, -⟩
      · exact .inl h1
      · rw [h1]
        tauto
      · exact .inr (.inl h1)
      · exact absurd h1 hwf.handshake.y_state.1
      · exact .inr (.inr (.inl (by simpa [h1] using ho)))

lemma sent_eq_of_held (hwf : Wf X v) (ha : Answered X v) (hs : v.ent r = some s)
    (hs' : v.ent r.peer = some s') :
    (v.log r.peer).surfaced ++ dataOf (v.fly r.peer) = (v.log r).consumed := by
  rcases X.eq_or_eq_peer r with rfl | rfl
  · refine hwf.forward.deliver.resolve_right fun hd => ?_
    simp [DeadAcceptor, hs'] at hd
  rw [peer_peer] at hs' ⊢
  refine hwf.back.deliver.resolve_right fun ⟨_, hd⟩ => ?_
  obtain ⟨hx, hB, hy, -⟩ := hd.resolve_left (by simp [hs'])
  have han := ha hx
  simp_all

lemma conserved (h : Balanced W v) (hwf : Wf X v) (ha : Answered X v)
    (hs : v.ent r = some s) (hs' : v.ent r.peer = some s') :
    s.sendCredit.toNat + (dataOf (v.fly r.peer)).length + deltas (v.fly r)
      = s'.recvWindow.toNat := by
  have hsn := congrArg List.length (sent_eq_of_held hwf ha hs hs')
  rw [List.length_append] at hsn
  have hw := (h r).window s' hs'
  have hc := (h r).credit s hs
  have hh := (h r).heard s hs
  omega

lemma fits (h : Balanced W v) (hwf : Wf X v) (hf : v.fly r = f :: rest) (hd : f.command = .data)
    (hs : v.ent r = some s) (hst : s.state = .open ∨ s.state = .halfClosedLocal) :
    UInt32.ofNat f.body.length ≤ s.recvWindow := by
  have hb := h r.peer
  rw [peer_peer, hf] at hb
  have hsn : (v.log r).surfaced ++ dataOf (v.fly r) = (v.log r.peer).consumed := by
    rcases X.eq_or_eq_peer r with rfl | rfl
    · refine hwf.back.deliver.resolve_right fun ⟨_, hdd⟩ => ?_
      rcases hdd with h1 | ⟨h1, -⟩ <;> simp_all
    · rw [peer_peer]
      refine hwf.forward.deliver.resolve_right fun ⟨_, hdd⟩ => ?_
      simp [DeadAcceptor, hs] at hdd
  have hl := congrArg List.length hsn
  rw [hf, dataOf_cons, if_pos hd, List.length_append, List.length_append] at hl
  have hw := hb.window s hs
  have hsp := hb.spent
  have hu := hb.updates
  rw [le_iff_toNat_le, toNat_ofNat_length (hb.small f List.mem_cons_self hd)]
  omega

end Steps

namespace Net

variable {policy : StreamRole → MuxPolicy} {W : UInt32} {n : Net}

/-- Either way, the sender's credit and what is in flight make up the receiver's window. -/
def Conserved (n : Net) : Prop := ∀ r id, ∀ s ∈ (n.side r).streams.lookup id,
  ∀ s' ∈ (n.side r.peer).streams.lookup id,
  s.sendCredit.toNat + (dataOf (n.inFlight r.peer id)).length + deltas (n.inFlight r id)
    = s'.recvWindow.toNat

/-- Data that arrives is within the window. -/
def NoOverSend (n : Net) : NetEvent → Prop
  | .deliver r => ∀ f ∈ (n.chan r).head?, f.command = .data →
      ∀ s ∈ (n.side r).streams.lookup f.streamId, (s.state = .open ∨ s.state = .halfClosedLocal) →
      UInt32.ofNat f.body.length ≤ s.recvWindow
  | _ => True

/-- An end grants no more than it surfaced. -/
def GrantWithin (n : Net) : NetEvent → Prop
  | .call r (.grantCredit id delta) =>
    let l := (n.step (.call r (.grantCredit id delta))).log r id
    l.granted ≤ l.surfaced.length
  | _ => True

instance (n : Net) : DecidablePred n.GrantWithin := fun ev => by
  unfold GrantWithin
  split <;> infer_instance

lemma within_logged {log : StreamRole → UInt32 → Log} {eff : UInt32 × Effect}
    (h : ∀ r id, (log r id).granted ≤ (log r id).surfaced.length) (hg : ∀ d, eff.2 = .granted d →
      (logged log r eff r eff.1).granted ≤ (logged log r eff r eff.1).surfaced.length)
    (r' : StreamRole) (id : UInt32) :
    (logged log r eff r' id).granted ≤ (logged log r eff r' id).surfaced.length := by
  by_cases hin : id = eff.1 ∧ (r' = r ∨ eff.2 = .opened)
  · have ho := h r' id
    rcases he : eff.2 with _ | _ | bytes | d | bytes | _ | d
    case granted =>
      obtain ⟨rfl, hr | hr⟩ := hin
      · exact hr ▸ hg d he
      · simp [he] at hr
    case surfaced =>
      rw [logged, if_pos hin, he]
      simp only [after, List.length_append]
      omega
    case opened =>
      rw [logged, if_pos hin, he]
      exact le_rfl
    all_goals
      rw [logged, if_pos hin, he]
      exact ho
  · rw [logged, if_neg hin]
    exact h r' id

lemma effect_granted {c : MuxCall} {rep : Except MuxStateError MuxReply} {d : ℕ}
    (h : (c.effect rep).2 = .granted d) :
    ∃ id delta, c = .grantCredit id delta ∧ (c.effect rep).1 = id := by
  unfold MuxCall.effect at h ⊢
  split at h
  · cases h
  · cases h
  · exact ⟨_, _, rfl, rfl⟩
  · cases h

lemma recvEffect_ne_granted (rep : Except MuxStateError MuxEvent) (d : ℕ) :
    (recvEffect rep).2 ≠ .granted d := by
  rcases rep with _ | ev
  · nofun
  · cases ev <;> nofun

lemma within_step (ev : NetEvent) (h : ∀ id, (n.view id).Within) (hg : n.GrantWithin ev) :
    ∀ id, ((n.step ev).view id).Within := by
  have ha : ∀ r id, (n.log r id).granted ≤ (n.log r id).surfaced.length := fun r id => h id r
  intro id r'
  cases ev with
  | call r c =>
    refine within_logged ha (fun d hd => ?_) r' id
    obtain ⟨j, delta, rfl, hj⟩ := effect_granted hd
    rw [hj]
    exact hg
  | deliver r =>
    rcases hf : n.chan r with _ | ⟨f, rest⟩
    · simpa only [step, hf] using h id r'
    · rw [step_deliver hf]
      exact within_logged ha (fun d hd => absurd hd (recvEffect_ne_granted _ d)) r' id

structure CreditInv (policy : StreamRole → MuxPolicy) (W : UInt32) (n : Net) : Prop where
  wf : WfAll policy n
  within : ∀ id, (n.view id).Within
  balanced : ∀ id, Balanced W.toNat (n.view id)
  answered : ∀ id, Answered (.opener id) (n.view id)

/-- Grants are within what was received, ids are not used again, and an `accept` finds room. -/
def Careful (n : Net) (ev : NetEvent) : Prop :=
  n.GrantWithin ev ∧ n.FreshOpen ev ∧ n.RoomToAccept ev

instance (n : Net) : DecidablePred n.Careful := fun ev => by
  unfold Careful
  infer_instance

lemma creditInv_init (policy : StreamRole → MuxPolicy) (W : UInt32) :
    CreditInv policy W (init policy) where
  wf := wfAll_init policy
  within _ _ := le_rfl
  balanced id r := by
    obtain ⟨he, hf⟩ := forall_and.1 (noTrace_init policy id)
    simp only [he, hf]
    exact ⟨by simp, by simp, by simp, by simp, by simp [view, init], by simp [view, init], by simp⟩
  answered id h := by
    cases h

lemma CreditInv.noOverSend (h : CreditInv policy W n) (ev : NetEvent) : n.NoOverSend ev := by
  cases ev with
  | call r c => trivial
  | deliver r =>
    intro f hf hd s hs hst
    obtain ⟨rest, hc⟩ := List.head?_eq_some_iff.1 hf
    obtain ⟨fly, hfl, -⟩ := view_pop hc
    rw [if_pos rfl] at hfl
    exact fits (h.balanced f.streamId) (h.wf.2 f.streamId) hfl hd hs hst

lemma creditInv_step (hW : ∀ r, (policy r).initialWindow = W) (n : Net) (ev : NetEvent)
    (h : CreditInv policy W n) (hev : n.Careful ev) : CreditInv policy W (n.step ev) := by
  obtain ⟨hg, hfr, ha⟩ := hev
  -- nothing overruns a window, so no overrun finds the queue full
  have hr : n.RoomToReset ev := by
    have hft := h.noOverSend ev
    cases ev with
    | call r c => trivial
    | deliver r =>
      exact fun f hf hd s hs hst hlt => absurd hlt (UInt32.not_lt.2 (hft f hf hd s hs hst))
  have hw := within_step ev h.within hg
  refine ⟨wfAll_step n ev h.wf ⟨hfr, hr⟩, hw, fun id => ?_, fun id => ?_⟩ <;>
    rcases step_view False h.wf.1 ev hfr (.inr ha) hr with hsm | hs
  · rw [hsm]
    exact h.balanced id
  · exact balanced_step (fun r => by rw [hW]) (h.wf.2 id) (h.within id) (h.balanced id) hs (hw id)
  · rw [hsm]
    exact h.answered id
  · exact answered_step (fun r => eq_opener) (h.wf.2 id) (h.answered id) hs

/-- Ends that grant no more than they received never over-send. -/
theorem conserved_of_careful (policy : StreamRole → MuxPolicy) (W : UInt32)
    (hW : ∀ r, (policy r).initialWindow = W) (evs : List NetEvent)
    (h : Along step Careful (init policy) evs) :
    (run step (init policy) evs).Conserved ∧ Along step NoOverSend (init policy) evs := by
  constructor
  · have hi := inv_run (creditInv_step hW) _ evs (creditInv_init policy W) h
    intro r id s hs s' hs'
    exact conserved (hi.balanced id) (hi.wf.2 id) (hi.answered id) hs hs'
  · exact along_of_inv (creditInv_step hW) (fun n ev hn _ => hn.noOverSend ev) _ evs
      (creditInv_init policy W) h

theorem conserved_of_careful_granted :
    let evs : List NetEvent := [.call .initiator (.openLocal (.ipv4 #v[127, 0, 0, 1] 80)),
      .call .initiator .pendingOutbound, .deliver .responder, .call .responder (.accept 2),
      .call .responder (.sendData 2 [1, 2, 3]), .call .responder .pendingOutbound,
      .deliver .initiator, .deliver .initiator, .call .initiator (.grantCredit 2 2),
      .call .initiator .pendingOutbound]
    (∀ _ : StreamRole, MuxPolicy.default.initialWindow = 65536) ∧
    Along step Careful (init fun _ => .default) evs ∧
    (run step (init fun _ => .default) evs).Conserved ∧
      Along step NoOverSend (init fun _ => .default) evs :=
  ⟨fun _ => rfl, by decide +kernel,
    conserved_of_careful _ 65536 (fun _ => rfl) _ (by decide +kernel)⟩

def muteRun : List NetEvent :=
  [.call .initiator (.openLocal address), .call .initiator .pendingOutbound,
    .call .responder (.openLocal address), .deliver .responder, .call .responder (.accept 2),
    .call .responder .pendingOutbound, .call .responder (.sendData 2 [7]),
    .call .responder .pendingOutbound, .deliver .initiator, .deliver .initiator]

/-- An `accept` with the queue full goes unsaid: credit and window differ. -/
theorem not_conserved_mute :
    ¬ (run step (init fun _ => { MuxPolicy.default with maxPendingOutbound := 1 })
      muteRun).Conserved := by
  intro h
  have hc := h .responder 2 ⟨.open, 65535, 65536, none⟩ (by decide +kernel)
    ⟨.synSent, 65536, 65536, none⟩ (by decide +kernel)
  exact absurd hc (by decide +kernel)

end Net

end Mirage.Mux
