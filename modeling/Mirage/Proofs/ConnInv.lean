import Mirage.Mux.Conn
import Mirage.Proofs.MuxTable

/-!
# The connection driver's invariant

Window, buffered and unacknowledged bytes of a stream add up. Most steps touch one reference and its
id (`Inv.touch`).
-/

namespace Mirage.Mux

open Words Function List Nat

lemma MuxFrame.bounded_of_decodeOne {buf : Bytes} {p : MuxFrame × ℕ}
    (h : MuxFrame.decodeOne buf = .ok p) : p.1.Bounded := by
  unfold decodeOne at h
  split at h
  · simp only at h
    split_ifs at h with hs hl ht hz
    split at h
    · cases h
    obtain rfl := Except.ok.inj h
    refine ⟨hz, ?_⟩
    simp only [muxHeaderLen, length_drop, length_take] at hs ⊢
    omega
  · cases h

namespace InBuf

/-- The cursor is in the first chunk, and the count is of what is left. -/
structure Ok (inb : InBuf) : Prop where
  cursor_le : inb.cursor ≤ (inb.chunks.headD []).length
  buffered_eq : inb.buffered + inb.cursor = inb.chunks.flatten.length

lemma ok_empty : Ok {} := ⟨le_rfl, rfl⟩

lemma Ok.push {inb : InBuf} (h : inb.Ok) (body : Bytes) :
    Ok { inb with buffered := inb.buffered + body.length, chunks := inb.chunks ++ [body] } := by
  obtain ⟨hc, hb⟩ := h
  refine ⟨?_, ?_⟩
  · rcases hch : inb.chunks with _ | ⟨front, rest⟩ <;> rw [hch] at hc
    · exact hc.trans (zero_le _)
    · exact hc
  · simp only [flatten_append, length_append, flatten_singleton]
    omega

lemma read_spec : ∀ chunks n cursor,
    cursor ≤ (chunks.headD []).length →
    (read n chunks cursor).2.1 ≤ ((read n chunks cursor).1.headD []).length ∧
    (read n chunks cursor).2.2.length + (read n chunks cursor).1.flatten.length + cursor
      = chunks.flatten.length + (read n chunks cursor).2.1 ∧
    (read n chunks cursor).2.2.length = min n (chunks.flatten.length - cursor)
  | [], n, cursor, h => by
    have hz : cursor = 0 := le_zero.1 h
    simp [read, hz]
  | front :: rest, n, cursor, h => by
    simp only [headD_cons] at h
    unfold read
    split_ifs with hn
    · simp [hn, h]
    simp only
    have hc : ((front.drop cursor).take (min (front.length - cursor) n)).length
        = min (front.length - cursor) n := by
      rw [length_take, length_drop]
      omega
    split_ifs with hd
    · -- the chunk is used up: the loop goes on at the start of the next
      obtain ⟨hcr, hs, hl⟩ :=
        read_spec rest (n - min (front.length - cursor) n) 0 (zero_le _)
      simp only [length_append, hc, flatten_cons]
      exact ⟨hcr, by omega, by omega⟩
    · simp only [headD_cons, flatten_cons, length_append, hc]
      exact ⟨by omega, by omega, by omega⟩

end InBuf

variable {k : ℕ} {s : Stream} {m : MuxState}

namespace MuxState

variable {m m' m'' : MuxState} {id : UInt32}

def unsent (s : Stream) : Stream := { s with sendCredit := 0 }

/-- At most `k` frames are queued, and only stream `id` is touched. -/
structure Flushed (m m' : MuxState) (id : UInt32) (k : ℕ) : Prop where
  policy_eq : m'.policy = m.policy
  lookup_self : (m'.streams.lookup id).map unsent = (m.streams.lookup id).map unsent
  lookup_ne : ∀ j, j ≠ id → m'.streams.lookup j = m.streams.lookup j
  length_le : m'.outbound.length ≤ m.outbound.length + k

lemma Flushed.refl (m : MuxState) (id : UInt32) (k : ℕ) : Flushed m m id k :=
  ⟨rfl, rfl, fun _ _ => rfl, le_add_right _ _⟩

lemma Flushed.trans {k' : ℕ} (h : Flushed m m' id k) (h' : Flushed m' m'' id k') :
    Flushed m m'' id (k + k') where
  policy_eq := h'.policy_eq.trans h.policy_eq
  lookup_self := h'.lookup_self.trans h.lookup_self
  lookup_ne j hj := (h'.lookup_ne j hj).trans (h.lookup_ne j hj)
  length_le := by
    have := h.length_le
    have := h'.length_le
    omega

lemma Flushed.mono {k' : ℕ} (h : Flushed m m' id k) (hk : k ≤ k') : Flushed m m' id k' :=
  { h with length_le := h.length_le.trans (Nat.add_le_add_left hk _) }

lemma Flushed.none_iff (h : Flushed m m' id k) :
    m'.streams.lookup id = none ↔ m.streams.lookup id = none := by
  rw [← Option.map_eq_none_iff, h.lookup_self, Option.map_eq_none_iff]

lemma Flushed.of_some (h : Flushed m m' id k) (hl : m.streams.lookup id = some s) : ∃ credit,
    m'.streams.lookup id = some { s with sendCredit := credit } := by
  have hs := h.lookup_self
  rw [hl, Option.map_some, Option.map_eq_some_iff] at hs
  obtain ⟨s', hl', hs'⟩ := hs
  refine ⟨s'.sendCredit, hl'.trans (congrArg some ?_)⟩
  simp only [unsent, Stream.mk.injEq, true_and] at hs'
  obtain ⟨h1, h2, h3⟩ := hs'
  rw [← h1, ← h2, ← h3]

/-- Nothing is sent, or a front of the payload as long as frame and credit allow. -/
theorem sendData_spec (m : MuxState) (id : UInt32) (payload : Bytes) :
    ((m.sendData id payload).2 = m ∧ ∀ n, (m.sendData id payload).1 = .ok n → n = 0) ∨
    ∃ n s, (m.sendData id payload).1 = .ok n ∧ n ≠ 0 ∧ n ≤ payload.length ∧
      Flushed m (m.sendData id payload).2 id 1 ∧
      (m.sendData id payload).2.streams.lookup id = some s ∧
      (n = maxMuxFrameBody ∨ n = payload.length ∨ s.sendCredit = 0) := by
  unfold sendData
  rcases hl : m.streams.lookup id with _ | s
  · exact .inl ⟨rfl, nofun⟩
  by_cases hst : s.state = .open ∨ s.state = .halfClosedRemote
  swap
  · simp only [if_pos hst]
    exact .inl ⟨trivial, nofun⟩
  simp only [if_neg (not_not.2 hst)]
  by_cases hz : s.sendCredit = 0
  · simp only [if_pos hz]
    exact .inl ⟨trivial, fun n h => (Except.ok.inj h).symm⟩
  by_cases hk : maxChunk s payload = 0
  · simp only [if_neg hz, if_pos hk]
    exact .inl ⟨trivial, fun n h => (Except.ok.inj h).symm⟩
  simp only [if_neg hz, if_neg hk]
  rcases m.emit_cases id .data (payload.take (maxChunk s payload)) with ⟨err, he, -⟩ | ⟨he, -, -⟩
  · rw [he]
    exact .inl ⟨rfl, nofun⟩
  rw [he]
  have hs := shift_set (m.queued ⟨id, .data, payload.take (maxChunk s payload)⟩) id
    { s with sendCredit := satSub s.sendCredit (UInt32.ofNat (maxChunk s payload)) }
  refine .inr ⟨maxChunk s payload, _, rfl, hk, min_le_right _ _, ⟨rfl, ?_, hs.lookup_ne, ?_⟩,
    hs.lookup_self, ?_⟩
  · rw [hs.lookup_self, hl]
    rfl
  · rw [hs.outbound_eq]
    simp [queued]
  · by_cases hf : maxChunk s payload = s.sendCredit.toNat
    · refine .inr (.inr ?_)
      refine UInt32.toNat_inj.1 ?_
      rw [hf, UInt32.ofNat_toNat, toNat_satSub]
      exact Nat.sub_self _
    · simp only [maxChunk] at hf ⊢
      omega

lemma sendData_spent (hl : m.streams.lookup id = some s) (hc : s.sendCredit = 0) (payload : Bytes) :
    (m.sendData id payload).2 = m ∧ ∀ n, (m.sendData id payload).1 = .ok n → n = 0 := by
  simp only [sendData, hl, hc, if_true]
  split_ifs <;> simp

end MuxState

namespace Conn

open MuxState

variable {m : MuxState} {id : UInt32}

lemma flush_stuck {buf : Bytes} (h : (m.sendData id buf).2 = m)
    (hn : ∀ n, (m.sendData id buf).1 = .ok n → n = 0) (fuel : ℕ) :
    flush fuel m id buf = (m, buf) := by
  rcases fuel with _ | fuel
  · rfl
  unfold flush
  split_ifs with he
  · rfl
  · rcases hr : m.sendData id buf with ⟨err | n, m'⟩ <;> rw [hr] at h hn <;> simp only at h ⊢
    · rw [h]
    · rw [if_pos (hn n rfl), h]

lemma flush_nil (fuel : ℕ) : flush fuel m id [] = (m, []) := by
  cases fuel <;> rfl

lemma flush_spec : ∀ fuel m buf,
    Flushed m (flush fuel m id buf).1 id (buf.length / maxMuxFrameBody + 1) ∧
    (flush fuel m id buf).2.length ≤ buf.length
  | 0, m, buf => ⟨.refl _ _ _, le_rfl⟩
  | fuel + 1, m, buf => by
    rcases m.sendData_spec id buf with ⟨hm, hn⟩ | ⟨n, s, hn, hp, hle, hs, hl, hw⟩
    · rw [flush_stuck hm hn]
      exact ⟨.refl _ _ _, le_rfl⟩
    have hne : buf ≠ [] := by
      rintro rfl
      exact hp (le_zero.1 hle)
    have hst : flush (fuel + 1) m id buf
        = flush fuel (m.sendData id buf).2 id (buf.drop n) := by
      rw [flush, if_neg (by simpa using hne)]
      rw [← Prod.mk.eta (p := m.sendData id buf), hn]
      simp only [if_neg hp]
    have hd : (buf.drop n).length = buf.length - n := length_drop
    rw [hst]
    rcases hw with hw | hw | hw
    · obtain ⟨hr, hln⟩ := flush_spec fuel (m.sendData id buf).2 (buf.drop n)
      refine ⟨(hs.trans hr).mono ?_, by omega⟩
      have hdv := div_eq_sub_div (show 0 < maxMuxFrameBody by decide) (hw ▸ hle)
      rw [hd, hw, hdv]
      omega
    · rw [drop_eq_nil_of_le hw.ge, flush_nil]
      exact ⟨hs.mono (le_add_left 1 _), zero_le _⟩
    · obtain ⟨hm, hz⟩ := sendData_spent hl hw (buf.drop n)
      rw [flush_stuck hm hz]
      exact ⟨hs.mono (le_add_left 1 _), hd.le.trans (sub_le _ _)⟩

end Conn

/-- Who holds the stream, and in which of its states. -/
def Cell.InPhase (k : Cell) (s : Stream) : Prop :=
  match k.holder with
  | .opening => s.state = .synSent
  | .incoming _ => s.state = .synReceived ∧ s.pendingTarget.isSome
  | .stream => s.state = .open ∨ s.state = .halfClosedRemote ∨
      s.state = .halfClosedLocal ∧ k.shared.out.endedSent = true
  | .gone => False

namespace Cell.InPhase

variable {k : Cell} {s : Stream}

lemma opening (h : k.InPhase s) (hs : s.state = .synSent) : k.holder = .opening := by
  unfold InPhase at h
  split at h <;> simp_all

lemma stream (h : k.InPhase s) (h₁ : s.state ≠ .synSent) (h₂ : s.state ≠ .synReceived) :
    k.holder = .stream := by
  unfold InPhase at h
  split at h <;> simp_all

end Cell.InPhase

/-- Window, buffered and unacknowledged bytes make up the initial window. -/
structure Linked (window : UInt32) (s : Stream) (k : Cell) : Prop where
  credit : s.recvWindow.toNat + k.shared.inb.buffered + k.shared.inb.unacked.toNat = window.toNat
  phase : k.InPhase s
  ended : k.shared.out.endedSent = true → k.endQueued = true
  quiet : k.holder ≠ .stream → k.shared.out.ending = false

namespace Conn

open MuxState

variable {c c' : Conn} {r : ℕ} {id : UInt32} {policy : MuxPolicy}

def Held (c : Conn) (r : ℕ) : Prop := (c.cell r).holder ≠ .gone
deriving Decidable

/-- The maps lead from the stream's id to its buffers. -/
structure Tied (c : Conn) (r : ℕ) (s : Stream) : Prop where
  route : c.streams (c.idOf r) = some r
  waiter : c.openWaiters (c.idOf r) = if (c.cell r).holder = .opening then some r else none
  linked : Linked c.state.policy.initialWindow s (c.cell r)

lemma Tied.held (h : c.Tied r s) : c.Held r := by
  intro hg
  have := h.linked.phase
  rw [Cell.InPhase, hg] at this
  exact this

/-- A stream in the state is tied to the newest reference of its id. -/
structure Inv (policy : MuxPolicy) (c : Conn) : Prop where
  policy_eq : c.state.policy = policy
  held_lt : ∀ r, c.Held r → r < c.count
  newest : ∀ r r', c.Held r → r' < c.count → c.idOf r' = c.idOf r → r' ≤ r
  inb : ∀ r, (c.cell r).shared.inb.Ok
  dead : ∀ id, c.state.streams.lookup id = none → c.streams id = none ∧ c.openWaiters id = none
  live : ∀ id s, c.state.streams.lookup id = some s → id ≠ 0 ∧ ∃ r, c.idOf r = id ∧ c.Tied r s

lemma Inv.tied (h : Inv policy c) (hr : c.Held r)
    (hl : c.state.streams.lookup (c.idOf r) = some s) : c.idOf r ≠ 0 ∧ c.Tied r s := by
  obtain ⟨hid, r', hr', ht⟩ := h.live _ s hl
  have hle := h.newest r r' hr (h.held_lt r' ht.held) hr'
  have hge := h.newest r' r ht.held (h.held_lt r hr) hr'.symm
  obtain rfl : r' = r := le_antisymm hle hge
  exact ⟨hid, ht⟩

lemma cell_modifyOut (f : OutBuf → OutBuf) : (c.modifyOut r f).cell r =
    { c.cell r with shared := { (c.cell r).shared with out := f (c.cell r).shared.out } } :=
  update_self _ _ _

lemma cell_release (holder : Holder) :
    (c.release r holder).cell r = { c.cell r with holder := holder } :=
  update_self _ _ _

/-- A step that touches reference `r` and its id only. -/
structure Touch (c c' : Conn) (r : ℕ) : Prop where
  policy_eq : c'.state.policy = c.state.policy
  count_eq : c'.count = c.count
  cell_ne : ∀ r', r' ≠ r → c'.cell r' = c.cell r'
  id_eq : c'.idOf r = c.idOf r
  lookup_ne : ∀ j, j ≠ c.idOf r → c'.state.streams.lookup j = c.state.streams.lookup j
  route_ne : ∀ j, j ≠ c.idOf r → c'.streams j = c.streams j
  waiter_ne : ∀ j, j ≠ c.idOf r → c'.openWaiters j = c.openWaiters j

namespace Touch

lemma refl (c : Conn) (r : ℕ) : Touch c c r :=
  ⟨rfl, rfl, fun _ _ => rfl, rfl, fun _ _ => rfl, fun _ _ => rfl, fun _ _ => rfl⟩

lemma trans {c'' : Conn} (h : Touch c c' r) (h' : Touch c' c'' r) : Touch c c'' r where
  policy_eq := h'.policy_eq.trans h.policy_eq
  count_eq := h'.count_eq.trans h.count_eq
  cell_ne r' hr := (h'.cell_ne r' hr).trans (h.cell_ne r' hr)
  id_eq := h'.id_eq.trans h.id_eq
  lookup_ne j hj := (h'.lookup_ne j (h.id_eq ▸ hj)).trans (h.lookup_ne j hj)
  route_ne j hj := (h'.route_ne j (h.id_eq ▸ hj)).trans (h.route_ne j hj)
  waiter_ne j hj := (h'.waiter_ne j (h.id_eq ▸ hj)).trans (h.waiter_ne j hj)

lemma setState {b : Option Stream} {out : List MuxFrame} (h : c.state.Shift m (c.idOf r) b out) :
    Touch c (c.setState m) r :=
  { refl c r with policy_eq := h.policy_eq, lookup_ne := h.lookup_ne }

lemma flushed (h : c.state.Flushed m (c.idOf r) k) : Touch c (c.setState m) r :=
  { refl c r with policy_eq := h.policy_eq, lookup_ne := h.lookup_ne }

lemma modify {f : Cell → Cell} (hf : (f (c.cell r)).shared.id = c.idOf r) :
    Touch c (c.modify r f) r :=
  { refl c r with
    cell_ne := fun _ hr => update_of_ne hr _ _
    id_eq := by simp only [idOf, Conn.modify, update_self, hf] }

lemma release (holder : Holder) : Touch c (c.release r holder) r :=
  modify rfl

lemma modifyIn (c : Conn) (r : ℕ) (f : InBuf → InBuf) : Touch c (c.modifyIn r f) r :=
  modify rfl

lemma modifyOut (f : OutBuf → OutBuf) : Touch c (c.modifyOut r f) r :=
  modify rfl

lemma setRoute (c : Conn) (r : ℕ) (ρ : Option ℕ) : Touch c (c.setRoute (c.idOf r) ρ) r :=
  { refl c r with route_ne := fun _ hj => update_of_ne hj _ _ }

lemma setWaiter (w : Option ℕ) : Touch c (c.setWaiter (c.idOf r) w) r :=
  { refl c r with waiter_ne := fun _ hj => update_of_ne hj _ _ }

lemma idOf_eq (t : Touch c c' r) (r' : ℕ) : c'.idOf r' = c.idOf r' := by
  by_cases hr : r' = r
  · rw [hr, t.id_eq]
  · rw [idOf, t.cell_ne r' hr, idOf]

lemma held (t : Touch c c' r) (hr : c.Held r) {r' : ℕ} (h : c'.Held r') : c.Held r' := by
  by_cases he : r' = r
  · rw [he]
    exact hr
  · rw [Held, t.cell_ne r' he] at h
    exact h

end Touch

lemma Inv.touch (h : Inv policy c) (hr : c.Held r) (t : Touch c c' r)
    (hi : (c'.cell r).shared.inb.Ok)
    (hd : c'.state.streams.lookup (c.idOf r) = none →
      c'.streams (c.idOf r) = none ∧ c'.openWaiters (c.idOf r) = none)
    (hl : ∀ s, c'.state.streams.lookup (c.idOf r) = some s → c.idOf r ≠ 0 ∧
      c'.streams (c.idOf r) = some r ∧
      c'.openWaiters (c.idOf r) = (if (c'.cell r).holder = .opening then some r else none) ∧
      Linked c.state.policy.initialWindow s (c'.cell r)) :
    Inv policy c' where
  policy_eq := t.policy_eq.trans h.policy_eq
  held_lt r' hr' := t.count_eq ▸ h.held_lt r' (t.held hr hr')
  newest r₁ r₂ h₁ h₂ hid := by
    rw [t.idOf_eq, t.idOf_eq] at hid
    exact h.newest r₁ r₂ (t.held hr h₁) (t.count_eq ▸ h₂) hid
  inb r' := by
    by_cases he : r' = r
    · rw [he]
      exact hi
    · rw [t.cell_ne r' he]
      exact h.inb r'
  dead j hj := by
    by_cases he : j = c.idOf r
    · subst he
      exact hd hj
    · rw [t.lookup_ne j he] at hj
      rw [t.route_ne j he, t.waiter_ne j he]
      exact h.dead j hj
  live j s hj := by
    by_cases he : j = c.idOf r
    · subst he
      obtain ⟨hid, hrt, hw, hln⟩ := hl s hj
      refine ⟨hid, r, t.id_eq, ?_, ?_, ?_⟩
      · rw [t.id_eq, hrt]
      · rw [t.id_eq, hw]
      · rw [t.policy_eq]
        exact hln
    · rw [t.lookup_ne j he] at hj
      obtain ⟨hj0, r', hid, ht⟩ := h.live j s hj
      have hne : r' ≠ r := fun h => he (h ▸ hid.symm)
      subst hid
      refine ⟨hj0, r', t.idOf_eq r', ?_, ?_, ?_⟩
      · rw [t.idOf_eq, t.route_ne _ he, ht.route]
      · rw [t.idOf_eq, t.waiter_ne _ he, t.cell_ne r' hne, ht.waiter]
      · rw [t.cell_ne r' hne, t.policy_eq]
        exact ht.linked

lemma Inv.setState (h : Inv policy c) (hp : m.policy = c.state.policy)
    (hl : ∀ j, m.streams.lookup j = c.state.streams.lookup j) : Inv policy (c.setState m) where
  policy_eq := hp.trans h.policy_eq
  held_lt := h.held_lt
  newest := h.newest
  inb := h.inb
  dead j hj := h.dead j ((hl j).symm.trans hj)
  live j s hj := by
    obtain ⟨hj0, r, hid, ht⟩ := h.live j s ((hl j).symm.trans hj)
    refine ⟨hj0, r, hid, ht.route, ht.waiter, ?_⟩
    rw [Conn.setState, hp]
    exact ht.linked

/-- No handle has the id. -/
def Unheld (c : Conn) (id : UInt32) : Prop := ∀ r < c.count, c.Held r → c.idOf r ≠ id

lemma Inv.share {out : List MuxFrame} (h : Inv policy c) (holder : Holder)
    (hs : c.state.Shift m id (some s) out) (hid : id ≠ 0) (hu : c.Unheld id)
    (hw : s.recvWindow = policy.initialWindow)
    (hp : Cell.InPhase ⟨⟨id, policy.initialWindow, {}, {}⟩, holder, false⟩ s) :
    Inv policy (((c.setState m).share id holder).setWaiter id
      (if holder = .opening then some c.count else none)) := by
  set c' := ((c.setState m).share id holder).setWaiter id
    (if holder = .opening then some c.count else none) with hc'
  have hc : c'.count = c.count + 1 := rfl
  have hsl : c'.cell c.count = ⟨⟨id, policy.initialWindow, {}, {}⟩, holder, false⟩ := by
    simp only [hc', Conn.setWaiter, Conn.share, Conn.setState, update_self, hs.policy_eq,
      h.policy_eq]
  have ho : ∀ r, r ≠ c.count → c'.cell r = c.cell r := fun r hr => update_of_ne hr _ _
  have hh : ∀ r, r ≠ c.count → c'.Held r → c.Held r := fun r hr h => by rwa [Held, ← ho r hr]
  have hi : c'.idOf c.count = id := by rw [idOf, hsl]
  have hin : ∀ r, r ≠ c.count → c'.idOf r = c.idOf r := fun r hr => by
    rw [idOf, ho r hr, idOf]
  refine ⟨hs.policy_eq.trans h.policy_eq, fun r hr => ?_, fun r r' hr hr' he => ?_, fun r => ?_,
    fun j hj => ?_, fun j s' hj => ?_⟩
  · by_cases he : r = c.count
    · omega
    · have := h.held_lt r (hh r he hr)
      omega
  · by_cases hrc : r = c.count
    · omega
    by_cases hrx : r' = c.count
    · rw [hrx, hi, hin r hrc] at he
      exact absurd he.symm (hu r (h.held_lt r (hh r hrc hr)) (hh r hrc hr))
    · rw [hin r hrc, hin r' hrx] at he
      exact h.newest r r' (hh r hrc hr) (by omega) he
  · by_cases he : r = c.count
    · rw [he, hsl]
      exact InBuf.ok_empty
    · rw [ho r he]
      exact h.inb r
  · have hne : j ≠ id := by
      rintro rfl
      cases hs.lookup_self.symm.trans hj
    have hrt : c'.streams j = c.streams j := update_of_ne hne _ _
    have hwt : c'.openWaiters j = c.openWaiters j := update_of_ne hne _ _
    rw [hrt, hwt]
    exact h.dead j ((hs.lookup_ne j hne).symm.trans hj)
  · by_cases hj' : j = id
    · subst hj'
      obtain rfl : s = s' := Option.some.inj (hs.lookup_self.symm.trans hj)
      refine ⟨hid, c.count, hi, ?_, ?_, ?_⟩
      · rw [hi]
        exact update_self _ _ _
      · rw [hi, hsl]
        exact update_self _ _ _
      · rw [hsl]
        refine ⟨?_, hp, nofun, fun _ => rfl⟩
        rw [show c'.state.policy = policy from hs.policy_eq.trans h.policy_eq, hw]
        rfl
    · obtain ⟨hj0, r, hr, ht⟩ := h.live j s' ((hs.lookup_ne j hj').symm.trans hj)
      have hrc : r ≠ c.count := (h.held_lt r ht.held).ne
      have hrt : c'.streams j = c.streams j := update_of_ne hj' _ _
      have hwt : c'.openWaiters j = c.openWaiters j := update_of_ne hj' _ _
      refine ⟨hj0, r, (hin r hrc).trans hr, ?_, ?_, ?_⟩
      · rw [hin r hrc, hr, hrt, ← hr, ht.route]
      · rw [hin r hrc, hr, hwt, ho r hrc, ← hr, ht.waiter]
      · rw [ho r hrc, show c'.state.policy = c.state.policy from hs.policy_eq]
        exact ht.linked

end Conn

end Mirage.Mux
