import Mathlib.Data.Set.Function
import Mirage.Proofs.Framer
import Mirage.Session.Endpoints

/-!
# No nonce is used twice

Every call but a send leaves the sending side alone or starts its next epoch with fresh keys
(`apply_moves`).
-/

namespace Mirage

open Words Runs SessionFramer
open List hiding Vector

def CounterRange (bound : ℕ) : Set (ℕ × ℕ) := {p | p.1 ≤ bound ∧ p.2 < 2 ^ 64}

lemma counters_inj {e e' q q' : ℕ} (he : e < 2 ^ 32) (he' : e' < 2 ^ 32) (hq : q < 2 ^ 64)
    (hq' : q' < 2 ^ 64) (h : beBytes 4 (e % 2 ^ 32) ++ beBytes 8 q
      = beBytes 4 (e' % 2 ^ 32) ++ beBytes 8 q') : e = e' ∧ q = q' := by
  obtain ⟨h4, h8⟩ := append_inj h (by simp)
  rw [Nat.mod_eq_of_lt he, Nat.mod_eq_of_lt he'] at h4
  exact ⟨beBytes_inj (by omega) (by omega) h4, beBytes_inj (by omega) (by omega) h8⟩

lemma nonceBytes_injOn (iv : Vector UInt8 12) {bound : ℕ} (hb : bound < 2 ^ 32) :
    Set.InjOn (fun p : ℕ × ℕ => nonceBytes iv p.1 p.2) (CounterRange bound) := by
  rintro ⟨e, q⟩ ⟨he, hq⟩ ⟨e', q'⟩ ⟨he', hq'⟩ h
  have hc := zipWith_xor_inj (by simp) (by simp) h
  obtain ⟨rfl, rfl⟩ := counters_inj (lt_of_le_of_lt he hb) (lt_of_le_of_lt he' hb) hq hq' hc
  rfl

lemma Direction.byte_inj {d d' : Direction} (h : d.byte = d'.byte) : d = d' := by
  cases d <;> cases d' <;> first | rfl | exact absurd h (by decide)

lemma aadBytes_injOn (binding : Bytes32) {bound : ℕ} (hb : bound < 2 ^ 32) :
    Set.InjOn (fun p : Direction × ℕ × ℕ => aadBytes binding p.1 p.2.1 p.2.2)
      {p | p.2 ∈ CounterRange bound} := by
  rintro ⟨d, e, q⟩ ⟨he, hq⟩ ⟨d', e', q'⟩ ⟨he', hq'⟩ h
  obtain ⟨hd, hc⟩ := cons.inj (append_cancel_left h)
  obtain ⟨rfl, rfl⟩ := counters_inj (lt_of_le_of_lt he hb) (lt_of_le_of_lt he' hb) hq hq' hc
  have hdd : d = d' := Direction.byte_inj hd
  rw [hdd]

namespace SessionFramer

variable {S : Suite} {f g : SessionFramer}

/-- The sending side stays, or starts the next epoch with fresh keys. -/
def Moves (S : Suite) (f g : SessionFramer) : Prop :=
  g.sessionBinding = f.sessionBinding ∧ g.role = f.role ∧
    (g.epoch = f.epoch ∧ g.send = f.send ∨
      g.epoch = f.epoch + 1 ∧ f.epoch + 1 < 2 ^ 32 ∧ ∃ root, g.send = freshDir S root g.epoch)

lemma Moves.refl : Moves S f f := ⟨rfl, rfl, .inl ⟨rfl, rfl⟩⟩

lemma moves_install (rI rR : Bytes32) (h : f.epoch + 1 < 2 ^ 32) :
    Moves S f (f.install S (f.epoch + 1) rI rR) :=
  ⟨rfl, rfl, .inr ⟨rfl, h, _, f.install_send S _ rI rR⟩⟩

lemma advanceEpoch_moves : Moves S f (f.advanceEpoch S).2 := by
  rcases Nat.lt_or_ge (f.epoch + 1) (2 ^ 32) with h | h
  · rw [f.advanceEpoch_of_lt S h]
    exact moves_install _ _ h
  · obtain ⟨err, he⟩ := f.advanceEpoch_of_le S h
    rw [he]
    exact Moves.refl

lemma maybeAdvance_moves (target : ℕ) : Moves S f (f.maybeAdvance S target).2 := by
  by_cases h : f.Advances target
  · rw [f.maybeAdvance_of_advances S h]
    exact moves_install _ _ h.2.2
  · rw [f.maybeAdvance_of_not S h]
    exact Moves.refl

lemma settle_moves : ∀ w, Moves S f (f.settle S w).2
  | .current => by
    simp only [settle]
    split <;> exact ⟨rfl, rfl, .inl ⟨rfl, rfl⟩⟩
  | .prev => by
    simp only [settle]
    split
    · exact Moves.refl
    · split <;> exact ⟨rfl, rfl, .inl ⟨rfl, rfl⟩⟩
  | .next => by
    have h := advanceEpoch_moves (S := S) (f := f)
    simp only [settle]
    split <;> rename_i heq <;> rw [heq] at h <;> exact h

lemma recvFrame_moves (wire : Bytes) : Moves S f (f.recvFrame S wire).2 := by
  rcases f.recvFrame_cases S wire with ⟨err, he⟩ | ⟨_, _, _, _, which, plaintext, -, -, -, he⟩
  · rw [he]
    exact Moves.refl
  · have h : Moves S f.opened (f.opened.settle S which).2 := settle_moves which
    rw [he]
    split <;> rename_i heq <;> rw [heq] at h <;> exact h

lemma apply_moves (op : FramerOp)
    (hop : ∀ plaintext wire, op = .send plaintext → (f.sendFrame S plaintext).1 ≠ .ok wire) :
    Moves S f (f.apply S op) := by
  cases op with
  | send plaintext =>
    rcases h : f.sendFrame S plaintext with ⟨err | wire, f'⟩
    · obtain ⟨t, rfl⟩ := f.sendFrame_error S h
      rw [apply, h]
      exact ⟨rfl, rfl, .inl ⟨rfl, rfl⟩⟩
    · exact absurd (by rw [h]) (hop plaintext wire rfl)
  | recv wire => exact recvFrame_moves wire
  | maybeAdvance target => exact maybeAdvance_moves target
  | advanceEpoch => exact advanceEpoch_moves
  | kemReseed x m =>
    rcases f.kemReseed_cases S x m with ⟨err, he⟩ | ⟨tag, rI, rR, hlt, he⟩
    · rw [apply, he]
      exact Moves.refl
    · rw [apply, he]
      exact moves_install rI rR hlt
  | expirePrevRecv => exact ⟨rfl, rfl, .inl ⟨rfl, rfl⟩⟩

end SessionFramer

namespace Emission

/-- Sealed under the recorded key, with nonce and AAD from epoch and sequence number. -/
structure Sealed (S : Suite) (binding : Bytes32) (d : Direction) (e : Emission) :
    Prop where
  epoch_lt : e.epoch < 2 ^ 32
  seq_lt : e.seq < 2 ^ 64
  nonce_eq : e.nonce = nonceBytes e.iv e.epoch e.seq
  aad_eq : e.aad = aadBytes binding d e.epoch e.seq
  expanded : ∃ root, (e.key, e.iv) = expandCipher S root e.epoch
  encrypted : ∃ msg ct, S.encrypt e.key e.nonce e.aad msg = some ct ∧ e.wire = wireFrame ct

def Before (a : Emission) (epoch seq : ℕ) : Prop :=
  a.epoch < epoch ∨ a.epoch = epoch ∧ a.seq < seq

lemma Before.ne {a b : Emission} (h : a.Before b.epoch b.seq) :
    (a.epoch, a.seq) ≠ (b.epoch, b.seq) := by
  simp only [Before] at h
  simp only [ne_eq, Prod.mk.injEq, not_and]
  omega

variable {S : Suite} {binding : Bytes32} {d : Direction}

lemma Sealed.nonce_ne {a b : Emission} (ha : a.Sealed S binding d) (hb : b.Sealed S binding d)
    (hab : a.Before b.epoch b.seq) (hiv : a.iv = b.iv) : a.nonce ≠ b.nonce := by
  intro h
  rw [ha.nonce_eq, hb.nonce_eq, hiv] at h
  have hbn : max a.epoch b.epoch < 2 ^ 32 := max_lt ha.epoch_lt hb.epoch_lt
  exact hab.ne (nonceBytes_injOn b.iv hbn ⟨le_max_left _ _, ha.seq_lt⟩
    ⟨le_max_right _ _, hb.seq_lt⟩ h)

end Emission

/-- No two expansions share a key without sharing the iv, as for an ideal HKDF. -/
def Suite.KeyFixesIv (S : Suite) : Prop := ∀ root root' epoch epoch',
  (expandCipher S root epoch).1 = (expandCipher S root' epoch').1 →
    (expandCipher S root epoch).2 = (expandCipher S root' epoch').2

namespace Emitter

variable {S : Suite} {binding : Bytes32} {role : Role}

/-- All frames were sealed before the present counter. -/
structure Inv (S : Suite) (binding : Bytes32) (role : Role) (t : Emitter) : Prop where
  binding_eq : t.framer.sessionBinding = binding
  role_eq : t.framer.role = role
  epoch_lt : t.framer.epoch < 2 ^ 32
  seq_lt : t.framer.send.seq < 2 ^ 64
  expanded : ∃ root, (t.framer.send.key, t.framer.send.iv) = expandCipher S root t.framer.epoch
  emitted : ∀ e ∈ t.emitted, e.Sealed S binding t.framer.sendDirection ∧
    e.Before t.framer.epoch t.framer.send.seq
  ordered : t.emitted.Pairwise fun a b => a.Before b.epoch b.seq

lemma inv_init (kPq : Bytes32) : Inv S binding role (init S binding kPq role) where
  binding_eq := rfl
  role_eq := rfl
  epoch_lt := Nat.two_pow_pos 32
  seq_lt := by cases role <;> exact Nat.two_pow_pos 64
  expanded := by cases role <;> exact ⟨_, rfl⟩
  emitted := by simp [init]
  ordered := List.Pairwise.nil

variable {f g : SessionFramer} {es : List Emission}

lemma inv_of_moves (hm : f.Moves S g)
    (h : Inv S binding role ⟨f, es⟩) : Inv S binding role ⟨g, es⟩ := by
  obtain ⟨hb, hr, hm⟩ := hm
  have hd := sendDirection_of_role hr
  obtain ⟨he, hs⟩ | ⟨he, hlt, root, hs⟩ := hm
  · refine ⟨hb.trans h.binding_eq, hr.trans h.role_eq, he ▸ h.epoch_lt, hs ▸ h.seq_lt, ?_, ?_,
      h.ordered⟩
    · rw [hs, he]
      exact h.expanded
    · simp only [hs, he, hd]
      exact h.emitted
  · refine ⟨hb.trans h.binding_eq, hr.trans h.role_eq, ?_, ?_, ⟨root, ?_⟩, fun e hmm => ?_,
      h.ordered⟩
    · simp only
      omega
    · simp only [hs]
      exact Nat.two_pow_pos 64
    · simp only [hs]
      rfl
    · obtain ⟨hse, hbf⟩ := h.emitted e hmm
      simp only [Emission.Before, he, hd] at hbf ⊢
      exact ⟨hse, .inl (by omega)⟩

lemma inv_sent {plaintext wire : Bytes} (hs : f.sendFrame S plaintext = (.ok wire, g))
    (h : Inv S binding role ⟨f, es⟩) : Inv S binding role ⟨g, es ++ [f.emission wire]⟩ := by
  obtain ⟨rfl, hlt, ct, hct, rfl⟩ := f.sendFrame_ok S hs
  have hse : (f.emission (wireFrame ct)).Sealed S binding f.sendDirection :=
    { epoch_lt := h.epoch_lt, seq_lt := h.seq_lt, nonce_eq := rfl
      aad_eq := by rw [← h.binding_eq]; rfl
      expanded := h.expanded, encrypted := ⟨_, ct, hct, rfl⟩ }
  refine ⟨h.binding_eq, h.role_eq, h.epoch_lt, hlt, h.expanded, fun e he => ?_, ?_⟩
  · rcases mem_append.1 he with he | he
    · obtain ⟨h1, h2⟩ := h.emitted e he
      simp only [Emission.Before, sent] at h2 ⊢
      exact ⟨h1, by omega⟩
    · rw [mem_singleton.1 he]
      exact ⟨hse, .inr ⟨rfl, Nat.lt_succ_self _⟩⟩
  · simp only [pairwise_append, pairwise_singleton, mem_singleton, true_and]
    refine ⟨h.ordered, ?_⟩
    rintro a ha _ rfl
    exact (h.emitted a ha).2

lemma inv_step (t : Emitter) (op : FramerOp) (h : Inv S binding role t) :
    Inv S binding role (t.step S op) := by
  by_cases hop : ∃ plaintext wire, op = .send plaintext ∧
      (t.framer.sendFrame S plaintext).1 = .ok wire
  · obtain ⟨plaintext, wire, rfl, hw⟩ := hop
    have hs : t.framer.sendFrame S plaintext = (.ok wire, t.framer.apply S (.send plaintext)) :=
      Prod.ext hw rfl
    simp only [step, hw]
    exact inv_sent hs h
  push Not at hop
  have hm := apply_moves op fun p w hp => hop p w hp
  have hes : (t.step S op).emitted = t.emitted := by
    unfold step
    cases op with
    | send plaintext =>
      rcases hw : (t.framer.sendFrame S plaintext).1 with err | wire
      · simp only [hw, append_nil]
      · exact absurd hw (hop plaintext wire rfl)
    | _ => simp
  have := inv_of_moves hm h
  rw [← hes] at this
  exact this

lemma inv_run (kPq : Bytes32) (ops : List FramerOp) :
    Inv S binding role (run (step S) (init S binding kPq role) ops) :=
  Runs.inv_run (fun s op h _ => inv_step s op h) _ ops (inv_init kPq) (along_true _ ops)

/-- Frames are sealed under distinct counters, so no key sees a nonce twice. -/
theorem emitted_nonces_unique (S : Suite) (binding kPq : Bytes32) (role : Role)
    (ops : List FramerOp) :
    let t := run (step S) (init S binding kPq role) ops
    (t.emitted.map fun e => (e.epoch, e.seq)).Nodup ∧
    (∀ e ∈ t.emitted, e.Sealed S binding t.framer.sendDirection ∧ e.epoch ≤ t.framer.epoch) ∧
    (∀ iv, Set.InjOn (fun p : ℕ × ℕ => nonceBytes iv p.1 p.2) (CounterRange t.framer.epoch)) ∧
    Set.InjOn (fun p : Direction × ℕ × ℕ => aadBytes binding p.1 p.2.1 p.2.2)
      {p | p.2 ∈ CounterRange t.framer.epoch} ∧
    t.emitted.Pairwise (fun a b => (a.key, a.iv, a.nonce) ≠ (b.key, b.iv, b.nonce)) ∧
    (S.KeyFixesIv → (t.emitted.map fun e => (e.key, e.nonce)).Nodup) := by
  intro t
  have h : Inv S binding role t := inv_run kPq ops
  have hp : t.emitted.Pairwise fun a b => a.iv = b.iv → a.nonce ≠ b.nonce := by
    refine h.ordered.imp_of_mem fun {a b} ha hb hab hiv => ?_
    exact (h.emitted a ha).1.nonce_ne (h.emitted b hb).1 hab hiv
  refine ⟨?_, fun e he => ⟨(h.emitted e he).1, ?_⟩, fun iv => nonceBytes_injOn iv h.epoch_lt,
    aadBytes_injOn binding h.epoch_lt, ?_, fun hS => ?_⟩
  · exact pairwise_map.2 (h.ordered.imp Emission.Before.ne)
  · have := (h.emitted e he).2
    simp only [Emission.Before] at this
    omega
  · refine hp.imp fun {a b} hab heq => ?_
    simp only [Prod.mk.injEq] at heq
    exact hab heq.2.1 heq.2.2
  · refine pairwise_map.2 (hp.imp_of_mem fun {a b} ha hb hab heq => ?_)
    obtain ⟨ra, hra⟩ := (h.emitted a ha).1.expanded
    obtain ⟨rb, hrb⟩ := (h.emitted b hb).1.expanded
    simp only [Prod.mk.injEq] at heq
    have hk := hS ra rb a.epoch b.epoch (by rw [← hra, ← hrb]; exact heq.1)
    rw [← hra, ← hrb] at hk
    exact hab hk heq.2

lemma Inv.nodup_aads {t : Emitter} (h : Inv S binding role t) : (t.emitted.map (·.aad)).Nodup := by
  refine pairwise_map.2 (h.ordered.imp_of_mem fun {a b} ha hb hab heq => ?_)
  obtain ⟨⟨ha, -⟩, hb, -⟩ := h.emitted a ha, h.emitted b hb
  rw [ha.aad_eq, hb.aad_eq] at heq
  have hc := counters_inj ha.epoch_lt hb.epoch_lt ha.seq_lt hb.seq_lt
    (cons.inj (append_cancel_left heq)).2
  exact hab.ne (Prod.ext hc.1 hc.2)

/-- No two frames of a session share their AAD, whichever ends send them. -/
theorem session_aads_nodup (S : Suite) (binding kPq : Bytes32) (ops ops' : List FramerOp) :
    (((run (step S) (init S binding kPq .initiator) ops).emitted ++
      (run (step S) (init S binding kPq .responder) ops').emitted).map (·.aad)).Nodup := by
  have hi : Inv S binding .initiator _ := inv_run kPq ops
  have hr : Inv S binding .responder _ := inv_run kPq ops'
  rw [map_append, nodup_append]
  refine ⟨hi.nodup_aads, hr.nodup_aads, ?_⟩
  simp only [mem_map]
  rintro _ ⟨a, ha, rfl⟩ _ ⟨b, hb, rfl⟩ h
  -- only the direction's byte tells frames of the same counters apart
  rw [(hi.emitted a ha).1.aad_eq, (hr.emitted b hb).1.aad_eq] at h
  have hd := Direction.byte_inj (cons.inj (append_cancel_left h)).1
  rw [sendDirection, hi.role_eq, sendDirection, hr.role_eq] at hd
  cases hd

end Emitter

end Mirage
