import Mirage.Proofs.Integrity
import Mirage.Proofs.Nonces

/-!
# Two framers over reliable channels

Of each epoch a side has sent, and its peer has read, as many frames as the log of the direction
holds (`Lane`).
-/

namespace Mirage

open Runs Words Function SessionFramer Nat Suite Option
open List hiding Vector

/-!
## Keys by epoch

The keys of an epoch are a function of the epoch (`Secrets.dirAt`). A frame sealed at an epoch and a
sequence number is read by the trial for that epoch, if the receiver makes one and has the number,
and by no earlier trial.
-/

structure Secrets where
  binding : Bytes32
  root0 : Direction → Bytes32

namespace Secrets

variable (S : Suite) (K : Secrets)

def ofKeys (binding kPq : Bytes32) : Secrets where
  binding := binding
  root0
    | .i2r => directionRoot S "mirage-key-i2r-v1" kPq binding
    | .r2i => directionRoot S "mirage-key-r2i-v1" kPq binding

def rootAt (d : Direction) : ℕ → Bytes32
  | 0 => K.root0 d
  | e + 1 => ratchetRoot S d.ratchetLabel (rootAt d e) (e + 1) K.binding

def dirAt (d : Direction) (e q : ℕ) : DirState :=
  { freshDir S (K.rootAt S d e) e with seq := q }

def sealAt (d : Direction) (e q : ℕ) (msg : Bytes) : Option Bytes :=
  S.encrypt (K.dirAt S d e q).key (nonceBytes (K.dirAt S d e q).iv e q)
    (aadBytes K.binding d e q) msg

variable {S K}

variable {d : Direction} {e q : ℕ} {msg ct : Bytes}

lemma open_sealAt (hS : S.Ideal) (h : K.sealAt S d e q msg = some ct) :
    tryOuterDecrypt S (K.dirAt S d e q).key (K.dirAt S d e q).iv K.binding d e q ct = some msg :=
  hS.decrypt_encrypt h

lemma open_sealAt_ne (hS : S.Ideal) {key : Bytes32} {iv : Vector UInt8 12}
    {e' q' : ℕ} (he : e < 2 ^ 32) (he' : e' < 2 ^ 32)
    (hq : q < 2 ^ 64) (hq' : q' < 2 ^ 64) (hne : e ≠ e') (h : K.sealAt S d e q msg = some ct) :
    tryOuterDecrypt S key iv K.binding d e' q' ct = none := by
  refine hS.decrypt_ne (fun ha => hne ?_) h
  have hp : (d, e, q) = (d, e', q') :=
    aadBytes_injOn K.binding (max_lt he he') ⟨le_max_left e e', hq⟩ ⟨le_max_right e e', hq'⟩ ha
  simp only [Prod.mk.injEq, true_and] at hp
  exact hp.1

end Secrets

namespace SessionFramer

variable {S : Suite} {K : Secrets} {f : SessionFramer}

/-- The keys of a framer are those of its epoch. -/
structure Keyed (S : Suite) (K : Secrets) (f : SessionFramer) : Prop where
  epoch_lt : f.epoch < 2 ^ 32
  binding_eq : f.sessionBinding = K.binding
  root_eq : ∀ d, f.root d = K.rootAt S d f.epoch
  send_eq : f.send = K.dirAt S f.sendDirection f.epoch f.send.seq
  recv_eq : f.recv = K.dirAt S f.sendDirection.opposite f.epoch f.recv.seq
  prev_eq : ∀ p, f.recvPrev = some p → f.epoch ≠ 0 ∧
    p = K.dirAt S f.sendDirection.opposite (f.epoch - 1) p.seq

lemma keyed_fromSessionKeys (binding kPq : Bytes32) (role : Role) :
    (fromSessionKeys S binding kPq role).Keyed S (.ofKeys S binding kPq) where
  epoch_lt := Nat.two_pow_pos 32
  binding_eq := rfl
  root_eq d := by cases d <;> rfl
  send_eq := by cases role <;> rfl
  recv_eq := by cases role <;> rfl
  prev_eq p hp := by cases hp

section

variable (h : f.Keyed S K)

include h

lemma ratcheted_eq (d : Direction) : f.ratcheted S d = K.rootAt S d (f.epoch + 1) := by
  rw [ratcheted, h.root_eq, h.binding_eq, Secrets.rootAt]

lemma advanced_root (d : Direction) : (f.advanced S).root d = K.rootAt S d (f.epoch + 1) := by
  cases d <;> exact ratcheted_eq h _

lemma keyed_advanced (hlt : f.epoch + 1 < 2 ^ 32) : (f.advanced S).Keyed S K where
  epoch_lt := hlt
  binding_eq := h.binding_eq
  root_eq := advanced_root h
  send_eq := by
    have hs : (f.advanced S).send =
        freshDir S ((f.advanced S).root f.sendDirection) (f.epoch + 1) :=
      f.install_send S ..
    rw [advanced_root h] at hs
    rw [hs]
    rfl
  recv_eq := by
    have hr : (f.advanced S).recv
        = freshDir S ((f.advanced S).root f.sendDirection.opposite) (f.epoch + 1) :=
      f.install_recv S ..
    rw [advanced_root h] at hr
    rw [hr]
    rfl
  prev_eq p hp := by
    obtain rfl : f.recv = p := some.inj hp
    exact ⟨Nat.succ_ne_zero _, h.recv_eq⟩

lemma keyed_sent : f.sent.Keyed S K :=
  { h with send_eq := congrArg (fun s => { s with seq := f.send.seq + 1 }) h.send_eq }

lemma keyed_readCurrent : f.opened.readCurrent.Keyed S K :=
  { h with
    recv_eq := congrArg (fun s => { s with seq := f.recv.seq + 1 }) h.recv_eq
    prev_eq := fun p hp => by cases hp }

lemma keyed_readPrev {p : DirState} (hp : f.recvPrev = some p) : (f.opened.readPrev p).Keyed S K :=
  { h with
    prev_eq := fun p' hp' => by
      obtain rfl := some.inj hp'
      obtain ⟨h0, hpe⟩ := h.prev_eq p hp
      exact ⟨h0, congrArg (fun s => { s with seq := p.seq + 1 }) hpe⟩ }

lemma keyed_readNext (hlt : f.epoch + 1 < 2 ^ 32) : (f.opened.readNext S).Keyed S K := by
  have ho : f.opened.Keyed S K := { h with }
  have ha := keyed_advanced ho hlt
  exact { ha with
    recv_eq := congrArg (fun s => { s with seq := 1 }) ha.recv_eq }

lemma sealNext_eq (plaintext : Bytes) : f.sealNext S plaintext =
    K.sealAt S f.sendDirection f.epoch f.send.seq
      (S.noiseEncrypt f.role f.inner.sendNonce plaintext) := by
  have hk := congrArg DirState.key h.send_eq
  have hiv := congrArg DirState.iv h.send_eq
  rw [sealNext, Secrets.sealAt, ← hk, ← hiv, h.binding_eq]

end

section Trial

variable {e q : ℕ} {msg ct : Bytes} (hS : S.Ideal) (h : f.Keyed S K) (hc : f.Counted)
  (hq : q < 2 ^ 64) (hct : K.sealAt S f.sendDirection.opposite e q msg = some ct)

include hS h hct

lemma trial_current (he : e = f.epoch) (hs : q = f.recv.seq) :
    f.trial S ct = .ok (msg, .current) := by
  subst he hs
  have ho := Secrets.open_sealAt hS hct
  rw [← h.recv_eq, ← h.binding_eq] at ho
  simp only [trial, ho]

include hc hq

lemma current_fails (he : e < 2 ^ 32) (hne : e ≠ f.epoch) :
    tryOuterDecrypt S f.recv.key f.recv.iv f.sessionBinding f.sendDirection.opposite f.epoch
      f.recv.seq ct = none := by
  rw [h.binding_eq]
  exact Secrets.open_sealAt_ne hS he h.epoch_lt hq (lt_of_le_of_lt hc.recv_le hc.recv_lt) hne hct

lemma trial_prev_of {p : DirState} (hp : f.recvPrev = some p) (he : e + 1 = f.epoch)
    (hs : q = p.seq) : f.trial S ct = .ok (msg, .prev) := by
  subst hs
  have hlt := h.epoch_lt
  have hcr := current_fails hS h hc hq hct (by omega) (by omega)
  obtain ⟨h0, hpe⟩ := h.prev_eq p hp
  have ho := Secrets.open_sealAt hS hct
  rw [show f.epoch - 1 = e by omega] at hpe
  rw [← hpe, ← h.binding_eq] at ho
  simp only [trial, hcr, hp, if_neg h0, bind_some, show f.epoch - 1 = e by omega, ho]

lemma trial_next_of (he : e = f.epoch + 1) (hlt : f.epoch + 1 < 2 ^ 32) (hs : q = 0) :
    f.trial S ct = .ok (msg, .next) := by
  subst he hs
  have hcr := current_fails hS h hc hq hct hlt (by omega)
  have hpr : (if f.epoch = 0 then none else f.recvPrev.bind fun p =>
      tryOuterDecrypt S p.key p.iv f.sessionBinding f.sendDirection.opposite (f.epoch - 1) p.seq ct)
      = none := by
    split_ifs with h0
    · rfl
    rcases hp : f.recvPrev with _ | p
    · rfl
    have hpl := hc.prev_le p hp
    rw [h.binding_eq]
    exact Secrets.open_sealAt_ne hS hlt (by omega) hq (lt_of_le_of_lt hpl hc.recv_lt) (by omega) hct
  have ho := Secrets.open_sealAt hS hct
  have hm : f.recvMaterialFor S (f.epoch + 1)
      = .ok (expandCipher S (K.rootAt S f.sendDirection.opposite (f.epoch + 1)) (f.epoch + 1)) := by
    rw [recvMaterialFor, if_neg (by omega), ← ratcheted_eq h]
    rfl
  rw [← h.binding_eq] at ho
  simp only [Secrets.dirAt, freshDir] at ho
  simp only [trial, hcr, hpr, checkedSucc_eq_some.2 ⟨rfl, (by omega : f.epoch + 1 < 2 ^ 64)⟩,
    hm, ho]

end Trial

end SessionFramer

def peak (c : ℕ) (fs : List Flight) : ℕ := fs.foldl (fun c fl => max c fl.epoch) c

/-- A reader at epoch `c` that follows the frames never meets one two epochs ahead. -/
def Climb : ℕ → List Flight → Prop
  | _, [] => True
  | c, fl :: fs => fl.epoch ≤ c + 1 ∧ Climb (max c fl.epoch) fs

lemma peak_concat (c : ℕ) (fs : List Flight) (fl : Flight) :
    peak c (fs ++ [fl]) = max (peak c fs) fl.epoch := by
  simp [peak]

lemma le_peak : ∀ fs c, c ≤ peak c fs
  | [], _ => le_rfl
  | fl :: fs, c => le_trans (le_max_left c fl.epoch) (le_peak fs _)

lemma peak_mono : ∀ (fs : List Flight) {c c' : ℕ}, c ≤ c' → peak c fs ≤ peak c' fs
  | [], _, _, h => h
  | fl :: fs, _, _, h => peak_mono fs (max_le_max_right fl.epoch h)

lemma climb_mono : ∀ {fs : List Flight} {c c' : ℕ}, c ≤ c' → Climb c fs → Climb c' fs
  | [], _, _, _, _ => trivial
  | fl :: _, _, _, h, hc =>
    ⟨le_trans hc.1 (succ_le_succ h), climb_mono (max_le_max_right fl.epoch h) hc.2⟩

lemma climb_concat : ∀ {fs : List Flight} {c : ℕ} {fl : Flight}, Climb c fs →
    fl.epoch ≤ peak c fs + 1 → Climb c (fs ++ [fl])
  | [], _, _, _, hfl => ⟨hfl, trivial⟩
  | _ :: _, _, _, hc, hfl => ⟨hc.1, climb_concat hc.2 hfl⟩

def countEpoch (e : ℕ) (fs : List Flight) : ℕ := fs.countP fun fl => fl.epoch = e

variable {fs : List Flight} {fl : Flight}

lemma countEpoch_eq_zero {e : ℕ} (h : ∀ fl ∈ fs, fl.epoch < e) : countEpoch e fs = 0 := by
  refine countP_eq_zero.2 fun fl hfl => ?_
  have := h fl hfl
  simp only [decide_eq_true_eq]
  omega

lemma countEpoch_concat_self : countEpoch fl.epoch (fs ++ [fl]) = countEpoch fl.epoch fs + 1 := by
  simp [countEpoch]

lemma countEpoch_concat_ne {e : ℕ} (h : fl.epoch ≠ e) :
    countEpoch e (fs ++ [fl]) = countEpoch e fs := by
  simp [countEpoch, h]

def Role.direction : Role → Direction
  | .initiator => .i2r
  | .responder => .r2i

lemma SessionFramer.sendDirection_eq (f : SessionFramer) : f.sendDirection = f.role.direction := by
  unfold sendDirection Role.direction
  cases f.role <;> rfl

lemma Role.direction_peer (r : Role) : r.peer.direction.opposite = r.direction := by
  cases r <;> rfl

section Lane

variable (S : Suite) (K : Secrets)

/-- The frame is sealed with the count of its epoch in the log. -/
def SealedAfter (r : Role) (log : List Flight) (fl : Flight) : Prop :=
  ∃ ct, K.sealAt S r.direction fl.epoch (countEpoch fl.epoch log)
      (S.noiseEncrypt r log.length fl.payload) = some ct ∧
    fl.wire = SessionFramer.wireFrame ct ∧
    minOuterCtLen ≤ ct.length ∧ ct.length ≤ maxOuterCtLen

def SealedFrom (r : Role) : List Flight → List Flight → Prop
  | _, [] => True
  | log, fl :: fs => SealedAfter S K r log fl ∧ SealedFrom r (log ++ [fl]) fs

/-- One direction: `ds` was read, `fs` is on the way, and the counters agree. -/
structure Lane (lead : ℕ) (r : Role) (y x : SessionFramer) (ds fs : List Flight) : Prop where
  sorted : (ds ++ fs).Pairwise fun a b => a.epoch ≤ b.epoch
  le_sender : ∀ fl ∈ ds ++ fs, fl.epoch ≤ y.epoch
  done_le : ∀ fl ∈ ds, fl.epoch ≤ x.epoch
  floor : ∀ fl ∈ fs, x.epoch ≤ fl.epoch + 1
  climb : Climb x.epoch fs
  lead_le : y.epoch ≤ peak x.epoch fs + lead ∨ y.inner.sendNonce + 1 = 2 ^ 64
  send_seq : y.send.seq = countEpoch y.epoch (ds ++ fs)
  recv_seq : x.recv.seq = countEpoch x.epoch ds
  prev_seq : ∀ p, x.recvPrev = some p → p.seq = countEpoch (x.epoch - 1) ds
  prev_none : x.recvPrev = none → x.epoch ≤ y.epoch ∧ ∀ fl ∈ fs, x.epoch ≤ fl.epoch
  send_nonce : y.inner.sendNonce = (ds ++ fs).length
  recv_nonce : x.inner.recvNonce = ds.length
  sealed : SealedFrom S K r ds fs

variable {S K} {lead : ℕ} {r : Role} {y x : SessionFramer} {ds fs : List Flight}

lemma sealedFrom_concat {log : List Flight} (h : SealedFrom S K r log fs)
    (hfl : SealedAfter S K r (log ++ fs) fl) : SealedFrom S K r log (fs ++ [fl]) := by
  induction fs generalizing log with
  | nil =>
    rw [append_nil] at hfl
    exact ⟨hfl, trivial⟩
  | cons f fs ih =>
    refine ⟨h.1, ih h.2 ?_⟩
    rwa [append_assoc, singleton_append]

namespace Lane

section

variable (h : Lane S K lead r y x ds fs)

include h

lemma advance_sender : Lane S K (lead + 1) r (y.advanced S) x ds fs :=
  { h with
    le_sender := fun fl hfl => le_succ_of_le (h.le_sender fl hfl)
    lead_le := h.lead_le.imp_left succ_le_succ
    send_seq := by
      have h0 : countEpoch (y.advanced S).epoch (ds ++ fs) = 0 :=
        countEpoch_eq_zero fun fl hfl => lt_succ_of_le (h.le_sender fl hfl)
      rw [h0, advanced, install_send]
      rfl
    prev_none := fun hn => ⟨le_succ_of_le (h.prev_none hn).1, (h.prev_none hn).2⟩ }

lemma advance_reader (hfs : ∀ fl ∈ fs, x.epoch ≤ fl.epoch) :
    Lane S K lead r y (x.advanced S) ds fs :=
  { h with
    done_le := fun fl hfl => le_succ_of_le (h.done_le fl hfl)
    floor := fun fl hfl => succ_le_succ (hfs fl hfl)
    climb := climb_mono (le_succ _) h.climb
    lead_le := h.lead_le.imp_left fun hl =>
      le_trans hl (Nat.add_le_add_right (peak_mono fs (Nat.le_succ _)) lead)
    recv_seq := by
      have h0 : countEpoch (x.advanced S).epoch ds = 0 :=
        countEpoch_eq_zero fun fl hfl => lt_succ_of_le (h.done_le fl hfl)
      rw [h0, advanced, install_recv]
      rfl
    prev_seq := fun p hp => by
      obtain rfl : x.recv = p := some.inj hp
      exact h.recv_seq
    prev_none := fun hn => by simp [advanced] at hn }

lemma of_le (hle : y.epoch ≤ x.epoch) : Lane S K 0 r y x ds fs :=
  { h with lead_le := .inl (le_trans hle (le_peak fs _)) }

lemma exhausted (hn : y.inner.sendNonce + 1 = 2 ^ 64) : Lane S K 0 r y x ds fs :=
  { h with lead_le := .inr hn }

lemma send (hl : lead ≤ 1) (hfl : fl.epoch = y.epoch)
    (hx : x.epoch ≤ y.epoch + 1) (hn : y.inner.sendNonce + 1 < 2 ^ 64)
    (hse : SealedAfter S K r (ds ++ fs) fl) : Lane S K 0 r y.sent x ds (fs ++ [fl]) := by
  have hp : y.epoch ≤ peak x.epoch fs + lead := h.lead_le.resolve_right (by omega)
  have hap : ds ++ (fs ++ [fl]) = (ds ++ fs) ++ [fl] := (append_assoc ..).symm
  refine ⟨?_, ?_, h.done_le, ?_, climb_concat h.climb (by omega), .inl ?_, ?_, h.recv_seq,
    h.prev_seq, fun hn => ⟨(h.prev_none hn).1, fun f hf => ?_⟩, ?_, h.recv_nonce,
    sealedFrom_concat h.sealed hse⟩
  · rw [hap, pairwise_append]
    refine ⟨h.sorted, pairwise_singleton _ _, fun a ha b hb => ?_⟩
    rw [mem_singleton.1 hb, hfl]
    exact h.le_sender a ha
  · intro f hf
    rw [hap, mem_append, mem_singleton] at hf
    rcases hf with hf | rfl
    · exact h.le_sender f hf
    · exact hfl.le
  · intro f hf
    rcases mem_append.1 hf with hf | hf
    · exact h.floor f hf
    · rw [mem_singleton.1 hf, hfl]
      exact hx
  · rw [peak_concat, hfl]
    exact le_max_right _ _
  · rw [hap]
    show y.send.seq + 1 = countEpoch y.epoch _
    rw [← hfl, countEpoch_concat_self, hfl, h.send_seq]
  · rcases mem_append.1 hf with hf | hf
    · exact (h.prev_none hn).2 f hf
    · rw [mem_singleton.1 hf, hfl]
      exact (h.prev_none hn).1
  · rw [hap, length_append, length_singleton, ← h.send_nonce]
    rfl

end

lemma recv (hS : S.Ideal) (h : Lane S K lead r y x ds (fl :: fs)) (hx : x.Keyed S K)
    (hxc : x.Counted) (hy : y.epoch < 2 ^ 32) (hyc : y.Counted) (hrl : x.role = r.peer) :
    (fl.epoch = x.epoch ∧ x.recvFrame S fl.wire = (.ok fl.payload, x.opened.readCurrent)) ∨
    (fl.epoch + 1 = x.epoch ∧ ∃ p, x.recvPrev = some p ∧
      x.recvFrame S fl.wire = (.ok fl.payload, x.opened.readPrev p)) ∨ (fl.epoch = x.epoch + 1 ∧
      x.recvFrame S fl.wire = (.ok fl.payload, x.opened.readNext S)) := by
  obtain ⟨ct, hct, hw, hl⟩ := h.sealed.1
  have hfl := h.floor fl mem_cons_self
  have hle : fl.epoch ≤ y.epoch := h.le_sender fl (by simp)
  have hc : countEpoch fl.epoch ds ≤ _ := countP_le_length
  have hnn : ds.length + 1 < 2 ^ 64 := by
    have hlg := h.send_nonce
    have hlt := hyc.send_lt
    simp only [length_append, length_cons] at hlg
    omega
  have hr : x.inner.readMessage S x.role (S.noiseEncrypt r ds.length fl.payload)
      = .ok (fl.payload, x.opened.inner) := by
    have hne : ¬ds.length + 1 = 2 ^ 64 := by omega
    simp only [TransportState.readMessage, hrl, Role.peer_peer, h.recv_nonce, if_neg hne,
      hS.noise_decrypt]
    simp only [opened, h.recv_nonce]
  rw [← Role.direction_peer, ← hrl, ← x.sendDirection_eq] at hct
  rw [hw]
  rcases lt_trichotomy fl.epoch x.epoch with hlt | heq | hgt
  · obtain ⟨p, hp⟩ : ∃ p, x.recvPrev = some p := by
      refine ne_none_iff_exists'.1 fun hn => ?_
      have := (h.prev_none hn).2 fl mem_cons_self
      omega
    have hps := h.prev_seq p hp
    rw [show x.epoch - 1 = fl.epoch by omega] at hps
    refine .inr (.inl ⟨by omega, p, hp, ?_⟩)
    exact x.recvFrame_wireFrame S hl
      (trial_prev_of hS hx hxc (by omega) hct hp (by omega) hps.symm) hr
      (x.opened.settle_prev S hp (by omega))
  · have hs : countEpoch fl.epoch ds = x.recv.seq := by rw [heq, h.recv_seq]
    refine .inl ⟨heq, ?_⟩
    exact x.recvFrame_wireFrame S hl (trial_current hS hx hct heq hs) hr
      (x.opened.settle_current S (show x.recv.seq + 1 < 2 ^ 64 by omega))
  · have hnx : fl.epoch = x.epoch + 1 := le_antisymm h.climb.1 hgt
    have hs := countEpoch_eq_zero fun f hf => lt_of_le_of_lt (h.done_le f hf) hgt
    refine .inr (.inr ⟨hnx, ?_⟩)
    exact x.recvFrame_wireFrame S hl
      (trial_next_of hS hx hxc (by omega) hct hnx (by omega) hs) hr
      (x.opened.settle_next S (show x.epoch + 1 < 2 ^ 32 by omega))

section Read

variable {fl : Flight} (h : Lane S K lead r y x ds (fl :: fs))

include h

lemma done_read {e : ℕ} (hx : x.epoch ≤ e) (hfl : fl.epoch ≤ e) :
    ∀ f ∈ ds ++ [fl], f.epoch ≤ e := by
  intro f hf
  rcases mem_append.1 hf with hf | hf
  · exact le_trans (h.done_le f hf) hx
  · rw [mem_singleton.1 hf]
    exact hfl

lemma rest_ge : ∀ f ∈ fs, fl.epoch ≤ f.epoch :=
  (pairwise_cons.1 (pairwise_append.1 h.sorted).2.1).1

lemma read_stays {x' : SessionFramer} (he : x'.epoch = x.epoch) (hfl : fl.epoch ≤ x.epoch)
    (hn : x'.inner.recvNonce = x.inner.recvNonce + 1)
    (hr : x'.recv.seq = countEpoch x.epoch (ds ++ [fl]))
    (hp : ∀ p, x'.recvPrev = some p → p.seq = countEpoch (x.epoch - 1) (ds ++ [fl]))
    (hnn : x'.recvPrev = none → x.epoch ≤ y.epoch ∧ ∀ f ∈ fs, x.epoch ≤ f.epoch) :
    Lane S K lead r y x' (ds ++ [fl]) fs := by
  have hm : max x.epoch fl.epoch = x.epoch := max_eq_left hfl
  have hc := h.climb.2
  have hl := h.lead_le
  simp only [peak, foldl_cons] at hl
  rw [hm] at hc hl
  have hlg := append_cons ds fl fs
  refine ⟨hlg ▸ h.sorted, hlg ▸ h.le_sender, ?_, ?_, he ▸ hc, he ▸ hl,
    hlg ▸ h.send_seq, he ▸ hr, he ▸ hp, he ▸ hnn, hlg ▸ h.send_nonce, ?_, h.sealed.2⟩
  · rw [he]
    exact h.done_read le_rfl hfl
  · rw [he]
    exact fun f hf => h.floor f (mem_cons_of_mem _ hf)
  · rw [hn, h.recv_nonce, length_append, length_singleton]

lemma read_current (hfl : fl.epoch = x.epoch) :
    Lane S K lead r y x.opened.readCurrent (ds ++ [fl]) fs := by
  refine h.read_stays rfl hfl.le rfl ?_ (fun p hp => by cases hp) fun _ => ⟨?_, ?_⟩
  · rw [← hfl, countEpoch_concat_self, hfl, ← h.recv_seq]
    rfl
  · rw [← hfl]
    exact h.le_sender fl (by simp)
  · rw [← hfl]
    exact h.rest_ge

lemma read_prev (hfl : fl.epoch + 1 = x.epoch) {p : DirState} (hp : x.recvPrev = some p) :
    Lane S K lead r y (x.opened.readPrev p) (ds ++ [fl]) fs := by
  refine h.read_stays rfl (by omega) rfl ?_ (fun p' hp' => ?_) (fun hn => by cases hn)
  · rw [countEpoch_concat_ne (by omega)]
    exact h.recv_seq
  obtain rfl := some.inj hp'
  rw [show x.epoch - 1 = fl.epoch by omega, countEpoch_concat_self]
  have hps := h.prev_seq p hp
  rw [show x.epoch - 1 = fl.epoch by omega] at hps
  rw [← hps]

lemma read_next (hfl : fl.epoch = x.epoch + 1) :
    Lane S K lead r y (x.opened.readNext S) (ds ++ [fl]) fs := by
  have hm : max x.epoch fl.epoch = x.epoch + 1 := by omega
  have hc := h.climb.2
  have hl := h.lead_le
  simp only [peak, foldl_cons] at hl
  rw [hm] at hc hl
  have hlg := append_cons ds fl fs
  refine ⟨hlg ▸ h.sorted, hlg ▸ h.le_sender, h.done_read (le_succ _) hfl.le,
    fun f hf => ?_, hc, hl, hlg ▸ h.send_seq, ?_, fun p hp => ?_,
    (by intro hn; cases hn), hlg ▸ h.send_nonce, ?_, h.sealed.2⟩
  · exact le_succ_of_le (le_trans hfl.ge (h.rest_ge f hf))
  · show 1 = countEpoch (x.epoch + 1) _
    rw [← hfl, countEpoch_concat_self,
      countEpoch_eq_zero fun f hf => by have := h.done_le f hf; omega]
  · obtain rfl : x.recv = p := some.inj hp
    show x.recv.seq = countEpoch x.epoch _
    rw [countEpoch_concat_ne (by omega), h.recv_seq]
  · show x.inner.recvNonce + 1 = _
    rw [h.recv_nonce, length_append, length_singleton]

end Read

end Lane

end Lane

namespace Link

variable {S : Suite} {K : Secrets}

structure End (S : Suite) (K : Secrets) (r : Role) (f : SessionFramer) : Prop where
  role_eq : f.role = r
  keyed : f.Keyed S K
  counted : f.Counted

/-- A framer and its peer, with a lane either way. -/
structure Joined (S : Suite) (K : Secrets) (lead : ℕ) (r : Role) (x p : SessionFramer)
    (ds fs dr fr : List Flight) : Prop where
  near : End S K r x
  far : End S K r.peer p
  out : Lane S K lead r x p ds fs
  inn : Lane S K 0 r.peer p x dr fr

variable {lead : ℕ} {r : Role} {x p : SessionFramer} {ds fs dr fr : List Flight}

lemma Joined.symm (h : Joined S K 0 r x p ds fs dr fr) : Joined S K 0 r.peer p x dr fr ds fs := by
  obtain ⟨hn, hf, ho, hi⟩ := h
  cases r <;> exact ⟨hf, hn, hi, ho⟩

lemma Joined.advance (h : Joined S K 0 r x p ds fs dr fr) (hlt : x.epoch + 1 < 2 ^ 32)
    (hfr : ∀ fl ∈ fr, x.epoch ≤ fl.epoch) :
    Joined S K 1 r (x.advanced S) p ds fs dr fr where
  near := ⟨h.near.role_eq, keyed_advanced h.near.keyed hlt, counted_install _ _ _ h.near.counted⟩
  far := h.far
  out := h.out.advance_sender
  inn := h.inn.advance_reader hfr

def sentOn (fs : List Flight) (payload : Bytes)
    (res : Except SessionError (Option Bytes) × SessionFramer) : List Flight :=
  match res.1 with
  | .ok (some wire) => fs ++ [⟨wire, res.2.epoch, payload⟩]
  | _ => fs

def sendOne (S : Suite) (x : SessionFramer) (payload : Bytes) :
    Except SessionError (Option Bytes) × SessionFramer :=
  match x.sendFrame S payload with
  | (.error e, f) => (.error e, f)
  | (.ok wire, f) => (.ok (some wire), f)

lemma Joined.send (hS : S.Ideal) (h : Joined S K lead r x p ds fs dr fr) (hl : lead ≤ 1)
    (hp : p.epoch ≤ x.epoch + 1) {payload : Bytes} (hne : payload ≠ [])
    (hle : payload.length ≤ maxFramePlaintext) :
    Joined S K 0 r (sendOne S x payload).2 p ds (sentOn fs payload (sendOne S x payload)) dr
      fr := by
  rcases sendFrame_counted hS.toSized h.near.counted payload with
    ⟨hw, err, he⟩ | ⟨ct, hn, hct, hps, -, hln, he⟩
  · have hx : x.inner.sendNonce + 1 = 2 ^ 64 := by
      rcases hw with h0 | h1 | h2
      · exact absurd h0 hne
      · omega
      · exact h2
    simp only [sendOne, he, sentOn]
    exact ⟨h.near, h.far, h.out.exhausted hx, h.inn⟩
  · rw [sealNext_eq h.near.keyed, x.sendDirection_eq, h.near.role_eq,
      h.out.send_seq, h.out.send_nonce] at hct
    have hse : SealedAfter S K r (ds ++ fs) ⟨wireFrame ct, x.epoch, payload⟩ := by
      refine ⟨ct, hct, rfl, ?_⟩
      unfold minOuterCtLen maxOuterCtLen
      omega
    simp only [sendOne, he, sentOn]
    exact ⟨⟨h.near.role_eq, keyed_sent h.near.keyed,
      counted_sent h.near.counted hn⟩, h.far,
      h.out.send hl rfl hp hn hse, { h.inn with }⟩

lemma Joined.write (hS : S.Ideal) (h : Joined S K 0 r x p ds fs dr fr) {target : ℕ} {buf : Bytes}
    (hpc : buf ≠ [] → (x.Advances target → ∀ fl ∈ fr, x.epoch ≤ fl.epoch) ∧
      p.epoch ≤ (if x.Advances target then x.epoch + 1 else x.epoch) + 1) :
    Joined S K 0 r (x.pollWrite S target buf).2 p ds
      (sentOn fs (buf.take maxFramePlaintext) (x.pollWrite S target buf)) dr fr := by
  by_cases hb : buf = []
  · simp only [pollWrite, if_pos hb, sentOn]
    exact h
  obtain ⟨hfr, hp⟩ := hpc hb
  have hne : buf.take maxFramePlaintext ≠ [] := by simp [take_eq_nil_iff, hb, maxFramePlaintext]
  have hle : (buf.take maxFramePlaintext).length ≤ maxFramePlaintext := by
    rw [length_take]
    exact min_le_left _ _
  by_cases ha : x.Advances target
  · rw [if_pos ha] at hp
    have hw : x.pollWrite S target buf =
        sendOne S (x.advanced S) (buf.take maxFramePlaintext) := by
      simp only [pollWrite, if_neg hb, x.maybeAdvance_of_advances S ha]
      rfl
    rw [hw]
    exact (h.advance ha.2.2 (hfr ha)).send hS le_rfl hp hne hle
  · rw [if_neg ha] at hp
    have hf := x.maybeAdvance_of_not S ha
    rcases hm : x.maybeAdvance S target with ⟨err | b, g⟩
    · obtain rfl : g = x := by rw [hm] at hf; exact hf
      simp only [pollWrite, if_neg hb, hm, sentOn]
      exact h
    obtain rfl : g = x := by rw [hm] at hf; exact hf
    have hw : g.pollWrite S target buf = sendOne S g (buf.take maxFramePlaintext) := by
      simp only [pollWrite, if_neg hb, hm]
      rfl
    rw [hw]
    exact h.send hS (zero_le _) hp hne hle

lemma Joined.deliver (hS : S.Ideal) (h : Joined S K 0 r x p ds fs dr (fl :: fr)) :
    ∃ x', x.recvFrame S fl.wire = (.ok fl.payload, x') ∧
      Joined S K 0 r x' p ds fs (dr ++ [fl]) fr := by
  have hr : x.role = r.peer.peer := by rw [Role.peer_peer, h.near.role_eq]
  have hc : ∀ x', x.recvFrame S fl.wire = (.ok fl.payload, x') → x'.Counted := by
    intro x' he
    rcases recvFrame_counted h.near.counted fl.wire with
      ⟨err, he'⟩ | ⟨_, _, g, he', -, hg, -⟩
    · rw [he'] at he
      simp at he
    · rw [he'] at he
      obtain rfl : g = x' := (Prod.mk.inj he).2
      exact hg
  rcases h.inn.recv hS h.near.keyed h.near.counted h.far.keyed.epoch_lt h.far.counted hr with
    ⟨hfl, he⟩ | ⟨hfl, q, hq, he⟩ | ⟨hfl, he⟩
  · exact ⟨_, he, ⟨h.near.role_eq, keyed_readCurrent h.near.keyed, hc _ he⟩,
      h.far, { h.out with }, h.inn.read_current hfl⟩
  · exact ⟨_, he, ⟨h.near.role_eq, keyed_readPrev h.near.keyed hq, hc _ he⟩,
      h.far, { h.out with }, h.inn.read_prev hfl hq⟩
  have hle : fl.epoch ≤ p.epoch := h.inn.le_sender fl (by simp)
  have hlt : x.epoch + 1 < 2 ^ 32 := by
    have := h.far.keyed.epoch_lt
    omega
  have ho : Lane S K 0 r x.opened p ds fs := { h.out with }
  have hn : Lane S K 1 r (x.opened.readNext S) p ds fs := { ho.advance_sender with }
  refine ⟨_, he, ⟨h.near.role_eq, keyed_readNext h.near.keyed hlt, hc _ he⟩,
    h.far, hn.of_le ?_, h.inn.read_next hfl⟩
  exact le_trans hfl.ge hle

def Inv (S : Suite) (K : Secrets) (s : Link) (r : Role) : Prop :=
  Joined S K 0 r (s.side r) (s.side r.peer) (s.done r.peer) (s.chan r.peer) (s.done r) (s.chan r)

lemma Inv.all {s : Link} (h : Inv S K s r) (r' : Role) : Inv S K s r' := by
  have hsy : Inv S K s r.peer := by
    have hs := Joined.symm h
    cases r <;> exact hs
  cases r <;> cases r' <;> first | exact h | exact hsy

lemma peer_ne : r.peer ≠ r := by cases r <;> decide

lemma inv_init (binding kPq : Bytes32) (r : Role) :
    Inv S (.ofKeys S binding kPq) (init S binding kPq) r := by
  have he : ∀ r, End S (.ofKeys S binding kPq) r ((init S binding kPq).side r) := fun r =>
    ⟨rfl, keyed_fromSessionKeys binding kPq r, counted_fromSessionKeys binding kPq r⟩
  have hl : ∀ r r', Lane S (.ofKeys S binding kPq) 0 r ((init S binding kPq).side r)
      ((init S binding kPq).side r') [] [] := by
    intro r r'
    refine ⟨List.Pairwise.nil, by simp, by simp, by simp, trivial, .inl le_rfl, ?_, ?_, ?_,
      fun _ => ⟨le_rfl, by simp⟩, rfl, rfl, trivial⟩
    · cases r <;> rfl
    · cases r' <;> rfl
    · intro p hp
      cases hp
  exact ⟨he r, he r.peer, hl r r.peer, hl r.peer r⟩

lemma inv_step (hS : S.Ideal) (s : Link) (e : LinkEvent) (h : ∀ r, Inv S K s r)
    (hp : s.Paced e) (r : Role) : Inv S K (s.step S e) r := by
  cases e with
  | write w target buf =>
    have hw := Joined.write hS (h w) hp
    refine Inv.all (r := w) ?_ r
    unfold Inv
    simp only [step, update_self, update_of_ne peer_ne]
    unfold sentOn at hw
    rcases hr : ((s.side w).pollWrite S target buf).1 with err | _ | wire
    · simpa only [hr] using hw
    · simpa only [hr] using hw
    · simp only [hr] at hw
      simp only [update_self, update_of_ne (peer_ne).symm]
      exact hw
  | deliver w =>
    refine Inv.all (r := w) ?_ r
    rcases hc : s.chan w with _ | ⟨fl, rest⟩
    · simp only [step, hc]
      exact h w
    have hw := h w
    unfold Inv at hw
    rw [hc] at hw
    obtain ⟨x', he, hj⟩ := Joined.deliver hS hw
    simp only [step, hc, he]
    unfold Inv
    simp only [update_self, update_of_ne peer_ne]
    exact hj

lemma delivers_of_inv (hS : S.Ideal) (s : Link) (e : LinkEvent) (h : ∀ r, Inv S K s r) :
    s.Delivers S e := by
  cases e with
  | write w target buf => trivial
  | deliver w =>
    rcases hc : s.chan w with _ | ⟨fl, rest⟩
    · simp [Delivers, hc]
    have hw := h w
    unfold Inv at hw
    rw [hc] at hw
    obtain ⟨x', he, -⟩ := Joined.deliver hS hw
    simp [Delivers, hc, he]

/-- If every write keeps pace with the peer, every frame is read as it was written. -/
theorem delivers_of_paced (S : Suite) (hS : S.Ideal) (binding kPq : Bytes32)
    (es : List LinkEvent) (hp : Along (step S) Paced (init S binding kPq) es) :
    Along (step S) (Delivers S) (init S binding kPq) es ∧
    ∀ r, ∀ fl ∈ (run (step S) (init S binding kPq) es).chan r,
      ((run (step S) (init S binding kPq) es).side r).epoch ≤ fl.epoch + 1 := by
  have hs := inv_step (K := .ofKeys S binding kPq) hS
  refine ⟨along_of_inv hs (fun s e hi _ => delivers_of_inv hS s e hi) _ es
    (inv_init binding kPq) hp, fun r => ?_⟩
  have h := Runs.inv_run hs _ es (inv_init binding kPq) hp
  exact (h r).inn.floor

theorem delivers_of_paced_tagged :
    let s := init tagged (Vector.replicate 32 0) (Vector.replicate 32 0)
    let es : List LinkEvent := [.write .initiator 1 [1], .write .responder 1 [2],
      .deliver .responder, .deliver .initiator, .write .responder 2 [3], .deliver .initiator]
    Along (step tagged) Paced s es ∧ Along (step tagged) (Delivers tagged) s es ∧
    ∀ r, ∀ fl ∈ (run (step tagged) s es).chan r,
      ((run (step tagged) s es).side r).epoch ≤ fl.epoch + 1 :=
  ⟨by decide +kernel, delivers_of_paced tagged tagged_ideal _ _ _ (by decide +kernel)⟩

/-- The responder writes twice while a frame of the first epoch is on its way, which is then too
old. -/
theorem not_delivers_crossing : tagged.Ideal ∧ ¬Along (step tagged) (Delivers tagged)
      (init tagged (Vector.replicate 32 0) (Vector.replicate 32 0))
      [.write .initiator 0 [1], .write .responder 2 [2], .write .responder 2 [3],
        .deliver .responder] :=
  ⟨tagged_ideal, by decide +kernel⟩

end Link

end Mirage
