import Mirage.Proofs.Framer
import Mirage.Session.Endpoints
import Mirage.Session.Primitives

/-!
# A framer returns what its peer sent, in order

No sequence number of the outer layer runs ahead of the transport's nonce (`Counted`), so a frame
whose message the transport accepted is returned.
-/

namespace Mirage

open Runs Words Function SessionFramer Nat
open List hiding Vector

namespace SessionFramer

variable {S : Suite} {f : SessionFramer}

/-- No sequence number runs ahead of the nonce of its side. -/
structure Counted (f : SessionFramer) : Prop where
  send_le : f.send.seq ≤ f.inner.sendNonce
  send_lt : f.inner.sendNonce < 2 ^ 64
  recv_le : f.recv.seq ≤ f.inner.recvNonce
  prev_le : ∀ p, f.recvPrev = some p → p.seq ≤ f.inner.recvNonce
  recv_lt : f.inner.recvNonce < 2 ^ 64

lemma counted_fromSessionKeys (binding kPq : Bytes32) (role : Role) :
    (fromSessionKeys S binding kPq role).Counted := by
  constructor
  case prev_le => intro p hp; cases hp
  all_goals cases role <;> first | exact le_rfl | exact Nat.two_pow_pos 64

lemma counted_install (e : ℕ) (rI rR : Bytes32) (h : f.Counted) :
    (f.install S e rI rR).Counted where
  send_le := by rw [install_send]; exact zero_le _
  send_lt := h.send_lt
  recv_le := by rw [install_recv]; exact zero_le _
  prev_le p hp := by
    obtain rfl : f.recv = p := Option.some.inj hp
    exact h.recv_le
  recv_lt := h.recv_lt

lemma counted_sent (h : f.Counted) (hn : f.inner.sendNonce + 1 < 2 ^ 64) : f.sent.Counted :=
  ⟨succ_le_succ h.send_le, hn, h.recv_le, h.prev_le, h.recv_lt⟩

lemma sendFrame_counted (hS : S.Sized) (h : f.Counted) (plaintext : Bytes) :
    ((plaintext = [] ∨ maxFramePlaintext < plaintext.length ∨ f.inner.sendNonce + 1 = 2 ^ 64) ∧
      ∃ err, f.sendFrame S plaintext = (.error err, f)) ∨
    ∃ ct, f.inner.sendNonce + 1 < 2 ^ 64 ∧ f.sealNext S plaintext = some ct ∧
      0 < plaintext.length ∧ plaintext.length ≤ maxFramePlaintext ∧
      ct.length = plaintext.length + 2 * aeadTagLen ∧
      f.sendFrame S plaintext = (.ok (wireFrame ct), f.sent) := by
  have hle := h.send_le
  have hlt := h.send_lt
  unfold sendFrame TransportState.writeMessage
  split_ifs with h1 h2 h3
  · exact .inl ⟨.inl h1, _, rfl⟩
  · exact .inl ⟨.inr (.inl h2), _, rfl⟩
  · exact .inl ⟨.inr (.inr h3), _, rfl⟩
  have hl := hS.noise_length f.role f.inner.sendNonce plaintext
  obtain ⟨ct, hct, hc⟩ := hS.encrypt_some f.send.key
    (nonceBytes f.send.iv f.epoch f.send.seq)
    (aadBytes f.sessionBinding f.sendDirection f.epoch f.send.seq) _
    (show (S.noiseEncrypt f.role f.inner.sendNonce plaintext).length ≤ _ by omega)
  have hm : ¬maxOuterCtLen < ct.length := by
    unfold maxOuterCtLen
    omega
  have hs : f.send.seq + 1 < 2 ^ 64 := by omega
  refine .inr ⟨ct, by omega, hct, length_pos_iff.2 h1, by omega, by omega, ?_⟩
  have hc' : S.encrypt f.send.key (nonceBytes f.send.iv f.epoch f.send.seq)
    (aadBytes f.sessionBinding ({ f with inner :=
      { f.inner with sendNonce := f.inner.sendNonce + 1 } }).sendDirection f.epoch f.send.seq)
    (S.noiseEncrypt f.role f.inner.sendNonce plaintext) = some ct := hct
  simp only [hc', if_neg hm, checkedSucc_eq_some.2 ⟨rfl, hs⟩]
  rfl

lemma settle_counted (h : f.Counted) {outerCt innerCt : Bytes} {which : Which}
    (ht : f.trial S outerCt = .ok (innerCt, which)) (hn : f.inner.recvNonce + 1 < 2 ^ 64) :
    ∃ g, f.opened.settle S which = (.ok (), g) ∧ g.Counted ∧ g.role = f.role ∧
      g.inner = f.opened.inner := by
  have hle := h.recv_le
  cases which with
  | current =>
    refine ⟨_, f.opened.settle_current S (show f.recv.seq + 1 < 2 ^ 64 by omega), ?_, rfl, rfl⟩
    exact ⟨h.send_le, h.send_lt, succ_le_succ hle, (by intro p hp; cases hp), hn⟩
  | prev =>
    obtain ⟨p, hp⟩ := Option.ne_none_iff_exists'.1 (f.trial_prev S ht)
    have hpl := h.prev_le p hp
    refine ⟨_, f.opened.settle_prev S hp (by omega), ?_, rfl, rfl⟩
    refine ⟨h.send_le, h.send_lt, le_succ_of_le hle, fun p' hp' => ?_, hn⟩
    obtain rfl := Option.some.inj hp'
    exact succ_le_succ hpl
  | next =>
    have ho : f.opened.Counted :=
      ⟨h.send_le, h.send_lt, le_succ_of_le hle, fun p hp => le_succ_of_le (h.prev_le p hp), hn⟩
    have ha : (f.opened.advanced S).Counted := counted_install _ _ _ ho
    refine ⟨_, f.opened.settle_next S (f.trial_next S ht), ?_, rfl, rfl⟩
    exact ⟨ha.send_le, ha.send_lt, succ_le_succ (zero_le _), ha.prev_le, hn⟩

lemma recvFrame_counted (h : f.Counted) (wire : Bytes) :
    (∃ err, f.recvFrame S wire = (.error err, f)) ∨
    ∃ innerCt plaintext g, f.recvFrame S wire = (.ok plaintext, g) ∧
      S.noiseDecrypt f.role.peer f.inner.recvNonce innerCt = some plaintext ∧
      g.Counted ∧ g.role = f.role ∧ g.inner = f.opened.inner := by
  rcases f.recvFrame_cases S wire with he | ⟨_, _, _, innerCt, which, plaintext, -, ht, hr, he⟩
  · exact .inl he
  right
  unfold TransportState.readMessage at hr
  split_ifs at hr with hn
  split at hr
  · simp at hr
  rename_i pt hd
  obtain rfl : pt = plaintext := (Prod.mk.inj (Except.ok.inj hr)).1
  have hlt := h.recv_lt
  obtain ⟨g, hg, hgc, hgr, hgi⟩ := settle_counted h ht (by omega)
  rw [hg] at he
  exact ⟨innerCt, pt, g, he, hd, hgc, hgr, hgi⟩

lemma apply_counted (h : f.Counted) (op : FramerOp) (hs : ∀ p, op ≠ .send p)
    (hr : ∀ w, op ≠ .recv w) : (f.apply S op).Counted ∧ (f.apply S op).role = f.role ∧
      (f.apply S op).inner = f.inner := by
  cases op with
  | send p => exact absurd rfl (hs p)
  | recv w => exact absurd rfl (hr w)
  | maybeAdvance target =>
    by_cases ha : f.Advances target
    · rw [apply, f.maybeAdvance_of_advances S ha]
      exact ⟨counted_install _ _ _ h, rfl, rfl⟩
    · rw [apply, f.maybeAdvance_of_not S ha]
      exact ⟨h, rfl, rfl⟩
  | advanceEpoch =>
    rcases lt_or_ge (f.epoch + 1) (2 ^ 32) with hlt | hle
    · rw [apply, f.advanceEpoch_of_lt S hlt]
      exact ⟨counted_install _ _ _ h, rfl, rfl⟩
    · obtain ⟨err, he⟩ := f.advanceEpoch_of_le S hle
      rw [apply, he]
      exact ⟨h, rfl, rfl⟩
  | kemReseed x m =>
    rcases f.kemReseed_cases S x m with ⟨err, he⟩ | ⟨tag, rI, rR, -, he⟩
    · rw [apply, he]
      exact ⟨h, rfl, rfl⟩
    · rw [apply, he]
      exact ⟨counted_install _ _ _ h, rfl, rfl⟩
  | expirePrevRecv =>
    exact ⟨⟨h.send_le, h.send_lt, h.recv_le, by simp [apply, expirePrevRecv], h.recv_lt⟩, rfl, rfl⟩

end SessionFramer

variable {plaintext : Bytes} {r : Role} {d : Duplex}

namespace Duplex

variable {S : Suite}

/-- What was got is a front of what the peer has sent. -/
structure Inv (d : Duplex) : Prop where
  role_eq : ∀ r, (d.side r).role = r
  counted : ∀ r, (d.side r).Counted
  written_eq : d.written = d.sent
  sent_length : ∀ r, (d.side r).inner.sendNonce = (d.sent r).length
  got_length : ∀ r, (d.side r).inner.recvNonce = (d.got r).length
  got_prefix : ∀ r, d.got r <+: d.sent r.peer

lemma inv_init (binding kPq : Bytes32) : Inv (init S binding kPq) where
  role_eq _ := rfl
  counted r := counted_fromSessionKeys binding kPq r
  written_eq := rfl
  sent_length _ := rfl
  got_length _ := rfl
  got_prefix _ := nil_prefix

lemma prefix_push {got sent : List Bytes} (h : got <+: sent)
    (hn : sent[got.length]? = some plaintext) : got ++ [plaintext] <+: sent := by
  obtain ⟨rest, rfl⟩ := h
  cases rest with
  | nil => simp at hn
  | cons x rest =>
    obtain rfl : x = plaintext := by simpa using hn
    exact ⟨rest, by simp⟩

variable (log : Role → List Bytes)

lemma push_self (x : Bytes) : push log r x r = log r ++ [x] := update_self ..

lemma push_of_ne {r' : Role} (h : r' ≠ r) (x : Bytes) :
    push log r x r' = log r' := update_of_ne h ..

lemma inv_quiet {g : SessionFramer} (h : Inv d) (hg : g.Counted)
    (hrl : g.role = (d.side r).role) (hi : g.inner = (d.side r).inner) :
    Inv { d with side := update d.side r g } := by
  refine ⟨fun r' => ?_, fun r' => ?_, h.written_eq, fun r' => ?_, fun r' => ?_, h.got_prefix⟩
  all_goals
    by_cases hr : r' = r
    · subst hr
      simp only [update_self, hrl, hi]
      first | exact h.role_eq _ | exact hg | exact h.sent_length _ | exact h.got_length _
    · simp only [update_of_ne hr]
      first | exact h.role_eq _ | exact h.counted _ | exact h.sent_length _ | exact h.got_length _

lemma inv_ratchet (h : Inv d) (op : FramerOp) (hs : ∀ p, op ≠ .send p) (hr : ∀ w, op ≠ .recv w) :
    Inv { d with side := update d.side r ((d.side r).apply S op) } := by
  obtain ⟨hc, hrl, hi⟩ := apply_counted (h.counted r) op hs hr
  exact inv_quiet h hc hrl hi

lemma inv_sent (h : Inv d) (hn : (d.side r).inner.sendNonce + 1 < 2 ^ 64) : Inv { d with
      side := update d.side r (d.side r).sent
      written := push d.written r plaintext, sent := push d.sent r plaintext } := by
  refine ⟨fun r' => ?_, fun r' => ?_, by rw [h.written_eq], fun r' => ?_, fun r' => ?_,
    fun r' => ?_⟩
  case refine_5 =>
    by_cases hr : r'.peer = r
    · simp only [hr, push_self]
      rw [← hr]
      exact (h.got_prefix r').trans (prefix_append _ _)
    · simp only [push_of_ne _ hr]
      exact h.got_prefix r'
  all_goals
    by_cases hr : r' = r
    · subst hr
      simp only [update_self, push_self, length_append, length_singleton]
      first
        | exact h.role_eq _
        | exact counted_sent (h.counted _) hn
        | exact congrArg (· + 1) (h.sent_length _)
        | exact h.got_length _
    · simp only [update_of_ne hr, push_of_ne _ hr]
      first | exact h.role_eq _ | exact h.counted _ | exact h.sent_length _ | exact h.got_length _

lemma inv_got {g : SessionFramer} (h : Inv d) (hg : g.Counted) (hrl : g.role = (d.side r).role)
    (hi : g.inner = (d.side r).opened.inner)
    (hn : (d.sent r.peer)[(d.got r).length]? = some plaintext) :
    Inv { d with side := update d.side r g, got := push d.got r plaintext } := by
  refine ⟨fun r' => ?_, fun r' => ?_, h.written_eq, fun r' => ?_, fun r' => ?_, fun r' => ?_⟩
  all_goals
    by_cases hr : r' = r
    · subst hr
      simp only [update_self, push_self, hrl, hi, length_append, length_singleton]
      first
        | exact h.role_eq _
        | exact hg
        | exact h.sent_length _
        | exact congrArg (· + 1) (h.got_length _)
        | exact prefix_push (h.got_prefix _) hn
    · simp only [update_of_ne hr, push_of_ne _ hr]
      first
        | exact h.role_eq _
        | exact h.counted _
        | exact h.sent_length _
        | exact h.got_length _
        | exact h.got_prefix _

lemma withTranscript_accepts {w : Role → List Bytes} {n : ℕ} {ct : Bytes}
    (h : (S.withTranscript w).noiseDecrypt r n ct = some plaintext) :
    (w r)[n]? = some plaintext := by
  simp only [Suite.withTranscript] at h
  split at h
  · split_ifs at h
    rwa [← Option.some.inj h]
  · simp at h

lemma inv_step (hS : S.Sized) (e : Role × FramerOp) (h : Inv d) : Inv (d.step S e) := by
  obtain ⟨r, op⟩ := e
  cases op with
  | send plaintext =>
    rcases sendFrame_counted (S := S.withTranscript d.written)
        ⟨hS.encrypt_some, hS.noise_length⟩ (h.counted r) plaintext with
      ⟨-, err, he⟩ | ⟨ct, hn, -, -, -, -, he⟩
    · simp only [step, apply, he, if_true]
      exact inv_quiet h (h.counted r) rfl rfl
    have hne : ¬(d.side r).sent.inner.sendNonce = (d.side r).inner.sendNonce :=
      succ_ne_self _
    simp only [step, apply, he, if_neg hne]
    exact inv_sent h hn
  | recv wire =>
    rcases recvFrame_counted (S := S.withTranscript d.written) (h.counted r) wire
      with ⟨err, he⟩ | ⟨innerCt, plaintext, g, he, hd, hg, hr, hi⟩
    · simp only [step, apply, he]
      exact inv_quiet h (h.counted r) rfl rfl
    have hnx := withTranscript_accepts hd
    rw [h.role_eq, h.written_eq, h.got_length] at hnx
    simp only [step, apply, he]
    exact inv_got h hg hr hi hnx
  | maybeAdvance target => exact inv_ratchet h (.maybeAdvance target) (by simp) (by simp)
  | advanceEpoch => exact inv_ratchet h .advanceEpoch (by simp) (by simp)
  | kemReseed x m => exact inv_ratchet h (.kemReseed x m) (by simp) (by simp)
  | expirePrevRecv => exact inv_ratchet h .expirePrevRecv (by simp) (by simp)

/-- What `recv` returns is a front of what the peer has sent, and a refusal changes nothing. -/
theorem got_prefix_sent (S : Suite) (hS : S.Sized) (binding kPq : Bytes32)
    (es : List (Role × FramerOp)) :
    let d := run (step S) (init S binding kPq) es
    (∀ r, d.got r <+: d.sent r.peer) ∧
    ∀ r wire err, ((d.side r).recvFrame (S.withTranscript d.written) wire).1 = .error err →
      ((d.side r).recvFrame (S.withTranscript d.written) wire).2 = d.side r := by
  intro d
  have h : Inv d := Runs.inv_run (fun s e hi _ => inv_step hS e hi)
    _ es (inv_init binding kPq) (along_true _ es)
  refine ⟨h.got_prefix, fun r wire err hey => ?_⟩
  rcases SessionFramer.recvFrame_counted (h.counted r) wire
    with ⟨err', he⟩ | ⟨_, plaintext, g, he, -⟩
  · rw [he]
  · rw [he] at hey
    simp at hey

theorem got_prefix_sent_tagged :
    let d := run (step Suite.tagged) (init Suite.tagged (Vector.replicate 32 0)
      (Vector.replicate 32 0))
      [(.initiator, .send [7]), (.responder, .recv ([0, 33, 7] ++ replicate 32 0))]
    d.got .responder = [[7]] ∧ (∀ r, d.got r <+: d.sent r.peer) ∧
    ∀ r wire err,
      ((d.side r).recvFrame (Suite.tagged.withTranscript d.written) wire).1 = .error err →
      ((d.side r).recvFrame (Suite.tagged.withTranscript d.written) wire).2 = d.side r :=
  ⟨by decide +kernel, got_prefix_sent Suite.tagged Suite.tagged_ideal.toSized _ _ _⟩

end Duplex

end Mirage
