import Mirage.Session.Frames

/-!
# What the framer's calls can do

Each call is described once: which checks passed and what the state is afterwards. An epoch change
is one `install`.
-/

namespace Mirage

open Words

lemma Role.peer_peer (r : Role) : r.peer.peer = r := by cases r <;> rfl

variable {plaintext innerCt : Bytes}

namespace SessionFramer

variable (S : Suite) (f : SessionFramer)

lemma nextEpoch_eq_ok {e : ℕ} : f.nextEpoch = .ok e ↔ e = f.epoch + 1 ∧ f.epoch + 1 < 2 ^ 32 := by
  unfold nextEpoch
  rcases h : checkedSucc f.epoch with _ | m
  · have hn : ¬f.epoch + 1 < 2 ^ 64 := fun hlt => by
      rw [checkedSucc_eq_some.2 ⟨rfl, hlt⟩] at h
      simp at h
    simp only [reduceCtorEq, false_iff, not_and]
    omega
  · obtain ⟨rfl, -⟩ := checkedSucc_eq_some.1 h
    simp only
    split_ifs with hc
    · simp only [false_iff, not_and]
      omega
    · simp only [Except.ok.injEq]
      omega

section Install

variable (e : ℕ) (rI rR : Bytes32)

@[simp] lemma install_epoch : (f.install S e rI rR).epoch = e := rfl

@[simp] lemma install_role : (f.install S e rI rR).role = f.role := rfl

@[simp] lemma install_recvPrev : (f.install S e rI rR).recvPrev = some f.recv := rfl

lemma install_send :
    (f.install S e rI rR).send = freshDir S ((f.install S e rI rR).root f.sendDirection) e := by
  cases h : f.role <;> simp [install, split, sendDirection, root, h]

lemma install_recv : (f.install S e rI rR).recv =
    freshDir S ((f.install S e rI rR).root f.sendDirection.opposite) e := by
  cases h : f.role <;> simp [install, split, sendDirection, root, Direction.opposite, h]

end Install

variable {g f' : SessionFramer} {target : ℕ} {outerCt : Bytes}

lemma sendDirection_of_role {f : SessionFramer} (h : f.role = g.role) :
    f.sendDirection = g.sendDirection := by
  simp [sendDirection, h]

def ratcheted (d : Direction) : Bytes32 :=
  ratchetRoot S d.ratchetLabel (f.root d) (f.epoch + 1) f.sessionBinding

def advanced : SessionFramer :=
  f.install S (f.epoch + 1) (f.ratcheted S .i2r) (f.ratcheted S .r2i)

lemma advanceEpoch_of_lt (h : f.epoch + 1 < 2 ^ 32) :
    f.advanceEpoch S = (.ok (), f.advanced S) := by
  unfold advanceEpoch
  rw [(f.nextEpoch_eq_ok).2 ⟨rfl, h⟩]
  rfl

lemma advanceEpoch_of_le (h : 2 ^ 32 ≤ f.epoch + 1) :
    ∃ err, f.advanceEpoch S = (.error err, f) := by
  unfold advanceEpoch
  rcases hn : f.nextEpoch with err | e
  · exact ⟨err, rfl⟩
  · have := f.nextEpoch_eq_ok.1 hn
    omega

lemma kemReseed_cases (a b : Bytes32) : (∃ err, f.kemReseed S a b = (.error err, f)) ∨
    ∃ tag rI rR, f.epoch + 1 < 2 ^ 32 ∧
      f.kemReseed S a b = (.ok tag, f.install S (f.epoch + 1) rI rR) := by
  unfold kemReseed
  rcases hn : f.nextEpoch with err | e
  · exact .inl ⟨err, rfl⟩
  · obtain ⟨rfl, hlt⟩ := f.nextEpoch_eq_ok.1 hn
    exact .inr ⟨_, _, _, hlt, rfl⟩

lemma maybeAdvance_of_advances (h : f.Advances target) :
    f.maybeAdvance S target = (.ok true, f.advanced S) := by
  obtain ⟨h1, h2, h3⟩ := h
  unfold maybeAdvance
  rw [if_neg (by omega), if_neg (by omega), f.advanceEpoch_of_lt S h3]

lemma maybeAdvance_of_not (h : ¬f.Advances target) : (f.maybeAdvance S target).2 = f := by
  unfold maybeAdvance
  split_ifs with h1 h2
  · rfl
  · rfl
  have hle : 2 ^ 32 ≤ f.epoch + 1 := by
    unfold Advances at h
    omega
  obtain ⟨err, he⟩ := f.advanceEpoch_of_le S hle
  rw [he]

def sealNext (plaintext : Bytes) : Option Bytes :=
  S.encrypt f.send.key (nonceBytes f.send.iv f.epoch f.send.seq)
    (aadBytes f.sessionBinding f.sendDirection f.epoch f.send.seq)
    (S.noiseEncrypt f.role f.inner.sendNonce plaintext)

def sent : SessionFramer :=
  { f with
    inner := { f.inner with sendNonce := f.inner.sendNonce + 1 },
    send := { f.send with seq := f.send.seq + 1 } }

lemma sendFrame_ok {wire : Bytes}
    (h : f.sendFrame S plaintext = (.ok wire, f')) : f' = f.sent ∧ f.send.seq + 1 < 2 ^ 64 ∧
      ∃ ct, f.sealNext S plaintext = some ct ∧ wire = wireFrame ct := by
  unfold sendFrame TransportState.writeMessage at h
  split_ifs at h with h1 h2 h3
  all_goals simp only [Prod.mk.injEq, reduceCtorEq, false_and] at h
  split at h
  · simp at h
  rename_i ct hct
  split_ifs at h
  · simp at h
  split at h
  · simp at h
  rename_i seq hs
  obtain ⟨rfl, hlt⟩ := checkedSucc_eq_some.1 hs
  simp only [Prod.mk.injEq, Except.ok.injEq] at h
  exact ⟨h.2.symm, hlt, ct, hct, h.1.symm⟩

lemma sendFrame_error {err : SessionError}
    (h : f.sendFrame S plaintext = (.error err, f')) : ∃ t, f' = { f with inner := t } := by
  unfold sendFrame TransportState.writeMessage at h
  split_ifs at h with h1 h2 h3
  · exact ⟨f.inner, (Prod.mk.inj h).2.symm⟩
  · exact ⟨f.inner, (Prod.mk.inj h).2.symm⟩
  · exact ⟨f.inner, (Prod.mk.inj h).2.symm⟩
  simp only at h
  split at h
  · exact ⟨_, (Prod.mk.inj h).2.symm⟩
  split_ifs at h
  · exact ⟨_, (Prod.mk.inj h).2.symm⟩
  · split at h
    · exact ⟨_, (Prod.mk.inj h).2.symm⟩
    · simp at h

def readCurrent : SessionFramer :=
  { f with
    recv := { f.recv with seq := f.recv.seq + 1 }, lastRecvEpoch := f.epoch, recvPrev := none }

def readPrev (p : DirState) : SessionFramer :=
  { f with recvPrev := some { p with seq := p.seq + 1 } }

def readNext : SessionFramer :=
  { f.advanced S with
    recv := { (f.advanced S).recv with seq := 1 }, lastRecvEpoch := f.epoch + 1 }

lemma settle_current (h : f.recv.seq + 1 < 2 ^ 64) :
    f.settle S .current = (.ok (), f.readCurrent) := by
  simp only [settle, checkedSucc_eq_some.2 ⟨rfl, h⟩]
  rfl

lemma settle_prev {p : DirState} (hp : f.recvPrev = some p) (h : p.seq + 1 < 2 ^ 64) :
    f.settle S .prev = (.ok (), f.readPrev p) := by
  simp only [settle, hp, checkedSucc_eq_some.2 ⟨rfl, h⟩]
  rfl

lemma settle_next (h : f.epoch + 1 < 2 ^ 32) : f.settle S .next = (.ok (), f.readNext S) := by
  simp only [settle, f.advanceEpoch_of_lt S h]
  rfl

def opened : SessionFramer :=
  { f with inner := { f.inner with recvNonce := f.inner.recvNonce + 1 } }

lemma recvFrame_cases (wire : Bytes) : (∃ err, f.recvFrame S wire = (.error err, f)) ∨
    ∃ hi lo outerCt innerCt which plaintext,
      wire = hi :: lo :: outerCt ∧ f.trial S outerCt = .ok (innerCt, which) ∧
      f.inner.readMessage S f.role innerCt = .ok (plaintext, f.opened.inner) ∧
      f.recvFrame S wire = match f.opened.settle S which with
        | (.error e, f) => (.error e, f)
        | (.ok (), f) => (.ok plaintext, f) := by
  unfold recvFrame
  split
  · rename_i hi lo outerCt
    simp only
    split_ifs with h1 h2
    · exact .inl ⟨_, rfl⟩
    · exact .inl ⟨_, rfl⟩
    rcases ht : f.trial S outerCt with e | ⟨innerCt, which⟩
    · exact .inl ⟨_, rfl⟩
    rcases hr : f.inner.readMessage S f.role innerCt with e | ⟨plaintext, inner⟩
    · exact .inl ⟨.noise e, by simp only [hr]⟩
    have hi' : inner = f.opened.inner := by
      unfold TransportState.readMessage at hr
      split_ifs at hr
      split at hr
      · simp at hr
      · simp only [Except.ok.injEq, Prod.mk.injEq] at hr
        exact hr.2.symm
    subst hi'
    exact .inr ⟨hi, lo, outerCt, innerCt, which, plaintext, rfl, ht, hr, by
      simp only [hr]
      rfl⟩
  · exact .inl ⟨_, rfl⟩

lemma recvFrame_wireFrame {ct : Bytes} {which : Which}
    (hl : minOuterCtLen ≤ ct.length ∧ ct.length ≤ maxOuterCtLen)
    (ht : f.trial S ct = .ok (innerCt, which))
    (hr : f.inner.readMessage S f.role innerCt = .ok (plaintext, f.opened.inner))
    (hg : f.opened.settle S which = (.ok (), g)) :
    f.recvFrame S (wireFrame ct) = (.ok plaintext, g) := by
  have hm : maxOuterCtLen < 256 ^ 2 := by decide
  have hln := beNat_beBytes (lt_of_le_of_lt hl.2 hm)
  obtain ⟨hi, lo, hb⟩ : ∃ hi lo, beBytes 2 ct.length = [hi, lo] := ⟨_, _, rfl⟩
  rw [hb] at hln
  have hw : wireFrame ct = hi :: lo :: ct := by simp [wireFrame, hb]
  have hnl : ¬(hi :: lo :: ct).length ≠ lenPrefixSize + beNat [hi, lo] := by
    simp only [List.length_cons, hln, lenPrefixSize]
    omega
  rw [hw]
  simp only [recvFrame, if_neg hnl, ht, hr]
  rw [if_neg (by rw [hln]; omega)]
  rw [show { f with inner := f.opened.inner } = f.opened from rfl, hg]

lemma trial_next (h : f.trial S outerCt = .ok (innerCt, .next)) : f.epoch + 1 < 2 ^ 32 := by
  unfold trial at h
  simp only at h
  split at h
  · simp at h
  split at h
  · simp at h
  split at h
  · simp at h
  rename_i e he
  obtain ⟨rfl, -⟩ := checkedSucc_eq_some.1 he
  unfold recvMaterialFor at h
  split_ifs at h with hc
  exact not_le.1 hc

lemma trial_prev (h : f.trial S outerCt = .ok (innerCt, .prev)) : f.recvPrev ≠ none := by
  intro hn
  unfold trial at h
  simp only [hn, Option.bind_none, ite_self] at h
  split at h
  · simp at h
  split at h
  · simp at h
  split at h
  · simp at h
  split at h <;> simp at h

end SessionFramer

end Mirage
