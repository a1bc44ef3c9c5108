import Mirage.Transport.WuStream

/-!
# What the preamble wrapper passes on

What the carrier still owes to the wire is what is left of its stage and of the data
(`CarrierOut.Owes.wrote`). A read returns what follows the preamble (`CarrierIn.readOnce`).
-/

namespace Mirage.Transport

open Words Wires Wires.Wire IoError List Nat

namespace WuOut

/-- The offset is within the stage, which is empty when it is done. -/
structure Valid (o : WuOut) : Prop where
  le : o.outOff ≤ o.outStage.length
  done : o.outDone = true → o.rest = []

variable {o : WuOut} {w₀ : Wire UInt8} {owed data tail : Bytes} {s : WriteEnd}

/-- What becomes of the stage. -/
inductive Stage (o : WuOut) (w₀ : Wire UInt8) (owed tail : Bytes) :
    IoPoll Unit × WuOut × WriteEnd → Prop
  | pending {o' : WuOut} {s : WriteEnd} (valid : o'.Valid)
    (staged : o'.stagedPayload = o.stagedPayload) (h : Sends w₀ owed (o'.rest ++ tail) s) :
    Stage o w₀ owed tail (.pending, o', s)
  | failed {o' : WuOut} {s : WriteEnd} {e : IoError} (closed : w₀.closed = true)
    (valid : o'.Valid) (staged : o'.stagedPayload = o.stagedPayload)
    (h : Sends w₀ owed (o'.rest ++ tail) s) : Stage o w₀ owed tail (.failed e, o', s)
  | done {o' : WuOut} {s : WriteEnd} (valid : o'.Valid)
    (staged : o'.stagedPayload = o.stagedPayload) (rest : o'.rest = []) (h : Sends w₀ owed tail s) :
    Stage o w₀ owed tail (.ready (), o', s)

lemma valid_add (hv : o.Valid) {k : ℕ} (hk : k ≤ o.rest.length) :
    ({ o with outOff := o.outOff + k } : WuOut).Valid ∧
      ({ o with outOff := o.outOff + k } : WuOut).rest = o.rest.drop k := by
  have hr : ({ o with outOff := o.outOff + k } : WuOut).rest = o.rest.drop k := by
    simp [rest, drop_drop]
  refine ⟨⟨?_, fun hd => ?_⟩, hr⟩
  · have := hv.le
    rw [rest, length_drop] at hk
    change o.outOff + k ≤ o.outStage.length
    omega
  · rw [hr, hv.done hd, drop_nil]

lemma drainStage_stage (hv : o.Valid) (h : Sends w₀ owed (o.rest ++ tail) s) :
    Stage o w₀ owed tail (o.drainStage s) := by
  have hd : Drained (fun data => Sends w₀ owed (data ++ tail)) (fun _ => w₀.closed = true) o.rest
      (drain (fun data s => Wire.pollWrite IoError.inner data s.1 s.2)
        (.writeZero "wu: inner refused the preamble") o.rest.length o.rest s) :=
    drain_spec (fun data s hdt hR => hR.wrote hdt) _ o.rest s le_rfl h
  rw [drainStage]
  generalize drain (fun data s => Wire.pollWrite IoError.inner data s.1 s.2)
    (.writeZero "wu: inner refused the preamble") o.rest.length o.rest s = r at hd
  cases hd with
  | pending le h =>
    obtain ⟨hv', hr⟩ := valid_add hv le
    exact .pending hv' rfl (hr ▸ h)
  | failed le closed h =>
    obtain ⟨hv', hr⟩ := valid_add hv le
    exact .failed closed hv' rfl (hr ▸ h)
  | all h =>
    obtain ⟨hv', hr⟩ := valid_add hv (le_refl o.rest.length)
    split_ifs with hdn
    · exact .done hv' rfl (by rw [hr, drop_length]) h
    · exact .done ⟨le_refl 0, fun _ => rfl⟩ rfl rfl h

lemma stagePayload_spec (hv : o.Valid) (hle : o.stagedPayload ≤ data.length) (hd : data ≠ [])
    (ho : o.outDone = false ∨ 0 < o.stagedPayload) :
    (o.stagePayload data).Valid ∧ 0 < (o.stagePayload data).stagedPayload ∧
      (o.stagePayload data).stagedPayload ≤ data.length ∧
      (o.stagePayload data).rest ++ data.drop (o.stagePayload data).stagedPayload =
        o.rest ++ data.drop o.stagedPayload := by
  rw [stagePayload]
  by_cases h0 : o.stagedPayload = 0
  · have hl := length_pos_of_ne_nil hd
    have hmx : 0 < maxStagedPayload := by decide
    have hn : o.outDone = false := by
      rcases ho with h | h
      · exact h
      · omega
    have hr : (o.outStage ++ data.take maxStagedPayload).drop o.outOff =
        o.rest ++ data.take maxStagedPayload := drop_append_of_le_length hv.le
    rw [if_pos ⟨h0, hd⟩]
    refine ⟨⟨?_, fun hdn => ?_⟩, ?_, min_le_left _ _, ?_⟩
    · have := hv.le
      simp only [length_append]
      omega
    · simp [hn] at hdn
    · simp only
      omega
    · have hs : data.take maxStagedPayload ++ data.drop (min data.length maxStagedPayload) =
          data := by
        rcases le_total data.length maxStagedPayload with hm | hm
        · rw [min_eq_left hm, take_of_length_le hm, drop_length, append_nil]
        · rw [min_eq_right hm, take_append_drop]
      change (o.outStage ++ data.take maxStagedPayload).drop o.outOff ++ _ = _
      rw [hr, h0, append_assoc, hs, drop_zero]
  · rw [if_neg fun h => h0 h.1]
    exact ⟨hv, by omega, hle, rfl⟩

lemma drainStage_of_closed (hw : s.1.closed = true) (hr : o.rest ≠ []) :
    ∃ e o' s', o.drainStage s = (.failed e, o', s') := by
  obtain ⟨x, l, hx⟩ := exists_cons_of_ne_nil hr
  have hf : o.drainStage s = (.failed .inner, { o with outOff := o.outOff + 0 }, s) := by
    simp [drainStage, hx, drain, pollWrite_of_closed hw]
  exact ⟨_, _, _, hf⟩

end WuOut

variable {out : Option WuOut} {w : Wire UInt8} {inn : Option WuIn}

namespace CarrierOut

def restOf (out : Option WuOut) : Bytes := out.elim [] WuOut.rest

def stagedOf (out : Option WuOut) : ℕ := out.elim 0 WuOut.stagedPayload

/-- What is left of the stage and of the data is owed to the wire. -/
structure Owes (w₀ : Wire UInt8) (owed data : Bytes) (c : CarrierOut) : Prop where
  valid : ∀ o ∈ c.1, o.Valid
  staged : stagedOf c.1 ≤ data.length
  sends : Sends w₀ owed (restOf c.1 ++ data.drop (stagedOf c.1)) c.2

variable {w₀ : Wire UInt8} {owed data tail : Bytes} {s : WriteEnd} {c : CarrierOut}

lemma owes_some {o : WuOut} : Owes w₀ owed data (some o, s) ↔
    o.Valid ∧ o.stagedPayload ≤ data.length ∧
      Sends w₀ owed (o.rest ++ data.drop o.stagedPayload) s :=
  ⟨fun h => ⟨h.valid o rfl, h.staged, h.sends⟩,
    fun h => ⟨fun _ ho => Option.some.inj ho ▸ h.1, h.2.1, h.2.2⟩⟩

lemma wrote_through (hr : restOf out = []) (hs : stagedOf out = 0)
    (hv : ∀ o ∈ out, o.Valid) (h : Sends w₀ owed data s) (hd : data ≠ []) :
    Wrote (Owes w₀ owed) (fun _ => w₀.closed = true) data
      ((Wire.pollWrite IoError.inner data s.1 s.2).1, out,
        (Wire.pollWrite IoError.inner data s.1 s.2).2) := by
  have hw : Wrote (fun data => Sends w₀ owed (data ++ [])) (fun _ => w₀.closed = true) data
      (Wire.pollWrite IoError.inner data s.1 s.2) := Sends.wrote (by rwa [append_nil]) hd
  have ho {data : Bytes} {s : WriteEnd} (h : Sends w₀ owed (data ++ []) s) :
      Owes w₀ owed data (out, s) := by
    rw [append_nil] at h
    exact ⟨hv, by rw [hs]; exact zero_le _, by
      simpa only [hr, hs, nil_append, drop_zero] using h⟩
  generalize Wire.pollWrite IoError.inner data s.1 s.2 = r at hw
  cases hw with
  | pending h => exact .pending (ho h)
  | some pos le h => exact .some pos le (ho h)
  | failed closed h => exact .failed closed (ho h)

lemma Owes.wrote (h : Owes w₀ owed data c) (hd : data ≠ []) :
    Wrote (Owes w₀ owed) (fun _ => w₀.closed = true) data (c.pollWrite data) := by
  obtain ⟨_ | o, s⟩ := c
  · exact wrote_through rfl rfl nofun h.sends hd
  obtain ⟨hv, hle, hs⟩ := owes_some.1 h
  simp only [pollWrite, WuOut.pollWrite]
  split_ifs with hon
  · obtain ⟨hv', hp, hl', heq⟩ := o.stagePayload_spec hv hle hd hon
    rw [← heq] at hs
    have hst := WuOut.drainStage_stage hv' hs
    generalize (o.stagePayload data).drainStage s = r at hst
    cases hst with
    | pending valid staged h =>
      refine .pending (owes_some.2 ⟨valid, staged ▸ hl', ?_⟩)
      rwa [staged]
    | failed closed valid staged h =>
      refine .failed closed (owes_some.2 ⟨valid, staged ▸ hl', ?_⟩)
      rwa [staged]
    | @done o' s' valid staged rest h =>
      have hm : min o'.stagedPayload data.length = (o.stagePayload data).stagedPayload := by
        rw [staged, min_eq_left hl']
      simp only [hm, if_pos hp]
      refine .some hp hl' (owes_some.2 ⟨⟨valid.le, valid.done⟩, zero_le _, ?_⟩)
      have hr : ({ o' with stagedPayload := 0 } : WuOut).rest = [] := rest
      rw [hr]
      exact h
  · rw [not_or, Bool.not_eq_false, not_lt, le_zero] at hon
    obtain ⟨hdn, h0⟩ := hon
    have hr := hv.done hdn
    rw [hr, h0] at hs
    exact wrote_through hr h0 (fun _ ho => Option.some.inj ho ▸ hv) hs hd

lemma pollWrite_of_closed (hw : c.2.1.closed = true) (hv : ∀ o ∈ c.1, o.Valid)
    (hs : stagedOf c.1 = 0) (hd : data ≠ []) : ∃ e c', c.pollWrite data = (.failed e, c') := by
  obtain ⟨_ | o, s⟩ := c
  · have hf : pollWrite data (none, s) = (.failed .inner, none, s) := by
      simp [pollWrite, Wire.pollWrite_of_closed hw]
    exact ⟨_, _, hf⟩
  cases hdn : o.outDone with
  | true =>
    have ht : ¬ (o.outDone = false ∨ 0 < o.stagedPayload) := by
      rw [show o.stagedPayload = 0 from hs, hdn]
      simp
    have hf : pollWrite data (some o, s) = (.failed .inner, some o, s) := by
      simp [pollWrite, WuOut.pollWrite, if_neg ht, Wire.pollWrite_of_closed hw]
    exact ⟨_, _, hf⟩
  | false =>
    obtain ⟨-, hp, hle, heq⟩ := o.stagePayload_spec (hv o rfl)
      (show o.stagedPayload ≤ data.length by rw [show o.stagedPayload = 0 from hs]; simp) hd
      (.inl hdn)
    have hr : (o.stagePayload data).rest ≠ [] := by
      intro hn
      rw [hn, nil_append, show o.stagedPayload = 0 from hs, drop_zero] at heq
      have hl := congrArg length heq
      rw [length_drop, length_append] at hl
      omega
    obtain ⟨e, o', s', hda⟩ := WuOut.drainStage_of_closed hw hr
    exact ⟨e, (some o', s'), by
      simp [pollWrite, WuOut.pollWrite, hdn, hda]⟩

lemma owes_of_stage {o : WuOut} {r : IoPoll Unit × WuOut × WriteEnd}
    (hle : o.stagedPayload ≤ data.length)
    (h : WuOut.Stage o w₀ owed (data.drop o.stagedPayload) r) :
    Owes w₀ owed data (some r.2.1, r.2.2) := by
  cases h with
  | pending valid staged h | failed closed valid staged h =>
    exact owes_some.2 ⟨valid, staged ▸ hle, by rwa [staged]⟩
  | done valid staged rest h =>
    refine owes_some.2 ⟨valid, staged ▸ hle, ?_⟩
    simp only [rest, staged]
    exact h

lemma Owes.script {script script' : List WriteAnswer} (h : Owes w₀ owed data (out, w, script))
    (hs : Sane script') : Owes w₀ owed data (out, w, script') :=
  ⟨h.valid, h.staged, ⟨hs, h.sends.moved⟩⟩

lemma pollFlush_wire {script : List WriteAnswer} (hs : Sane script) :
    ∃ script', Sane script' ∧ (Wire.pollFlush IoError.inner w script).2 = (w, script') := by
  cases script with
  | nil => exact ⟨[], hs, rfl⟩
  | cons a script => cases a <;> exact ⟨script, hs.tail, rfl⟩

lemma pollFlush_owes (h : Owes w₀ owed data c) : Owes w₀ owed data c.pollFlush.2 := by
  obtain ⟨_ | o, w, script⟩ := c
  · obtain ⟨script', hs, heq⟩ := pollFlush_wire (w := w) h.sends.sane
    simp only [pollFlush, heq]
    exact h.script hs
  obtain ⟨hv, hle, hs⟩ := owes_some.1 h
  have hst := WuOut.drainStage_stage hv hs
  have ho := owes_of_stage hle hst
  simp only [pollFlush, WuOut.pollFlush]
  generalize o.drainStage (w, script) = r at hst ho
  cases hst with
  | pending | failed => exact ho
  | @done o' s' =>
    obtain ⟨script', hs', heq⟩ := pollFlush_wire (w := s'.1) ho.sends.sane
    simp only [heq]
    exact ho.script hs'

/-- What becomes of a shutdown. -/
inductive Shut (w₀ : Wire UInt8) (owed data : Bytes) : IoPoll Unit × CarrierOut → Prop
  | pending {c : CarrierOut} (h : Owes w₀ owed data c) : Shut w₀ owed data (.pending, c)
  | failed {c : CarrierOut} {e : IoError} (h : Owes w₀ owed data c) :
    Shut w₀ owed data (.failed e, c)
  | done {out : Option WuOut} {w : Wire UInt8} {script : List WriteAnswer}
    (rest : restOf out = []) (h : Owes w₀ owed data (out, w, script)) :
    Shut w₀ owed data (.ready (), out, { w with closed := true }, script)

lemma pollShutdown_wire {script : List WriteAnswer} (h : Owes w₀ owed data (out, w, script))
    (hr : restOf out = []) : Shut w₀ owed data ((Wire.pollShutdown IoError.inner w script).1, out,
      (Wire.pollShutdown IoError.inner w script).2) := by
  have hs := h.sends.sane
  cases script with
  | nil => exact .pending h
  | cons a script =>
    cases a with
    | pending => exact .pending (h.script hs.tail)
    | failed => exact .failed (h.script hs.tail)
    | accepted n => exact .done hr (h.script hs.tail)

lemma pollShutdown_shut (h : Owes w₀ owed data c) : Shut w₀ owed data c.pollShutdown := by
  obtain ⟨_ | o, w, script⟩ := c
  · exact pollShutdown_wire h rfl
  obtain ⟨hv, hle, hs⟩ := owes_some.1 h
  have hst := WuOut.drainStage_stage hv hs
  have ho := owes_of_stage hle hst
  simp only [pollShutdown, WuOut.pollShutdown]
  generalize o.drainStage (w, script) = r at hst ho
  cases hst with
  | pending => exact .pending ho
  | failed => exact .failed ho
  | @done o' s' valid staged rest h => exact pollShutdown_wire ho rest

end CarrierOut

namespace WuIn

/-- What is read after the preamble. -/
def Yields (i : WuIn) (flow rest : Bytes) : Prop :=
  match i.inState with
  | .needLen => i.inBuf = [] ∧ ∃ lenByte body, preambleBodyLen lenByte = some body.length ∧
      (∀ b ∈ body, isAlphabet b = true) ∧ flow = lenByte :: body ++ rest
  | .needBody remaining => i.inBuf = [] ∧ 0 < remaining ∧ ∃ body, body.length = remaining ∧
      (∀ b ∈ body, isAlphabet b = true) ∧ flow = body ++ rest
  | .done => i.inBuf ++ flow = rest

variable {i : WuIn} {body l flow rest tail : Bytes}

lemma preambleBodyLen_le {b : UInt8} {n : ℕ} (h : preambleBodyLen b = some n) : n ≤ maxPre := by
  rw [preambleBodyLen] at h
  split at h
  · cases h
  · split_ifs at h with hlt
    cases h
    exact not_lt.1 hlt

lemma feedBody_spec (hbf : i.inBuf = []) (hbd : ∀ b ∈ body, isAlphabet b = true)
    (h : l ++ flow = body ++ rest) :
    ∃ i', i.feedBody body.length l = (none, i') ∧ i'.Yields flow rest ∧
      i'.left ≤ body.length - l.length := by
  have ha {l' : Bytes} (hl : l' ⊆ body) : ¬ (l'.any fun b => !isAlphabet b) = true := by
    rw [any_eq_true]
    rintro ⟨b, hb, hnt⟩
    simp [hbd b (hl hb)] at hnt
  rw [feedBody]
  rcases append_eq_append_iff.1 h with ⟨l', rfl, rfl⟩ | ⟨l', rfl, rfl⟩
  · -- The body goes on behind what came.
    have ht : l.take (min (l ++ l').length l.length) = l := by simp
    have hln : (l ++ l').length - min (l ++ l').length l.length = l'.length := by simp
    have hs : (l ++ l').length - l.length = l'.length := by simp
    simp only [ht, hln, hs, if_neg (ha (subset_append_left l l'))]
    rw [forall_mem_append] at hbd
    split_ifs with hn
    · obtain rfl := eq_nil_of_length_eq_zero hn
      exact ⟨_, rfl, by simp [Yields, hbf], zero_le _⟩
    · exact ⟨_, rfl, ⟨hbf, pos_of_ne_zero hn, l', rfl, hbd.2, rfl⟩, le_refl _⟩
  · have ht : (body ++ l').take (min body.length (body ++ l').length) = body := by simp
    have hd : (body ++ l').drop (min body.length (body ++ l').length) = l' := by simp
    have hln : body.length - min body.length (body ++ l').length = 0 := by simp
    simp only [ht, hd, hln, if_neg (ha (List.Subset.refl body)), if_true]
    exact ⟨_, rfl, by simp [Yields, hbf], zero_le _⟩

lemma feedPreamble_spec (hd : i.inState ≠ .done) (hl : l ≠ []) (h : i.Yields (l ++ flow) rest) :
    ∃ i', i.feedPreamble l = (none, i') ∧ i'.Yields flow rest ∧ i'.left < i.left := by
  have hp := length_pos_of_ne_nil hl
  obtain ⟨st, buf⟩ := i
  cases st with
  | done => exact absurd rfl hd
  | needBody remaining =>
    obtain ⟨hbf, hp', body, rfl, hb, heq⟩ := h
    obtain ⟨i', hf, hy, hlf⟩ := feedBody_spec hbf hb heq
    refine ⟨i', hf, hy, ?_⟩
    change i'.left < body.length
    omega
  | needLen =>
    obtain ⟨hbf, lenByte, body, hln, hb, heq⟩ := h
    obtain ⟨b, l, rfl⟩ := exists_cons_of_ne_nil hl
    rw [cons_append, cons_append, cons.injEq] at heq
    obtain ⟨rfl, heq⟩ := heq
    obtain ⟨i', hf, hy, hlf⟩ := feedBody_spec hbf hb heq
    refine ⟨i', ?_, hy, ?_⟩
    · simp [feedPreamble, hln, hf]
    · have := preambleBodyLen_le hln
      change i'.left < 1 + maxPre
      omega

end WuIn

namespace CarrierIn

def Yields (inn : Option WuIn) (flow rest : Bytes) : Prop :=
  match inn with
  | none => flow = rest
  | some i => i.Yields flow rest

/-- Nothing of the preamble is awaited or kept. -/
def Clear (inn : Option WuIn) : Prop := ∀ i ∈ inn, i.inState = .done ∧ i.inBuf = []

section

variable (w₀ : Wire UInt8) (s₀ : List ReadAnswer) (tail : Bytes)

/-- What was read and what is to come. -/
def Holds (rest : Bytes) (c : CarrierIn) : Prop :=
  ∃ l, Read w₀ s₀ c.2.1 c.2.2 l ∧ Yields c.1 (c.2.1.transit ++ tail) rest

/-- The read is left pending. -/
def Stops (rest : Bytes) (c : CarrierIn) : Prop :=
  ∃ l, Took w₀ c.2.1 l ∧ Waits w₀ s₀ l ∧ Yields c.1 (c.2.1.transit ++ tail) rest

/-- The read has met the end. -/
def Ends (rest : Bytes) (c : CarrierIn) : Prop :=
  ∃ l, Took w₀ c.2.1 l ∧ Yields c.1 (c.2.1.transit ++ tail) rest ∧ w₀.ended = true ∧
    c.2.1.transit = [] ∧ Clear c.1

/-- The read has failed. -/
def Fails (_ : IoError) (rest : Bytes) (c : CarrierIn) : Prop :=
  ∃ l, Took w₀ c.2.1 l ∧ Yields c.1 (c.2.1.transit ++ tail) rest ∧
    (ReadAnswer.failed ∈ s₀ ∨ w₀.ended = true ∧ c.2.1.transit = [] ∧ ∃ i ∈ c.1, i.inState ≠ .done)

end

variable {w₀ : Wire UInt8} {s₀ : List ReadAnswer} {flow rest tail : Bytes} {c : CarrierIn}

lemma yields_of_clear (h : Clear inn) : Yields inn flow rest ↔ flow = rest := by
  cases inn with
  | none => exact Iff.rfl
  | some i =>
    obtain ⟨hd, hb⟩ := h i rfl
    simp [Yields, WuIn.Yields, hd, hb]

lemma Yields.append (h : Yields inn flow rest) (l : Bytes) :
    Yields inn (flow ++ l) (rest ++ l) := by
  cases inn with
  | none => exact congrArg (· ++ l) h
  | some i =>
    obtain ⟨st, buf⟩ := i
    cases st with
    | needLen =>
      obtain ⟨hbf, b, body, hl, hb, rfl⟩ := h
      exact ⟨hbf, b, body, hl, hb, by rw [append_assoc]⟩
    | needBody remaining =>
      obtain ⟨hbf, hp, body, hl, hb, rfl⟩ := h
      exact ⟨hbf, hp, body, hl, hb, by rw [append_assoc]⟩
    | done =>
      change buf ++ (flow ++ l) = rest ++ l
      rw [← append_assoc]
      exact congrArg (· ++ l) h

lemma readOnce_through {s : ReadEnd} {room : ℕ} (hrm : 0 < room) (hc : Clear inn)
    (h : Holds w₀ s₀ tail rest (inn, s)) :
    ReadOnce (Holds w₀ s₀ tail) (Stops w₀ s₀ tail) (Ends w₀ tail) (Fails w₀ s₀ tail) room rest
      ((Wire.pollRead IoError.inner room s.1 s.2).1, inn,
        (Wire.pollRead IoError.inner room s.1 s.2).2) := by
  obtain ⟨l₀, hr, hy⟩ := h
  have hp := pollRead_polled IoError.inner s.1 hrm s.2
  generalize Wire.pollRead IoError.inner room s.1 s.2 = r at hp
  cases hp with
  | pending suffix waits =>
    exact .pending ⟨_, hr.toTook.trans (.refl _), waits.after hr, hy⟩
  | failed hf => exact .failed ⟨l₀, hr.toTook, hy, .inl (hr.suffix.mem hf)⟩
  | ended suffix ended transit =>
    exact .ended ⟨l₀, hr.toTook, hy, hr.toTook.ended ▸ ended, transit, hc⟩
  | @some x l w' t read fits =>
    rw [yields_of_clear hc] at hy
    have hcm : rest = x :: l ++ (w'.transit ++ tail) := by rw [← hy, read.transit, append_assoc]
    exact .some hcm fits ⟨_, hr.trans read, (yields_of_clear hc).2 rfl⟩

/-- What becomes of the preamble. -/
inductive Stripped (w₀ : Wire UInt8) (s₀ : List ReadAnswer) (tail rest : Bytes) :
    IoPoll Unit × WuIn × ReadEnd → Prop
  | done {i : WuIn} {s : ReadEnd} (done : i.inState = .done)
    (h : Holds w₀ s₀ tail rest (some i, s)) : Stripped w₀ s₀ tail rest (.ready (), i, s)
  | pending {i : WuIn} {s : ReadEnd} (h : Stops w₀ s₀ tail rest (some i, s)) :
    Stripped w₀ s₀ tail rest (.pending, i, s)
  | failed {i : WuIn} {s : ReadEnd} {e : IoError} (h : Fails w₀ s₀ tail e rest (some i, s)) :
    Stripped w₀ s₀ tail rest (.failed e, i, s)

lemma strip_stripped : ∀ fuel i s, i.left ≤ fuel →
    Holds w₀ s₀ tail rest (some i, s) → Stripped w₀ s₀ tail rest (WuIn.strip fuel i s)
  | 0, i, s, hl, h => by
    refine .done ?_ h
    obtain ⟨l₀, -, hy⟩ := h
    obtain ⟨st, buf⟩ := i
    cases st with
    | needLen => simp [WuIn.left] at hl
    | needBody remaining => exact absurd hy.2.1 (not_lt.2 hl)
    | done => rfl
  | fuel + 1, i, s, hl, h => by
    rw [WuIn.strip]
    split_ifs with hd
    · exact .done hd h
    obtain ⟨l₀, hr, hy⟩ := h
    have hp := pollRead_polled IoError.inner s.1 (show 0 < 256 by decide) s.2
    generalize Wire.pollRead IoError.inner 256 s.1 s.2 = r at hp
    cases hp with
    | pending suffix waits =>
      exact .pending ⟨_, hr.toTook.trans (.refl _), waits.after hr, hy⟩
    | failed hf => exact .failed ⟨l₀, hr.toTook, hy, .inl (hr.suffix.mem hf)⟩
    | ended suffix ended transit =>
      exact .failed ⟨l₀, hr.toTook, hy, .inr ⟨hr.toTook.ended ▸ ended, transit, i, rfl, hd⟩⟩
    | @some x l w' t read fits =>
      simp only [Yields, read.transit, append_assoc] at hy
      obtain ⟨i', hfd, hy', hlt⟩ :=
        WuIn.feedPreamble_spec hd (cons_ne_nil x l) hy
      simp only [hfd]
      exact strip_stripped fuel i' (w', t) (by omega) ⟨_, hr.trans read, hy'⟩

lemma readOnce {room : ℕ} (hr : 0 < room) (h : Holds w₀ s₀ tail rest c) :
    ReadOnce (Holds w₀ s₀ tail) (Stops w₀ s₀ tail) (Ends w₀ tail) (Fails w₀ s₀ tail) room rest
      (c.pollRead room) := by
  obtain ⟨_ | i, s⟩ := c
  · exact readOnce_through hr nofun h
  have hs := strip_stripped i.left i s le_rfl h
  simp only [pollRead, WuIn.pollRead]
  generalize WuIn.strip i.left i s = r at hs
  cases hs with
  | pending h => exact .pending h
  | failed h => exact .failed h
  | @done i' s' done h =>
    simp only
    split_ifs with hb
    · exact readOnce_through hr (fun _ hi => Option.some.inj hi ▸ ⟨done, hb⟩) h
    obtain ⟨l₀, hrd, hy⟩ := h
    obtain ⟨x, l, hx⟩ : ∃ x l, i'.inBuf.take room = x :: l := by
      refine exists_cons_of_ne_nil ?_
      rw [Ne, take_eq_nil_iff, not_or]
      exact ⟨ne_of_gt hr, hb⟩
    simp only [Yields, WuIn.Yields, done] at hy
    have hc : rest = x :: l ++ (i'.inBuf.drop room ++ (s'.1.transit ++ tail)) := by
      rw [← hx, ← append_assoc, take_append_drop, hy]
    have hf : (x :: l).length ≤ room := by
      rw [← hx]
      exact length_take_le _ _
    rw [hx]
    refine .some hc hf ⟨l₀, hrd, ?_⟩
    simp [Yields, WuIn.Yields, done]

end CarrierIn

end Mirage.Transport
