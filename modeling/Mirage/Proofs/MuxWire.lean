import Mirage.Proofs.MuxTable

/-!
# Frames and targets on the wire

The first bytes of a frame fix all but its body (`decodeOne_header`), and the reader has of every
flight the frames that have come (`readerTask_eq`).
-/

namespace Mirage.Mux

open Words List

namespace MuxCmd

lemma fromByte_toByte (c : MuxCmd) : fromByte c.toByte = .ok c := by
  cases c <;> rfl

lemma toByte_of_fromByte {b : UInt8} {c : MuxCmd} (h : fromByte b = .ok c) : c.toByte = b := by
  unfold fromByte at h
  split at h <;> simp_all <;> subst h <;> rfl

end MuxCmd

namespace MuxFrame

variable {f : MuxFrame} {buf acc p q rest : Bytes} {frames : List MuxFrame} {n : ℕ}

def header (f : MuxFrame) : Bytes :=
  beBytes 2 f.wireSize ++ beBytes 4 f.streamId.toNat ++ [f.command.toByte]

lemma encode_eq : f.encode = f.header ++ f.body := by
  simp [encode, header]

lemma length_header : f.header.length = muxHeaderLen := by
  simp [header, muxHeaderLen]

lemma length_encode : f.encode.length = f.wireSize := by
  simp [encode_eq, length_header, wireSize]

lemma decodeOne_header (hf : f.Bounded) (b : Bytes) : decodeOne (f.header ++ b) =
    if b.length < f.body.length then .error (.truncated f.wireSize (muxHeaderLen + b.length))
    else .ok ({ f with body := b.take f.body.length }, f.wireSize) := by
  obtain ⟨hid, hln⟩ := hf
  have hs : f.wireSize = 7 + f.body.length := rfl
  have hm : f.wireSize ≤ 16384 := hln
  have hl : beNat (beBytes 2 f.wireSize) = f.wireSize := beNat_beBytes (by omega)
  have hi : beNat (beBytes 4 f.streamId.toNat) = _ := beNat_beBytes f.streamId.toNat_lt
  simp only [header, beBytes, nil_append, cons_append] at hl hi ⊢
  simp only [decodeOne, hl, hi, UInt32.ofNat_toNat, if_neg hid, MuxCmd.fromByte_toByte,
    muxHeaderLen, maxMuxFrameLen, length_cons]
  split_ifs <;> first | omega | simp_all [Nat.add_comm 7]

lemma encode_of_decodeOne (h : decodeOne buf = .ok (f, n)) : f.encode = buf.take n := by
  unfold decodeOne at h
  split at h
  · rename_i l₀ l₁ i₀ i₁ i₂ i₃ cmd tail
    simp only at h
    split_ifs at h with hs hl ht hz
    split at h
    · cases h
    rename_i c hc
    obtain ⟨rfl, rfl⟩ := h
    have hi : beNat [i₀, i₁, i₂, i₃] < 4294967296 := by simpa using beNat_lt [i₀, i₁, i₂, i₃]
    simp only [muxHeaderLen, not_lt] at hs ht
    obtain ⟨k, hk⟩ := Nat.exists_eq_add_of_le' hs
    simp only [encode, wireSize, muxHeaderLen, MuxCmd.toByte_of_fromByte hc,
      UInt32.toNat_ofNat_of_lt' hi, hk]
    have h2 := beBytes_beNat [l₀, l₁]
    have h4 := beBytes_beNat [i₀, i₁, i₂, i₃]
    simp_all [Nat.add_comm 7]
  · cases h

lemma decodeOne_short (h : p.length < muxHeaderLen) :
    decodeOne p = .error (.truncated muxHeaderLen p.length) := by
  unfold decodeOne
  split
  · simp [muxHeaderLen] at h
    omega
  · rfl

/-- A front of a wire is truncated, or starts with the whole frame. -/
theorem decodeOne_part (hf : f.Bounded) (h : p ++ q = f.encode ++ rest) :
    (p.length < f.wireSize ∧ ∃ claimed len, decodeOne p = .error (.truncated claimed len)) ∨
      ∃ rest', p = f.encode ++ rest' ∧ decodeOne p = .ok (f, f.wireSize) := by
  rcases Nat.lt_or_ge p.length muxHeaderLen with hs | hl
  · exact .inl ⟨hs.trans_le (Nat.le_add_right _ _), _, _, decodeOne_short hs⟩
  rw [encode_eq, append_assoc] at h
  obtain ⟨b, rfl⟩ : f.header <+: p :=
    prefix_of_prefix_length_le ⟨_, h.symm⟩ ⟨q, rfl⟩ (by rwa [length_header])
  rw [append_assoc, append_cancel_left_eq] at h
  rw [decodeOne_header hf]
  split_ifs with hlt
  · simp [wireSize, length_header, hlt]
  · obtain ⟨rest', rfl⟩ : f.body <+: b :=
      prefix_of_prefix_length_le ⟨_, h.symm⟩ ⟨q, rfl⟩ (not_lt.1 hlt)
    exact .inr ⟨rest', by simp [encode_eq], by simp⟩

lemma encode_ne_nil (f : MuxFrame) : f.encode ≠ [] := by
  simp [encode]

lemma eq_nil_of_flatMap (h : frames.flatMap encode = []) : frames = [] :=
  eq_nil_iff_forall_not_mem.2 fun f hf => f.encode_ne_nil (flatMap_eq_nil_iff.1 h f hf)

lemma decodeLoop_eq (hf : ∀ f ∈ frames, f.Bounded) (h : p ++ q = frames.flatMap encode)
    (hn : p.length ≤ n) : ∃ fs fs' p', frames = fs ++ fs' ∧ decodeLoop n p = (fs, some p') ∧
      p' ++ q = fs'.flatMap encode ∧ (q = [] → fs' = []) := by
  induction n generalizing p frames with
  | zero =>
    obtain rfl := eq_nil_of_length_eq_zero (Nat.le_zero.1 hn)
    exact ⟨[], frames, [], rfl, rfl, h, fun hq => eq_nil_of_flatMap (by simp [← h, hq])⟩
  | succ n ih =>
    rcases frames with _ | ⟨f, frames⟩
    · simp only [flatMap_nil, append_eq_nil_iff] at h
      exact ⟨[], [], [], rfl, by simp [decodeLoop, decodeOne, h], by simp [h], fun _ => rfl⟩
    rw [flatMap_cons] at h
    rcases decodeOne_part (hf f (by simp)) h with ⟨hlt, c, l, hd⟩ | ⟨rest', rfl, hd⟩
    · refine ⟨[], f :: frames, p, rfl, by simp [decodeLoop, hd], h, fun hq => ?_⟩
      have := congrArg length h
      simp [hq, length_encode] at this
      omega
    rw [append_assoc, append_cancel_left_eq] at h
    have hln : rest'.length ≤ n := by
      have := length_pos_iff.2 f.encode_ne_nil
      rw [length_append] at hn
      omega
    obtain ⟨fs, fs', p', rfl, hl, hp, hq⟩ := ih (fun g hg => hf g (by simp [hg])) h hln
    refine ⟨f :: fs, fs', p', rfl, ?_, hp, hq⟩
    simp only [decodeLoop, hd, ← length_encode, drop_left, hl]

lemma readerTask_eq {chunks : List Bytes} (hf : ∀ f ∈ frames, f.Bounded) (hne : [] ∉ chunks)
    (h : acc ++ chunks.flatten = frames.flatMap encode) (he : chunks = [] → frames = []) :
    readerTask acc chunks = (frames, some []) := by
  induction chunks generalizing acc frames with
  | nil => simp_all [readerTask]
  | cons chunk chunks ih =>
    rw [flatten_cons, ← append_assoc] at h
    obtain ⟨fs, fs', p', rfl, hl, hp, hq⟩ := decodeLoop_eq hf h le_rfl
    have hr := ih (fun g hg => hf g (by simp [hg])) (fun hm => hne (by simp [hm])) hp
      (fun hn => hq (by simp [hn]))
    have hc : chunk ≠ [] := fun hn => hne (by simp [hn])
    rw [readerTask, if_neg hc, hl]
    simp [hr]

lemma encodeInto_eq (h : f.wireSize ≤ buf.length) :
    f.encodeInto buf = .ok (f.wireSize, f.encode ++ buf.drop f.wireSize) := by
  have hw : f.wireSize = f.body.length + 7 := Nat.add_comm _ _
  obtain ⟨x, tail, hx⟩ := exists_cons_of_length_pos (l := buf.drop 6) (by simp; omega)
  have ht : buf.drop (f.body.length + 7) = tail.drop f.body.length := by
    rw [show f.body.length + 7 = 6 + (f.body.length + 1) by omega, ← drop_drop, hx]
    rfl
  simp [encodeInto, encode, beBytes, muxHeaderLen, hx, ht, hw]
  omega

/-- A frame that `new` accepts is read back from its encoding; what is read is an encoding; and
however the encodings come, the reader has their frames. -/
theorem wire_format : (∀ f, MuxFrame.new f.streamId f.command f.body = .ok f →
      (∀ rest, decodeOne (f.encode ++ rest) = .ok (f, f.wireSize)) ∧
      (∀ buf, f.wireSize ≤ buf.length →
        f.encodeInto buf = .ok (f.wireSize, f.encode ++ buf.drop f.wireSize)) ∧
      ∀ p, p <+: f.encode → p ≠ f.encode →
        ∃ claimed len, decodeOne p = .error (.truncated claimed len)) ∧
    (∀ buf f n, decodeOne buf = .ok (f, n) → f.encode = buf.take n) ∧
    ∀ frames chunks, (∀ f ∈ frames, MuxFrame.new f.streamId f.command f.body = .ok f) →
      [] ∉ chunks → chunks.flatten = frames.flatMap encode →
        readerTask [] chunks = (frames, some []) := by
  refine ⟨fun f hf => ⟨fun rest => ?_, fun buf hb => ?_, ?_⟩, fun _ _ _ => encode_of_decodeOne,
    fun frames chunks hf hne h => ?_⟩
  · rw [encode_eq, append_assoc, decodeOne_header (new_eq_ok.1 hf).2]
    simp
  · exact encodeInto_eq hb
  · rintro p ⟨q, hq⟩ hne
    rw [← append_nil f.encode] at hq
    rcases decodeOne_part (new_eq_ok.1 hf).2 hq with ⟨-, ht⟩ | ⟨rest', rfl, -⟩
    · exact ht
    · simp_all
  · refine readerTask_eq (fun f hm => (new_eq_ok.1 (hf f hm)).2) hne h fun hn => ?_
    exact eq_nil_of_flatMap (by simp [← h, hn])

end MuxFrame

end Mirage.Mux
