import Mathlib.Data.List.Infix
import Mathlib.Data.List.TakeDrop
import Mathlib.Data.List.TakeWhile
import Mirage.Transport.Probe

/-!
# What the cover sees of a client

The cover sees the client as it is if the reader of the first record has come to a decision with all
that it has read (`Decisive`).
-/

namespace Mirage.Transport

open Words List

namespace ClientStream

variable (c : ClientStream) {t t' : ℕ}

lemma takeWhile_prefix_takeWhile (chunks : List (ℕ × Bytes)) (h : t ≤ t') :
    chunks.takeWhile (fun chunk => chunk.1 ≤ t) <+:
      chunks.takeWhile (fun chunk => chunk.1 ≤ t') := by
  induction chunks with
  | nil => simp
  | cons chunk chunks ih =>
    by_cases hc : chunk.1 ≤ t
    · simpa [hc, hc.trans h] using ih
    · simp [hc]

lemma sentBy_prefix (h : t ≤ t') : c.sentBy t <+: c.sentBy t' :=
  (takeWhile_prefix_takeWhile c.chunks h).flatMap _

lemma endedBy_mono (h : t ≤ t') (he : c.endedBy t = true) : c.endedBy t' = true := by
  simp only [endedBy, Bool.and_eq_true, Option.any_eq_true, all_eq_true, decide_eq_true_eq] at he ⊢
  obtain ⟨⟨t₀, ht₀, hle⟩, ha⟩ := he
  exact ⟨⟨t₀, ht₀, hle.trans h⟩, fun chunk hc => (ha chunk hc).trans h⟩

lemma sentBy_of_endedBy (he : c.endedBy t = true) : c.sentBy t = c.chunks.flatMap Prod.snd := by
  simp only [endedBy, Bool.and_eq_true, all_eq_true] at he
  rw [sentBy, takeWhile_eq_self_iff.2 he.2]

end ClientStream

/-- The record is too long, or all of it is there. -/
def Readable (sent : Bytes) : Prop :=
  recordHeaderLen ≤ sent.length ∧
    (maxClientHelloSize < claimed sent ∨ recordHeaderLen + claimed sent ≤ sent.length)

/-- The reader decides on all that is sent. -/
def Decisive (sent : Bytes) (ended : Bool) : Prop :=
  Readable sent ∨ ended = true ∧ (sent = [] ∨ sent.length = recordHeaderLen)

instance (sent : Bytes) (ended : Bool) : Decidable (Decisive sent ended) := by
  unfold Decisive Readable
  infer_instance

variable {bytes later consumed : Bytes} {ended : Bool} {read : ℕ}

lemma claimed_eq_of_prefix (h : bytes <+: later) (hl : recordHeaderLen ≤ bytes.length) :
    claimed later = claimed bytes := by
  obtain ⟨rest, rfl⟩ := h
  simp only [recordHeaderLen] at hl
  rw [claimed, claimed, drop_append_of_le_length (by omega),
    take_append_of_le_length (by simp; omega)]

lemma Readable.mono (hs : Readable bytes) (h : bytes <+: later) : Readable later := by
  have hle := h.length_le
  rw [Readable, claimed_eq_of_prefix h hs.1]
  have := hs.2
  exact ⟨hs.1.trans hle, this.imp_right fun hw => hw.trans hle⟩

lemma take_append_drop_of_isPrefix (h : bytes <+: later) (hl : read ≤ bytes.length) :
    bytes.take read ++ later.drop read = later := by
  obtain ⟨rest, rfl⟩ := h
  rw [drop_append_of_le_length hl, ← append_assoc, take_append_drop]

lemma readOneTlsRecord_isSome :
    (readOneTlsRecord (maxClientHelloSize + recordHeaderLen) bytes ended).isSome ↔
      Readable bytes ∨ ended = true := by
  rw [readOneTlsRecord, Readable]
  split_ifs with hs he hb hc he <;> simp_all <;> omega

/-- What was read and what is still to come are all there is. -/
theorem replayed_iff {r : Except Bytes Bytes}
    (h : readOneTlsRecord (maxClientHelloSize + recordHeaderLen) bytes ended = some (read, r))
    (hr : r = .error consumed ∨ r = .ok consumed) (hl : bytes <+: later)
    (hen : ended = true → later = bytes) :
    consumed ++ later.drop read = later ↔ Decisive bytes ended := by
  rw [readOneTlsRecord] at h
  split_ifs at h with hs he hb hc he
  · obtain ⟨rfl, rfl⟩ := Prod.mk.inj (Option.some.inj h)
    obtain rfl : consumed = [] := by simpa using hr.symm
    obtain rfl := hen he
    simp only [Decisive, Readable, he, drop_length, append_nil, true_and]
    refine ⟨fun h => .inr (.inl h.symm), ?_⟩
    rintro (⟨hln, -⟩ | hn | hln)
    · omega
    · exact hn.symm
    · omega
  · obtain ⟨rfl, rfl⟩ := Prod.mk.inj (Option.some.inj h)
    obtain rfl : bytes.take recordHeaderLen = consumed := by simpa using hr
    exact iff_of_true (take_append_drop_of_isPrefix hl (by omega))
      (.inl ⟨by omega, .inl (by omega)⟩)
  · obtain ⟨rfl, rfl⟩ := Prod.mk.inj (Option.some.inj h)
    obtain rfl : bytes.take recordHeaderLen = consumed := by simpa using hr
    obtain rfl := hen he
    simp only [Decisive, Readable, he, drop_length, append_nil, true_and, take_eq_self_iff]
    refine ⟨fun h => .inr (.inr (by omega)), ?_⟩
    rintro (⟨-, hb' | hw⟩ | rfl | hln)
    · omega
    · omega
    · simp
    · omega
  · obtain ⟨rfl, rfl⟩ := Prod.mk.inj (Option.some.inj h)
    obtain rfl : bytes.take _ = consumed := by simpa using hr
    exact iff_of_true (take_append_drop_of_isPrefix hl (by omega))
      (.inl ⟨by omega, .inr (by omega)⟩)

lemma ClientStream.decisive_iff (c : ClientStream) {t t' : ℕ} (hle : t ≤ t')
    (h : Readable (c.sentBy t) ∨ c.endedBy t = true) :
    Decisive (c.sentBy t') (c.endedBy t') ↔ Decisive (c.sentBy t) (c.endedBy t) := by
  rcases h with h | he
  · exact iff_of_true (.inl (h.mono (c.sentBy_prefix hle))) (.inl h)
  · have he' := c.endedBy_mono hle he
    rw [he, he', c.sentBy_of_endedBy he, c.sentBy_of_endedBy he']

/-- The cover has got what the client has sent by the cut, and the client what the cover answers to
that. -/
def AcceptOutcome.Covered (cover : Cover) (c : ClientStream) : AcceptOutcome → Prop
  | .coverServed cut toCover ended toClient => toCover = c.sentBy cut ∧ ended = c.endedBy cut ∧
      toClient = cover.answer (c.sentBy cut) (c.endedBy cut)
  | _ => False

section

variable {S : RealitySuite} {parse : Bytes → Except RealityError ParsedClientHello}
  {inputs : BridgeCarrierInputs} {jitter : ℕ → ℕ} {cover : Cover} {c : ClientStream}
  {set : ReplayProbeSet} {t delay : ℕ}

lemma covered_forwardToCover {r : Except Bytes Bytes} (hc : cover.connect = some delay)
    (h : readOneTlsRecord (maxClientHelloSize + recordHeaderLen) (c.sentBy t) (c.endedBy t) =
      some (read, r)) (hr : r = .error consumed ∨ r = .ok consumed) :
    (forwardToCover inputs jitter cover c t read consumed).Covered cover c ↔
      Decisive (c.sentBy t) (c.endedBy t) := by
  simp only [forwardToCover, hc, AcceptOutcome.Covered, true_and]
  generalize (if inputs.coverDurationCap = 0 then inputs.coverDurationCap
    else jitter inputs.coverDurationCap) = durationCap
  have hle : t ≤ t + delay + durationCap := by omega
  rw [← replayed_iff h hr (c.sentBy_prefix hle) fun he => by
    rw [c.sentBy_of_endedBy he, c.sentBy_of_endedBy (c.endedBy_mono hle he)]]
  exact ⟨And.left, fun h => ⟨h, by rw [h]⟩⟩

lemma decidedAt_eq_some (h : decidedAt inputs c = some t) : t ≤ inputs.clientHelloReadTimeout ∧
      (readOneTlsRecord (maxClientHelloSize + recordHeaderLen) (c.sentBy t)
        (c.endedBy t)).isSome := by
  have hm := mem_of_find?_eq_some h
  rw [mem_range] at hm
  exact ⟨by omega, by simpa using find?_some h⟩

lemma decidedAt_eq_none (h : decidedAt inputs c = none) :
    readOneTlsRecord (maxClientHelloSize + recordHeaderLen)
      (c.sentBy inputs.clientHelloReadTimeout) (c.endedBy inputs.clientHelloReadTimeout) =
      none := by
  simpa using find?_eq_none.1 h inputs.clientHelloReadTimeout (by simp)

end

def constantReality : RealitySuite := ⟨fun _ _ => probeRootDisabled, fun _ _ => probeRootDisabled⟩

def sampleInputs : BridgeCarrierInputs := ⟨probeRootDisabled, 0, probeRootDisabled, true, 3, 10⟩

def echoCover : Cover := ⟨some 1, fun received _ => received⟩

def sampleAccept (c : ClientStream) : AcceptOutcome × ReplayProbeSet :=
  realityAccept constantReality (fun _ => .error .tagMismatch) sampleInputs id echoCover c (.new 1)

end Mirage.Transport
